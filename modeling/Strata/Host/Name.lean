import Strata.Text.Pieces

/-!
# Paths of the host

A path of the host is a text.  Joining a path to a base gives the path itself
if it is absolute.  Taking a path apart ignores repeated slashes and single
dots; two dots are kept, because what they mean depends on links.
-/

namespace Strata.Host

/-- The names between the slashes of a path. -/
def namesOf
    (path : String) :
    List String :=
  ((Text.pieces '/' path.toList).filter (!·.isEmpty)).map String.ofList

/-- Whether a path starts at the root. -/
def isAbsolute
    (path : String) :
    Bool :=
  path.toList.head? == some '/'

/-- Whether a path has a slash at its end. -/
def endsInSlash
    (path : String) :
    Bool :=
  path.toList.getLast? == some '/'

/-- A path seen from a base. -/
def join
    (base path : String) :
    String :=
  if isAbsolute path ∨ base = "" then
    path
  else if endsInSlash base then
    base ++ path
  else
    base ++ "/" ++ path

/-- The absolute path of a list of names. -/
def absolute
    (names : List String) :
    String :=
  "/" ++ String.intercalate "/" names

/-- The names of a path without single dots, which lead nowhere. -/
def steps
    (path : String) :
    List String :=
  (namesOf path).filter (· != ".")

/-- A text without the slashes and single dots that it begins with. -/
def trimFront :
    List Char → List Char
  | '/' :: rest => trimFront rest
  | '.' :: '/' :: rest => trimFront rest
  | ['.'] => []
  | text => text

/-- A text without the slashes and single dots that it ends in. -/
def trimBack
    (text : List Char) :
    List Char :=
  (trimFront text.reverse).reverse

/-- The rest of a text behind the given names. -/
def behindNames? :
    List (List Char) → List Char → Option (List Char)
  | [], text => some (trimBack (trimFront text))
  | name :: names, text =>
    let text := trimFront text
    if text.takeWhile (· != '/') = name then
      behindNames? names (text.dropWhile (· != '/'))
    else
      none

/-- The rest of an absolute path behind a directory, if it lies there. -/
def relativeTo?
    (directory path : String) :
    Option String :=
  if isAbsolute path then
    (behindNames? ((namesOf directory).map String.toList) path.toList).map
      String.ofList
  else
    none

end Strata.Host
