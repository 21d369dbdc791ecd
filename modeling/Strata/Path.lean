import Strata.Error
import Strata.Text.Pieces
import Strata.Text.Quoted

/-!
# Pipeline paths

A path as every stage sees it is the list of its names from the root down.
Reading a path collapses repeated and trailing slashes and refuses the names
`.` and `..`, so that a path which was read never climbs out of the directory
it is joined to.  The displayed form is what a path is known by in tables and
messages.
-/

namespace Strata

/-- An absolute path below the root of a pipeline. -/
structure Path where
  names : List String
  deriving DecidableEq, Repr, Inhabited

namespace Path

/-- The path without names. -/
def root : Path :=
  ⟨[]⟩

/-- Whether a path is the root. -/
def isRoot
    (path : Path) :
    Bool :=
  path.names.isEmpty

/-- Whether a name means a directory already passed. -/
def isDots
    (name : List Char) :
    Bool :=
  name == ['.'] || name == ['.', '.']

/-- The names between the slashes of a text. -/
def namesOf
    (characters : List Char) :
    List (List Char) :=
  (Text.pieces '/' characters).filter fun name => !name.isEmpty

/-- Reads an absolute path. -/
def parse
    (text : String) :
    Except Error Path :=
  match text.toList with
  | '/' :: rest =>
    match (namesOf rest).find? isDots with
    | some name =>
      .error (.invalidPath
        (text ++ ": dot component " ++ Text.quoted (String.ofList name)))
    | none => .ok ⟨(namesOf rest).map String.ofList⟩
  | _ => .error (.invalidPath (text ++ ": not absolute"))

/-- The displayed form. -/
def render
    (path : Path) :
    String :=
  if path.isRoot then
    "/"
  else
    String.join (path.names.map fun name => "/" ++ name)

/-- The form below a directory: the names with slashes between them. -/
def relative
    (path : Path) :
    String :=
  String.intercalate "/" path.names

/-- The last name; the root has none. -/
def name?
    (path : Path) :
    Option String :=
  path.names.getLast?

/-- The names with `suffix` appended to the last one. -/
def extendLast
    (suffix : String) :
    List String → List String
  | [] => []
  | [name] => [name ++ suffix]
  | name :: rest => name :: extendLast suffix rest

/-- The path with `suffix` appended to its last name; the root has no name
to extend and stays as it is. -/
def withSuffix
    (path : Path)
    (suffix : String) :
    Path :=
  ⟨extendLast suffix path.names⟩

end Path

end Strata
