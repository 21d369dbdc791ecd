import Strata.Table
import Strata.Text.Pieces

/-!
# Identities of files

A file keeps its identity while its names change, and hard links are names of
one identity.  An identity is given out when a path is first asked for it, and
never again after that.
-/

namespace Strata

/-- What stands for a file whatever it is called. -/
abbrev FileId := Nat

/-- The identities that paths name. -/
structure Identities where
  /-- The identity that is given out next. -/
  next : FileId := 0
  names : Table String FileId := []
  deriving DecidableEq, Repr, Inhabited

namespace Identities

/-- The identity of a path, if it has one. -/
def lookup
    (identities : Identities)
    (path : String) :
    Option FileId :=
  identities.names.find? path

/-- The identity of a path, which is a new one if it has none yet. -/
def identify
    (identities : Identities)
    (path : String) :
    FileId × Identities :=
  match identities.lookup path with
  | some id => (id, identities)
  | none =>
    (identities.next,
      { next := identities.next + 1
        names := identities.names.set path identities.next })

/-- Whether any path names an identity. -/
def isNamed
    (names : Table String FileId)
    (id : FileId) :
    Bool :=
  names.any fun entry => entry.2 == id

/-- The identity itself if nothing names it any more. -/
def orphaned
    (names : Table String FileId)
    (id : FileId) :
    Option FileId :=
  if isNamed names id then none else some id

/-- Takes the identity of a path away, and gives it if the path was its last
name. -/
def forget
    (identities : Identities)
    (path : String) :
    Option FileId × Identities :=
  match identities.lookup path with
  | none => (none, identities)
  | some id =>
    let names := identities.names.erase path
    (orphaned names id, { identities with names })

/--
Moves the identity of one path to another one, and gives the identity that
the other path had if nothing names it any more.  Two names of one file stay
as they are.
-/
def rename
    (identities : Identities)
    (source target : String) :
    Option FileId × Identities :=
  let moved := identities.lookup source
  let displaced := identities.lookup target
  if moved.isSome ∧ moved = displaced then
    (none, identities)
  else
    let others := (identities.names.erase target).erase source
    let names :=
      match moved with
      | some id => others.set target id
      | none => others
    (displaced.bind (orphaned names), { identities with names })

/-- What the paths below a directory begin with. -/
def treePrefix
    (directory : String) :
    List Char :=
  (directory.toList.reverse.dropWhile (· == '/')).reverse ++ ['/']

/-- The rest of a path behind a beginning, if it begins so. -/
def restAfter?
    (path : String)
    (beginning : List Char) :
    Option (List Char) :=
  if beginning.isPrefixOf path.toList then
    some (path.toList.drop beginning.length)
  else
    none

/-- Moves one name from below one directory to below another one. -/
def moveName
    (source target : List Char)
    (names : Table String FileId)
    (entry : String × FileId) :
    Table String FileId :=
  match restAfter? entry.1 source with
  | none => names
  | some rest =>
    (names.erase entry.1).set (String.ofList (target ++ rest)) entry.2

/-- The identities after the names below one directory were moved to below
another one, one after the other in a given order. -/
def renamedTree
    (identities : Identities)
    (source target : String)
    (order : Table String FileId) :
    Identities :=
  { identities with
    names := order.foldl
      (moveName (treePrefix source) (treePrefix target)) identities.names }

/-- Moves every identity below one directory to below another one. -/
def renameTree
    (identities : Identities)
    (source target : String) :
    Identities :=
  identities.renamedTree source target identities.names

/-- Makes one path a second name of the file at another one, and gives the
identity that they share. -/
def addName
    (identities : Identities)
    (existing added : String) :
    Option FileId × Identities :=
  match identities.lookup existing with
  | none => (none, identities)
  | some id =>
    (some id, { identities with names := identities.names.set added id })

end Identities

end Strata
