import Strata.Host.Basic
import Strata.Host.Name

/-!
# Finding objects by their paths

A path is followed name by name from the root or from the working directory.
Two dots lead back the way that was come, and a symbolic link on the way is
replaced by what it says; one at the end of the path only if the operation
asks for it.  Following links ends after forty of them.
-/

namespace Strata.Host

/-- What the end of a path leads to. -/
inductive Place where
  /-- A directory that was reached without a last name. -/
  | directory (id : NodeId)
  /-- An object with a name in a directory. -/
  | entry (parent : NodeId) (name : String) (id : NodeId)
  /-- A name that a directory does not have. -/
  | free (parent : NodeId) (name : String)
  deriving DecidableEq, Repr

/-- The end of a walk. -/
structure Found where
  place : Place
  /-- The names from the root to the directory that holds the place. -/
  trail : List String
  /-- Whether a slash follows the last name. -/
  slash : Bool
  deriving Repr

/-- The most links that are followed on one walk. -/
def linkBudget : Nat := 40

/-- The most bytes of a name. -/
def nameLimit : Nat := 255

/-- The first number of bytes that a path does not have. -/
def pathLimit : Nat := 4096

/-- The directory at the head of the way that was come. -/
def here
    (way : List (String × NodeId)) :
    NodeId :=
  (way.head?.map (·.2)).getD 0

/-- The names of the way that was come, from the root down. -/
def trailOf
    (way : List (String × NodeId)) :
    List String :=
  (way.map (·.1)).reverse

/-- The object that a name leads to in a directory. -/
def child
    (host : Host)
    (directory : NodeId)
    (name : String) :
    Except HostError (Option NodeId) :=
  if !host.isDirectory directory then
    .error .notDirectory
  else if nameLimit < name.utf8ByteSize then
    .error .nameTooLong
  else
    .ok ((host.entries directory).find? name)

/--
Follows names from the directory at the head of `way`.  With `follow` a link
at the end is followed as well.
-/
def walk
    (host : Host)
    (follow : Bool)
    (budget : Nat)
    (way : List (String × NodeId))
    (names : List String)
    (slash : Bool) :
    Except HostError Found :=
  match names with
  | [] =>
    .ok { place := .directory (here way), trail := trailOf way, slash }
  | name :: rest =>
    if name = "." then
      walk host follow budget way rest slash
    else if name = ".." then
      walk host follow budget way.tail rest slash
    else
      match host.child (here way) name with
      | .error error => .error error
      | .ok none =>
        if rest.isEmpty then
          .ok { place := .free (here way) name, trail := trailOf way, slash }
        else
          .error .notFound
      | .ok (some id) =>
        match (host.node id).body with
        | .symlink target =>
          if rest.isEmpty ∧ !follow then
            .ok
              { place := .entry (here way) name id
                trail := trailOf way
                slash }
          else
            match budget with
            | 0 => .error .tooManyLinks
            | budget + 1 =>
              walk host follow budget
                (if isAbsolute target then [] else way)
                (namesOf target ++ rest)
                (slash || (rest.isEmpty && endsInSlash target))
        | .directory _ =>
          if rest.isEmpty then
            .ok
              { place := .entry (here way) name id
                trail := trailOf way
                slash }
          else
            walk host follow budget ((name, id) :: way) rest slash
        | _ =>
          if rest.isEmpty then
            .ok
              { place := .entry (here way) name id
                trail := trailOf way
                slash }
          else
            .error .notDirectory
termination_by (budget, names.length)

/-- The refusal of a path with a character that ends it. -/
def nulFault : HostError :=
  .refused "file name contained an unexpected NUL byte"

/-- The error of a path that cannot be put to the host. -/
def pathFault?
    (path : String) :
    Option HostError :=
  if path.toList.contains '\x00' then
    some nulFault
  else if path = "" then
    some .notFound
  else if pathLimit ≤ path.utf8ByteSize then
    some .nameTooLong
  else
    none

/-- Finds where a path leads to. -/
def locate
    (host : Host)
    (path : String)
    (follow : Bool) :
    Except HostError Found :=
  match pathFault? path with
  | some fault => .error fault
  | none =>
    let names := namesOf path
    walk host follow linkBudget []
      (if isAbsolute path then names else host.home ++ names)
      (endsInSlash path)

/-- The object that a path leads to.  A slash at the end asks for a
directory, and for what a link says. -/
def resolve
    (host : Host)
    (path : String)
    (follow : Bool) :
    Except HostError NodeId := do
  let found ← host.locate path (follow || endsInSlash path)
  match found.place with
  | .directory id => return id
  | .entry _ _ id =>
    if found.slash && !host.isDirectory id then
      throw .notDirectory
    else
      return id
  | .free _ _ => throw .notFound

/-- The absolute path of an object without links and dots. -/
def canonical
    (host : Host)
    (path : String) :
    Except HostError String := do
  let _ ← host.resolve path true
  let found ← host.locate path true
  match found.place with
  | .entry _ name _ => return absolute (found.trail ++ [name])
  | _ => return absolute found.trail

end Strata.Host
