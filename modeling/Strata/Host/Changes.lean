import Strata.Host.Tree

/-!
# Changes of a tree

What has to be done to the tree below a path so that a host becomes another
one.  Objects that got another name are renamed before anything is removed or
made; what lies in a directory is removed before the directory and made after
it.
-/

namespace Strata.Host

/-- A step from one tree to another. -/
inductive Change where
  | move (source target : String)
  | remove (path : String)
  | removeDirectory (path : String)
  | makeDirectory (path : String)
  | write (path : String) (data : Bytes)
  deriving DecidableEq, Repr

/-- The objects below a directory with their paths, each directory before what
it holds. -/
def below
    (host : Host) :
    (depth : Nat) → (path : String) → NodeId → List (String × NodeId)
  | 0, _, _ => []
  | depth + 1, path, directory =>
    (host.entries directory).flatMap fun (name, id) =>
      let place := join path name
      (place, id) :: below host depth place id

/-- What a path leads to, and what is below it. -/
def reached
    (host : Host)
    (path : String) :
    List (String × NodeId) :=
  match host.resolve path true with
  | .ok id => (path, id) :: below host host.nodes.size path id
  | .error _ => []

/-- The steps from one host to another as far as a path reaches. -/
def changes
    (before after : Host)
    (path : String) :
    List Change :=
  let old := before.reached path
  let new := after.reached path
  let added := new.filter (!old.contains ·)
  let moved := added.filterMap fun (target, id) =>
    (old.find? fun (source, other) =>
      other = id && !new.contains (source, id)).map fun (source, _) =>
        (source, target)
  let carried (place : String × String) :=
    moved.any fun (source, target) =>
      (relativeTo? source place.1).isSome && source != place.1 &&
        (relativeTo? target place.2).isSome
  let renamed := (moved.filter (!carried ·)).map fun (source, target) =>
    Change.move source target
  let lost := old.filter fun (source, _) =>
    !(new.map (·.1)).contains source && !(moved.map (·.1)).contains source
  let removed := lost.reverse.map fun (source, id) =>
    if before.isDirectory id then
      Change.removeDirectory source
    else
      .remove source
  let made := added.filterMap fun (target, id) =>
    if (moved.map (·.2)).contains target then
      none
    else
      match (after.node id).body with
      | .directory _ => some (Change.makeDirectory target)
      | .file contents => some (.write target contents.toBytes)
      | _ => none
  let written := new.filterMap fun (target, id) =>
    let data := (after.contents id).toBytes
    if old.contains (target, id) && data != (before.contents id).toBytes then
      some (Change.write target data)
    else
      none
  renamed ++ removed ++ made ++ written

end Strata.Host
