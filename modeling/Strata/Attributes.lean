/-!
# Attributes of stored objects

What a stage reports about one path, and the entries of a directory listing.
A size is in the units of the stage that reports it; every stage above the
devices turns it into its own view.
-/

namespace Strata

/-- The kind of a stored object. -/
inductive Kind where
  | file
  | directory
  | symlink
  | other
  deriving DecidableEq, Repr, Inhabited

/-- What is known about one path. -/
structure Attributes where
  kind : Kind
  size : Nat
  /-- The kind and permission bits, as the host packs them. -/
  mode : Nat
  links : Nat
  owner : Nat
  group : Nat
  /-- The last change of the contents, in seconds since the epoch. -/
  modified : Nat
  deriving DecidableEq, Repr, Inhabited

namespace Attributes

/-- Whether the path is a regular file. -/
def isFile
    (attributes : Attributes) :
    Bool :=
  attributes.kind == .file

/-- Whether the path is a directory. -/
def isDirectory
    (attributes : Attributes) :
    Bool :=
  attributes.kind == .directory

end Attributes

/-- One entry of a directory listing. -/
structure Entry where
  name : String
  kind : Kind
  deriving DecidableEq, Repr, Inhabited

/-- The room on the host file system that holds the first device. -/
structure Capacity where
  blockSize : Nat
  blocks : Nat
  blocksFree : Nat
  blocksAvailable : Nat
  files : Nat
  filesFree : Nat
  nameMax : Nat
  deriving DecidableEq, Repr, Inhabited

end Strata
