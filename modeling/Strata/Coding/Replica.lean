import Strata.Bytes
import Strata.Error

/-!
# Storing a block on every device

Every device stores the whole block, and the first device is believed.
-/

namespace Strata.Replica

/-- The copies of a block. -/
def encode
    (block : Bytes)
    (devices : Nat) :
    List Bytes :=
  List.replicate devices block

/-- The block of its copies. -/
def decode :
    List Bytes → Except Error Bytes
  | [] => .error (.unsupported "replicate decode without devices")
  | first :: _ => .ok first

end Strata.Replica
