import Strata.Bytes
import Strata.Error

/-!
# Splitting a block into pads and a share

All devices but the last store a random pad, and the last one stores the block
with every pad put on it.  All fragments together give the block back; any
fewer of them look random.
-/

namespace Strata.Xor

/-- The pads and the share of a block. -/
def split
    (block : Bytes)
    (pads : List Bytes) :
    List Bytes :=
  pads ++ [pads.foldl Bytes.xor block]

/-- The fragments of a block over a number of devices, which is one more than
the number of pads. -/
def encode
    (block : Bytes)
    (devices : Nat)
    (pads : List Bytes) :
    Except Error (List Bytes) :=
  if devices < 2 then
    .error (.config "xor coding needs at least two devices")
  else
    .ok (split block pads)

/-- Puts fragments on a block, as long as their lengths agree with it. -/
def recombine
    (block : Bytes) :
    List Bytes → Except Error Bytes
  | [] => .ok block
  | fragment :: rest =>
    if fragment.length ≠ block.length then
      .error (.divergence 0 block.length fragment.length)
    else
      recombine (Bytes.xor block fragment) rest

/-- The block of its fragments. -/
def decode :
    List Bytes → Except Error Bytes
  | [] => .error (.unsupported "xor decode without devices")
  | first :: rest => recombine first rest

end Strata.Xor
