/-!
# Byte strings

A byte string is a list of bytes, so that what a transfer moved can be taken
apart by recursion.  Positions past the end of a string are ordinary: a cut
there gives the empty string, and a write there first extends the string with
zeros.  The three operations that a flat file offers — reading a range,
writing over a range, changing the length — are defined here once, and every
store of the library is compared with them.
-/

namespace Strata

/-- A string of bytes. -/
abbrev Bytes := List UInt8

namespace Bytes

/-- The string of `length` zero bytes. -/
def zeros
    (length : Nat) :
    Bytes :=
  List.replicate length 0

@[simp]
theorem length_zeros
    (length : Nat) :
    (zeros length).length = length :=
  List.length_replicate

/-- The bytes that exist in the range of `length` bytes from `offset`. -/
def slice
    (bytes : Bytes)
    (offset length : Nat) :
    Bytes :=
  (bytes.drop offset).take length

theorem length_slice
    (bytes : Bytes)
    (offset length : Nat) :
    (slice bytes offset length).length =
      min length (bytes.length - offset) := by
  simp [slice]

/-- The string cut, or extended with zeros, to exactly `length` bytes. -/
def resize
    (bytes : Bytes)
    (length : Nat) :
    Bytes :=
  bytes.take length ++ zeros (length - bytes.length)

@[simp]
theorem length_resize
    (bytes : Bytes)
    (length : Nat) :
    (resize bytes length).length = length := by
  simp [resize]
  omega

/--
The string with `data` written over it from `offset` on; a gap before
`offset` is filled with zeros, and no data means no change.
-/
def splice
    (bytes : Bytes)
    (offset : Nat)
    (data : Bytes) :
    Bytes :=
  if data.isEmpty then
    bytes
  else
    resize bytes offset ++ data ++
      bytes.drop (offset + data.length)

@[simp]
theorem splice_nil
    (bytes : Bytes)
    (offset : Nat) :
    splice bytes offset [] = bytes :=
  rfl

/-- The bytewise exclusive or, as long as the shorter string. -/
def xor
    (left right : Bytes) :
    Bytes :=
  List.zipWith (· ^^^ ·) left right

@[simp]
theorem length_xor
    (left right : Bytes) :
    (xor left right).length =
      min left.length right.length := by
  simp [xor]

/-- The string split into consecutive pieces of `size` bytes, the last one
possibly shorter. -/
def chunks
    (size : Nat)
    (bytes : Bytes) :
    List Bytes :=
  if size = 0 ∨ bytes = [] then
    []
  else
    bytes.take size :: chunks size (bytes.drop size)
termination_by bytes.length
decreasing_by
  rename_i nonempty
  have : bytes.length ≠ 0 := by
    intro empty
    exact nonempty (Or.inr (List.length_eq_zero_iff.mp empty))
  simp
  omega

end Bytes

end Strata
