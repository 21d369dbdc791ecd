/-!
# Block sizes

Every stage that works in blocks divides by their size, so a block size is
positive by construction.
-/

namespace Strata

/-- The size of a block in bytes, which is never zero. -/
structure BlockSize where
  bytes : Nat
  positive : 0 < bytes := by decide
  deriving DecidableEq, Repr

namespace BlockSize

instance : Inhabited BlockSize :=
  ⟨⟨1, by decide⟩⟩

/-- The block size of the given number of bytes, if it is positive. -/
def ofNat?
    (bytes : Nat) :
    Option BlockSize :=
  if positive : 0 < bytes then
    some ⟨bytes, positive⟩
  else
    none

/-- How far an offset lies inside its block. -/
def inside
    (size : BlockSize)
    (offset : Nat) :
    Nat :=
  offset % size.bytes

/-- The offset at which the block of an offset starts. -/
def start
    (size : BlockSize)
    (offset : Nat) :
    Nat :=
  offset - offset % size.bytes

/-- How many bytes of its block follow an offset. -/
def room
    (size : BlockSize)
    (offset : Nat) :
    Nat :=
  size.bytes - offset % size.bytes

theorem inside_lt
    (size : BlockSize)
    (offset : Nat) :
    size.inside offset < size.bytes :=
  Nat.mod_lt _ size.positive

theorem room_pos
    (size : BlockSize)
    (offset : Nat) :
    0 < size.room offset :=
  Nat.sub_pos_of_lt (size.inside_lt offset)

theorem start_add_inside
    (size : BlockSize)
    (offset : Nat) :
    size.start offset + size.inside offset = offset :=
  Nat.sub_add_cancel (Nat.mod_le _ _)

theorem start_eq
    (size : BlockSize)
    (offset : Nat) :
    size.start offset = offset / size.bytes * size.bytes := by
  have := Nat.div_add_mod' offset size.bytes
  unfold start
  omega

theorem start_le
    (size : BlockSize)
    {offset later : Nat}
    (before : offset ≤ later) :
    size.start offset ≤ size.start later := by
  rw [size.start_eq, size.start_eq]
  exact Nat.mul_le_mul_right _ (Nat.div_le_div_right before)

end BlockSize

end Strata
