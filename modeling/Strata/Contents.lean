import Strata.Bytes

/-!
# Contents of a stored file

The contents of a file are held as an array, so that writing a block costs
what the block costs and not what the file costs.  Each operation is pinned
down by one equation on `toBytes`, which says that a stored file behaves as
the byte string it holds: `toBytes_read`, `toBytes_write`, `toBytes_resize`.
-/

namespace Strata

/-- The bytes of one stored file. -/
structure Contents where
  bytes : Array UInt8
  deriving DecidableEq, Inhabited

namespace Contents

/-- The contents of a file that was just made. -/
def empty : Contents :=
  ⟨#[]⟩

/-- The number of bytes held. -/
def size
    (contents : Contents) :
    Nat :=
  contents.bytes.size

/-- The held bytes as a string. -/
def toBytes
    (contents : Contents) :
    Bytes :=
  contents.bytes.toList

/-- The contents that hold a given string. -/
def ofBytes
    (bytes : Bytes) :
    Contents :=
  ⟨bytes.toArray⟩

@[simp]
theorem length_toBytes
    (contents : Contents) :
    contents.toBytes.length = contents.size := by
  simp [toBytes, size]

/-- The bytes that exist in a range. -/
def read
    (contents : Contents)
    (offset length : Nat) :
    Bytes :=
  (contents.bytes.extract offset (offset + length)).toList

theorem read_eq_slice
    (contents : Contents)
    (offset length : Nat) :
    contents.read offset length =
      contents.toBytes.slice offset length := by
  simp [read, toBytes, Bytes.slice]

/-- The contents cut, or extended with zeros, to exactly `length` bytes. -/
def resize
    (contents : Contents)
    (length : Nat) :
    Contents :=
  if length ≤ contents.bytes.size then
    ⟨contents.bytes.take length⟩
  else
    ⟨contents.bytes ++
      Array.replicate (length - contents.bytes.size) 0⟩

@[simp]
theorem toBytes_resize
    (contents : Contents)
    (length : Nat) :
    (contents.resize length).toBytes =
      contents.toBytes.resize length := by
  unfold resize Bytes.resize Bytes.zeros toBytes
  split
  · rename_i fits
    have none : length - contents.bytes.size = 0 := by omega
    simp [none]
  · rename_i longer
    rw [List.take_of_length_le (by simp; omega)]
    simp

/-- Writes bytes one after the other from a position that is in the array or
just past its end. -/
def overwrite
    (bytes : Array UInt8)
    (position : Nat) :
    Bytes → Array UInt8
  | [] => bytes
  | byte :: rest =>
    if inside : position < bytes.size then
      overwrite (bytes.set position byte) (position + 1) rest
    else
      overwrite (bytes.push byte) (position + 1) rest

theorem toList_overwrite
    (data : Bytes)
    (bytes : Array UInt8)
    (position : Nat)
    (reached : position ≤ bytes.size) :
    (overwrite bytes position data).toList =
      bytes.toList.take position ++ data ++
        bytes.toList.drop (position + data.length) := by
  induction data generalizing bytes position with
  | nil => simp [overwrite]
  | cons byte rest ih =>
    rw [overwrite]
    split
    · rename_i inside
      rw [ih _ _ (by simp; omega)]
      have within : position < bytes.toList.length := by
        simpa using inside
      have written :
          (bytes.toList.set position byte).take (position + 1) =
            bytes.toList.take position ++ [byte] := by
        rw [List.take_add_one, List.take_set_of_le (Nat.le_refl _),
          List.getElem?_set_self within]
        rfl
      rw [Array.toList_set, written,
        List.drop_set_of_lt (by omega)]
      simp [Nat.add_left_comm, Nat.add_comm]
    · rename_i outside
      have atEnd : position = bytes.size := by omega
      rw [ih _ _ (by simp; omega)]
      subst atEnd
      simp [List.take_of_length_le, List.drop_eq_nil_of_le]

/-- The contents with `data` written over them from `offset` on. -/
def write
    (contents : Contents)
    (offset : Nat)
    (data : Bytes) :
    Contents :=
  if data.isEmpty then
    contents
  else if offset ≤ contents.bytes.size then
    ⟨overwrite contents.bytes offset data⟩
  else
    ⟨overwrite (contents.resize offset).bytes offset data⟩

@[simp]
theorem toBytes_write
    (contents : Contents)
    (offset : Nat)
    (data : Bytes) :
    (contents.write offset data).toBytes =
      contents.toBytes.splice offset data := by
  unfold write Bytes.splice
  split
  · rfl
  · split
    · rename_i inside
      have none : offset - contents.bytes.size = 0 := by omega
      simp [toBytes, toList_overwrite _ _ _ inside, Bytes.resize,
        Bytes.zeros, none]
    · rename_i outside
      have extended :
          (contents.resize offset).bytes.toList =
            Bytes.resize contents.bytes.toList offset :=
        toBytes_resize contents offset
      have size :
          (contents.resize offset).bytes.size = offset := by
        rw [← Array.length_toList, extended]
        simp
      simp only [toBytes]
      rw [toList_overwrite _ _ _ (by omega), extended,
        List.take_of_length_le (by simp),
        List.drop_eq_nil_of_le (by simp),
        List.drop_eq_nil_of_le (by simp; omega)]

/-- The contents with `mask` put on the byte at `offset`, if there is one. -/
def flip
    (contents : Contents)
    (offset : Nat)
    (mask : UInt8) :
    Contents :=
  ⟨contents.bytes.modify offset (· ^^^ mask)⟩

end Contents

end Strata
