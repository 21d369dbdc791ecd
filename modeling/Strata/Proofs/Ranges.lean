import Strata.Bytes

/-!
# Ranges of byte strings

What reading a range, writing over a range and changing the length do to the
byte at each position.  Every equation between two strings in this library
comes from these three position laws: two strings are equal when they have the
same byte at every position.

The later sections say how the operations meet: writing piece after piece is
one write, writing back a part that was read and changed is a write of the
change, and a write leaves every range apart from it as it was.
-/

namespace Strata.Bytes

attribute [grind =] length_slice length_resize length_zeros

/-! ## The byte at a position -/

@[grind =]
theorem getElem?_slice
    (bytes : Bytes)
    (offset length position : Nat) :
    (slice bytes offset length)[position]? =
      if position < length then bytes[offset + position]? else none := by
  simp [slice, List.getElem?_take]

@[grind =]
theorem getElem?_zeros
    (length position : Nat) :
    (zeros length)[position]? =
      if position < length then some 0 else none := by
  simp [zeros, List.getElem?_replicate]

@[grind =]
theorem getElem?_resize
    (bytes : Bytes)
    (length position : Nat) :
    (resize bytes length)[position]? =
      if position < length then some (bytes[position]?.getD 0) else none := by
  simp only [resize, List.getElem?_append, List.getElem?_take,
    List.length_take, getElem?_zeros]
  grind

theorem splice_of_ne_nil
    (bytes : Bytes)
    (offset : Nat)
    {data : Bytes}
    (nonempty : data ≠ []) :
    splice bytes offset data =
      resize bytes offset ++ data ++ bytes.drop (offset + data.length) := by
  rw [splice, if_neg (by simpa using nonempty)]

@[grind =]
theorem getElem?_splice
    (bytes : Bytes)
    (offset : Nat)
    (data : Bytes)
    (position : Nat) :
    (splice bytes offset data)[position]? =
      if data = [] then
        bytes[position]?
      else if position < offset then
        some (bytes[position]?.getD 0)
      else if position < offset + data.length then
        data[position - offset]?
      else
        bytes[position]? := by
  by_cases empty : data = []
  · simp [empty]
  · rw [splice_of_ne_nil bytes offset empty]
    grind

@[grind =]
theorem length_splice
    (bytes : Bytes)
    (offset : Nat)
    (data : Bytes) :
    (splice bytes offset data).length =
      if data = [] then
        bytes.length
      else
        max bytes.length (offset + data.length) := by
  unfold splice
  grind

theorem splice_eq_nil_iff
    (bytes : Bytes)
    (offset : Nat)
    (data : Bytes) :
    splice bytes offset data = [] ↔ bytes = [] ∧ data = [] := by
  rw [← List.length_eq_zero_iff, length_splice]
  by_cases empty : data = []
  · simp [empty]
  · have := List.length_pos_iff.mpr empty
    simp only [empty, if_false, and_false, iff_false]
    omega

/-! ## Reading -/

theorem slice_slice
    (bytes : Bytes)
    (offset length inside count : Nat) :
    slice (slice bytes offset length) inside count =
      slice bytes (offset + inside) (min count (length - inside)) := by
  apply List.ext_getElem?
  grind

theorem slice_append
    (bytes : Bytes)
    (offset first second : Nat) :
    slice bytes offset first ++ slice bytes (offset + first) second =
      slice bytes offset (first + second) := by
  apply List.ext_getElem?
  grind

theorem slice_append_left
    (bytes tail : Bytes)
    {start length : Nat}
    (inside : start + length ≤ bytes.length) :
    slice (bytes ++ tail) start length = slice bytes start length := by
  apply List.ext_getElem?
  grind

/-- A range that starts at or past the end is empty. -/
theorem slice_eq_nil
    (bytes : Bytes)
    {offset : Nat}
    (length : Nat)
    (past : bytes.length ≤ offset) :
    slice bytes offset length = [] := by
  simp [slice, List.drop_eq_nil_of_le past]

/-- Two requests from one offset read the same when both go to the end. -/
theorem slice_eq_slice
    (bytes : Bytes)
    {offset first second : Nat}
    (same : first = second ∨
      bytes.length ≤ offset + first ∧ bytes.length ≤ offset + second) :
    slice bytes offset first = slice bytes offset second := by
  apply List.ext_getElem?
  grind

/-! ## Changing the length -/

theorem resize_of_le
    (bytes : Bytes)
    {length : Nat}
    (shorter : length ≤ bytes.length) :
    resize bytes length = bytes.take length := by
  have none : length - bytes.length = 0 := by omega
  simp [resize, none, zeros]

theorem slice_resize
    (bytes : Bytes)
    {size start length : Nat}
    (kept : start + length ≤ size)
    (there : start + length ≤ bytes.length) :
    slice (resize bytes size) start length = slice bytes start length := by
  apply List.ext_getElem?
  grind

/-- The end of a string that was cut, if at least that much is asked for. -/
theorem slice_resize_end
    (bytes : Bytes)
    {size start length : Nat}
    (cut : size ≤ bytes.length)
    (toEnd : size ≤ start + length) :
    slice (resize bytes size) start length =
      slice bytes start (size - start) := by
  apply List.ext_getElem?
  grind

/-- A range inside the new length, with zeros where nothing was. -/
theorem slice_resize_inside
    (bytes : Bytes)
    {size start length : Nat}
    (inside : start + length ≤ size) :
    slice (resize bytes size) start length =
      resize (slice bytes start length) length := by
  apply List.ext_getElem?
  grind

theorem resize_self
    (bytes : Bytes) :
    resize bytes bytes.length = bytes := by
  rw [resize_of_le bytes (Nat.le_refl _), List.take_length]

theorem resize_resize
    (bytes : Bytes)
    {first second : Nat}
    (grown : bytes.length ≤ first ∨ second ≤ first) :
    resize (resize bytes first) second = resize bytes second := by
  apply List.ext_getElem?
  grind

/-- The parts of a string that was filled up with zeros are the parts of the
string, each filled up. -/
theorem resize_append_resize_slice
    (bytes : Bytes)
    (start length : Nat) :
    resize bytes start ++ resize (slice bytes start length) length =
      resize bytes (start + length) := by
  apply List.ext_getElem?
  grind

theorem take_resize
    (bytes : Bytes)
    {length : Nat}
    (longer : bytes.length ≤ length) :
    (resize bytes length).take bytes.length = bytes := by
  simp [resize, List.take_of_length_le longer]

theorem splice_zeros_at_end
    (bytes : Bytes)
    (count : Nat) :
    splice bytes bytes.length (zeros count) =
      resize bytes (bytes.length + count) := by
  have empty : zeros count = [] ↔ count = 0 := by
    simp [zeros]
  apply List.ext_getElem?
  grind

/-! ## Writing -/

/-- A write past the end fills the gap with zeros. -/
theorem splice_resize
    (bytes : Bytes)
    {offset : Nat}
    {data : Bytes}
    (past : bytes.length ≤ offset)
    (nonempty : data ≠ []) :
    splice (resize bytes offset) offset data = splice bytes offset data := by
  apply List.ext_getElem?
  grind

/-- A write at the end appends. -/
theorem splice_at_end
    (bytes data : Bytes) :
    splice bytes bytes.length data = bytes ++ data := by
  apply List.ext_getElem?
  grind

/-- Two writes, the second one where the first one ended, are one write. -/
theorem splice_splice
    (bytes : Bytes)
    (offset : Nat)
    (first second : Bytes) :
    splice (splice bytes offset first) (offset + first.length) second =
      splice bytes offset (first ++ second) := by
  have empty : first ++ second = [] ↔ first = [] ∧ second = [] :=
    List.append_eq_nil_iff
  apply List.ext_getElem?
  grind

theorem splice_slice_self
    (bytes : Bytes)
    {offset : Nat}
    (length : Nat)
    (inside : offset ≤ bytes.length) :
    splice bytes offset (slice bytes offset length) = bytes := by
  apply List.ext_getElem?
  grind

/--
Reading a part of a string, writing into the part and writing the part back
is writing into the string, if the part goes as far as the string or the new
bytes go.
-/
theorem splice_splice_slice
    (bytes : Bytes)
    {block inside length : Nat}
    {data : Bytes}
    (starts : block ≤ bytes.length)
    (whole :
      min (bytes.length - block) (inside + data.length) ≤ length) :
    splice bytes block (splice (slice bytes block length) inside data) =
      splice bytes (block + inside) data := by
  by_cases empty : data = []
  · subst empty
    exact splice_slice_self bytes length starts
  · have changed :
        splice (slice bytes block length) inside data ≠ [] := by
      simp [splice_eq_nil_iff, empty]
    apply List.ext_getElem?
    intro position
    rw [getElem?_splice, getElem?_splice, if_neg changed, if_neg empty]
    -- Past the start of the part, positions are counted from there.
    by_cases before : position < block
    · grind
    · rcases Nat.exists_eq_add_of_le (Nat.le_of_not_lt before) with ⟨rest, rfl⟩
      rw [Nat.add_sub_cancel_left, getElem?_splice, if_neg empty,
        getElem?_slice, length_splice, if_neg empty, length_slice]
      grind

/-! ## Ranges apart from a write -/

theorem slice_splice_before
    (bytes : Bytes)
    {offset start length : Nat}
    (data : Bytes)
    (before : start + length ≤ offset)
    (inside : offset ≤ bytes.length) :
    slice (splice bytes offset data) start length =
      slice bytes start length := by
  apply List.ext_getElem?
  grind

theorem slice_splice_behind
    (bytes : Bytes)
    {offset start length : Nat}
    (data : Bytes)
    (behind : offset + data.length ≤ start) :
    slice (splice bytes offset data) start length =
      slice bytes start length := by
  apply List.ext_getElem?
  grind

/-- The range that was written, if it is asked for exactly or nothing is
stored behind it. -/
theorem slice_splice_self
    (bytes : Bytes)
    {offset length : Nat}
    {data : Bytes}
    (nonempty : data ≠ [])
    (fits : data.length ≤ length)
    (last :
      data.length = length ∨ bytes.length ≤ offset + data.length) :
    slice (splice bytes offset data) offset length = data := by
  apply List.ext_getElem?
  grind

end Strata.Bytes
