import Mathlib.Logic.Equiv.Basic
import Strata.Proofs.Fragments

/-!
# Pads that may be any

The pads of a block are drawn at random, so that a statement about every choice
of them is one about every run.  All fragments give the block back, in whatever
order they come.  Without the fragment of one device, no matter which, the
others say nothing about the block: for each other block of that length a
change of the pads leads to the same fragments, and no two changed choices of
pads agree.  The change puts the difference of the two blocks on the pad of the
device that is left out, and is none where that device has the share.
-/

namespace Strata.Xor

variable
  {block mask : Bytes}
  {pads : List Bytes}
  {devices length missing : Nat}

/-! ## Fragments in any order -/

theorem xor_right_comm
    (first second third : Bytes) :
    Bytes.xor (Bytes.xor first second) third =
      Bytes.xor (Bytes.xor first third) second := by
  rw [xor_assoc, xor_comm second, ← xor_assoc]

theorem zeros_xor
    {bytes : Bytes}
    (same : bytes.length = length) :
    Bytes.xor (Bytes.zeros length) bytes = bytes := by
  apply List.ext_getElem (by simp [same])
  intro position _ _
  simp [Bytes.xor, Bytes.zeros]

/-- Fragments of one length are put on each other. -/
theorem decode_of_length
    {fragments : List Bytes}
    (some : fragments ≠ [])
    (same : ∀ fragment ∈ fragments, fragment.length = length) :
    decode fragments = .ok (fragments.foldl Bytes.xor (Bytes.zeros length)) := by
  cases fragments with
  | nil => exact absurd rfl some
  | cons first rest =>
      have head := same first List.mem_cons_self
      rw [decode, recombine_of_length, List.foldl_cons, zeros_xor head]
      intro fragment member
      rw [same fragment (List.mem_cons_of_mem _ member), head]

/-- The order of fragments of one length does not matter. -/
theorem decode_perm
    {fragments order : List Bytes}
    (same : ∀ fragment ∈ fragments, fragment.length = length)
    (reordered : order.Perm fragments) :
    decode order = decode fragments := by
  by_cases none : fragments = []
  · subst none
    rw [reordered.eq_nil]
  · have some : order ≠ [] := by
      rintro rfl
      exact none reordered.nil_eq.symm
    rw [decode_of_length none same, decode_of_length some
        fun fragment member => same fragment (reordered.mem_iff.mp member),
      reordered.foldl_eq' fun first _ second _ sum =>
        xor_right_comm sum first second]

/-! ## Changed pads -/

/-- A choice of the pads for blocks of a length. -/
def Pads
    (devices length : Nat) :
    Type :=
  { pads : List Bytes //
    pads.length = devices - 1 ∧ ∀ pad ∈ pads, pad.length = length }

/-- The pads with a mask put on the one of a device, if it has one. -/
def remask
    (mask : Bytes)
    (missing : Nat)
    (pads : List Bytes) :
    List Bytes :=
  pads.modify missing (Bytes.xor mask)

@[simp]
theorem length_remask :
    (remask mask missing pads).length = pads.length :=
  List.length_modify _ _ _

theorem getElem_remask
    (index : Nat)
    (inRange : index < (remask mask missing pads).length)
    (old : index < pads.length) :
    (remask mask missing pads)[index] =
      if missing = index then Bytes.xor mask pads[index] else pads[index] :=
  List.getElem_modify _ _ _ _ inRange

theorem length_of_mem_remask
    (long : mask.length = length)
    (same : ∀ pad ∈ pads, pad.length = length)
    {pad : Bytes}
    (member : pad ∈ remask mask missing pads) :
    pad.length = length := by
  rcases List.mem_iff_getElem.mp member with ⟨index, inRange, rfl⟩
  have among : index < pads.length := by simpa using inRange
  have old := same pads[index] (List.getElem_mem among)
  rw [getElem_remask index inRange among]
  split
  · rw [Bytes.length_xor, long, old, Nat.min_self]
  · exact old

theorem remask_remask
    (same : ∀ pad ∈ pads, pad.length = mask.length) :
    remask mask missing (remask mask missing pads) = pads := by
  apply List.ext_getElem (by simp)
  intro index inRange among
  have old := same pads[index] (List.getElem_mem among)
  rw [getElem_remask index inRange (by simpa using among),
    getElem_remask index (by simpa using among) among]
  split
  · rw [xor_comm mask, xor_comm mask,
      Aead.xor_xor_cancel _ _ (Nat.le_of_eq old)]
  · rfl

/-- Changing the pad of a device changes the share in the same way. -/
theorem foldl_xor_remask
    (inRange : missing < pads.length) :
    (remask mask missing pads).foldl Bytes.xor block =
      pads.foldl Bytes.xor (Bytes.xor block mask) := by
  unfold remask
  induction pads generalizing missing block with
  | nil => exact absurd inRange (Nat.not_lt_zero _)
  | cons pad rest ih =>
      cases missing with
      | zero =>
          rw [List.modify_zero_cons, List.foldl_cons, List.foldl_cons,
            xor_assoc]
      | succ index =>
          rw [List.modify_succ_cons, List.foldl_cons, List.foldl_cons,
            ih (Nat.lt_of_succ_lt_succ inRange), xor_right_comm]

theorem eraseIdx_remask :
    (remask mask missing pads).eraseIdx missing = pads.eraseIdx missing := by
  unfold remask
  induction pads generalizing missing with
  | nil => rw [List.modify_nil]
  | cons pad rest ih =>
      cases missing with
      | zero => rfl
      | succ index =>
          rw [List.modify_succ_cons, List.eraseIdx_cons_succ,
            List.eraseIdx_cons_succ, ih]

/-- On the other devices, a block with its pads is the same as another block
with these pads, after the difference of the two is put on the pad of the
device. -/
theorem eraseIdx_split_remask
    {first second : Bytes}
    (same : first.length = second.length)
    (inRange : missing ≤ pads.length) :
    (split second (remask (Bytes.xor first second) missing pads)).eraseIdx
        missing =
      (split first pads).eraseIdx missing := by
  unfold split
  rcases Nat.lt_or_eq_of_le inRange with pad | rfl
  · -- The pad is missing, and the share has the difference on it.
    have share : Bytes.xor second (Bytes.xor first second) = first := by
      rw [xor_comm, Aead.xor_xor_cancel _ _ (Nat.le_of_eq same)]
    rw [List.eraseIdx_append_of_lt_length (by simpa using pad),
      List.eraseIdx_append_of_lt_length pad, eraseIdx_remask,
      foldl_xor_remask pad, share]
  · -- The share is missing, and no pad is changed.
    have unchanged : remask (Bytes.xor first second) pads.length pads = pads :=
      List.modify_eq_self (Nat.le_refl _)
    rw [unchanged, List.eraseIdx_append_of_length_le (Nat.le_refl _),
      List.eraseIdx_append_of_length_le (Nat.le_refl _), Nat.sub_self]
    rfl

namespace Pads

/-- Putting a mask on the pad of a device, which undoes itself. -/
def remasked
    (devices missing : Nat)
    (mask : Bytes) :
    Equiv.Perm (Pads devices mask.length) :=
  Function.Involutive.toPerm
    (fun pads =>
      ⟨remask mask missing pads.1, length_remask.trans pads.2.1,
        fun _ => length_of_mem_remask rfl pads.2.2⟩)
    fun pads => Subtype.ext (remask_remask pads.2.2)

end Pads

/-! ## All fragments, and all but one -/

/-- The fragments of a block on all devices but one. -/
def encodeWithout
    (missing : Nat)
    (block : Bytes)
    (devices : Nat)
    (pads : List Bytes) :
    Except Error (List Bytes) :=
  (encode block devices pads).map (·.eraseIdx missing)

theorem encode_of_several
    (several : 2 ≤ devices) :
    encode block devices pads = .ok (split block pads) :=
  if_neg (Nat.not_lt.mpr several)

/-- The pads that are changed by the difference of two blocks leave the other
devices as they are. -/
theorem encodeWithout_remasked
    {first second : Bytes}
    (several : 2 ≤ devices)
    (same : first.length = second.length)
    (among : missing < devices)
    (pads : Pads devices (Bytes.xor first second).length) :
    encodeWithout missing second devices
        (Pads.remasked devices missing (Bytes.xor first second) pads).1 =
      encodeWithout missing first devices pads.1 := by
  have inRange : missing ≤ pads.1.length := by
    have count := pads.2.1
    omega
  unfold encodeWithout
  rw [encode_of_several several, encode_of_several several]
  have others := eraseIdx_split_remask same inRange
  exact congrArg Except.ok others

/--
A block has a fragment of its own length for each of two or more devices, and
all fragments give it back in every order, whatever the pads are.  Whichever
device is missing, for two blocks of one length there is a change of the pads,
with nothing lost and nothing counted twice, under which the other devices hold
the same for the first block as for the second.  So every possible view of
these devices comes from as many choices of the pads for the one block as for
the other.
-/
theorem encode_recombines_and_hides
    (several : 2 ≤ devices) :
    (∀ (block : Bytes) (pads : Pads devices block.length),
      ∃ fragments,
        encode block devices pads.1 = .ok fragments ∧
          fragments.length = devices ∧
          (∀ fragment ∈ fragments, fragment.length = block.length) ∧
          ∀ order : List Bytes, order.Perm fragments →
            decode order = .ok block) ∧
      ∀ (missing : Nat) (first second : Bytes),
        missing < devices → first.length = length → second.length = length →
          (∃ change : Equiv.Perm (Pads devices length),
            ∀ pads,
              encodeWithout missing first devices pads.1 =
                encodeWithout missing second devices (change pads).1) ∧
          ∀ view : List Bytes,
            Nonempty
              ({ pads : Pads devices length //
                  encodeWithout missing first devices pads.1 = .ok view } ≃
                { pads : Pads devices length //
                  encodeWithout missing second devices pads.1 = .ok view }) := by
  constructor
  · intro block pads
    have decodes := Coder.decodes_xor several pads.2.1 pads.2.2
    refine ⟨_, encode_of_several several, decodes.count, decodes.length, ?_⟩
    intro order reordered
    rw [decode_perm decodes.length reordered]
    exact decodes.decode ⟨0, 0, none⟩ (fun erasure => nomatch erasure)
  · intro missing first second among long same
    have masked : (Bytes.xor first second).length = length := by
      rw [Bytes.length_xor, long, same, Nat.min_self]
    subst masked
    have hidden := encodeWithout_remasked several (long.trans same.symm) among
    refine ⟨⟨Pads.remasked devices missing _, fun pads => (hidden pads).symm⟩,
      fun view => ⟨(Pads.remasked devices missing _).subtypeEquiv ?_⟩⟩
    intro pads
    rw [hidden pads]

/-- Two bytes over three devices come back from the share and the pads in
another order, and the first and the last device hold the same for two other
bytes. -/
theorem encode_recombines_and_hides_of_two_pads :
    decode [[7, 8], [168, 13], [5, 4]] = .ok [170, 1] ∧
      ∃ change : Equiv.Perm (Pads 3 2),
        ∀ pads,
          encodeWithout 1 [170, 1] 3 pads.1 =
            encodeWithout 1 [0, 0] 3 (change pads).1 := by
  rcases @encode_recombines_and_hides 3 2 (by decide) with ⟨recombines, hides⟩
  constructor
  · rcases recombines [170, 1] ⟨[[5, 4], [7, 8]], by decide, by decide⟩ with
      ⟨fragments, encoded, -, -, decodes⟩
    have known : [[5, 4], [7, 8], [168, 13]] = fragments :=
      Except.ok.inj encoded
    exact decodes _ (known ▸ by decide)
  · exact (hides 1 [170, 1] [0, 0] (by decide) rfl rfl).1

end Strata.Xor
