import Mathlib.Algebra.Order.Floor.Div
import Strata.Proofs.Books
import Strata.Proofs.Fragments
import Strata.Proofs.Interpolation

/-!
# Lost fragments

At each position the shards of a block are the values of one polynomial at
their points, of degree below the number of data shards: a codeword.  So any
shards, as many as there are data shards, give the other ones, and fewer are
refused.  A block is therefore decoded whichever fragments are lost, as long as
they are no more than there are parity shards.
-/

namespace Strata

open Polynomial

namespace ReedSolomon

/-! ## Shards at one position -/

/-- The byte at a position of a shard, which is zero past the end. -/
def symbolAt
    (position : Nat)
    (shard : Bytes) :
    Symbol :=
  ⟨shard[position]?.getD 0⟩

theorem symbolAt_xor
    {first second : Bytes}
    (same : first.length = second.length)
    (position : Nat) :
    symbolAt position (Bytes.xor first second) =
      symbolAt position first + symbolAt position second := by
  unfold symbolAt Bytes.xor
  rw [List.getElem?_zipWith, ← Symbol.mk_xor]
  rcases Nat.lt_or_ge position first.length with inside | past
  · rw [List.getElem?_eq_getElem inside,
      List.getElem?_eq_getElem (same ▸ inside)]
    rfl
  · rw [List.getElem?_eq_none past, List.getElem?_eq_none (same ▸ past)]
    rfl

theorem symbolAt_map_times
    (weight : UInt8)
    (shard : Bytes)
    (position : Nat) :
    symbolAt position (shard.map (times weight)) =
      ⟨weight⟩ * symbolAt position shard := by
  unfold symbolAt
  rw [List.getElem?_map, ← Symbol.mk_times]
  cases shard[position]? with
  | none =>
    have zero : (⟨times weight 0⟩ : Symbol) = ⟨0⟩ :=
      mul_zero (⟨weight⟩ : Symbol)
    exact zero.symm
  | some byte => rfl

/-- Strings of one length are equal if they have the same bytes. -/
theorem eq_of_symbolAt
    {first second : Bytes}
    (same : first.length = second.length)
    (equal : ∀ position, position < first.length →
      symbolAt position first = symbolAt position second) :
    first = second := by
  apply List.ext_getElem same
  intro position one two
  have byte := congrArg Symbol.byte (equal position one)
  simpa [symbolAt, one, two] using byte

/-- At a position, what shards of one length are added up to with weights is
the sum of their bytes there with the weights. -/
theorem symbolAt_foldl_xor
    {sum : Bytes}
    {pairs : List (UInt8 × Bytes)}
    (same : ∀ pair ∈ pairs, pair.2.length = sum.length)
    (position : Nat) :
    symbolAt position (pairs.foldl
        (fun sum pair => Bytes.xor sum (pair.2.map (times pair.1))) sum) =
      symbolAt position sum +
        (pairs.map fun pair => ⟨pair.1⟩ * symbolAt position pair.2).sum := by
  induction pairs generalizing sum with
  | nil => exact (add_zero _).symm
  | cons pair rest ih =>
      have first := same pair List.mem_cons_self
      have masked : (Bytes.xor sum (pair.2.map (times pair.1))).length =
          sum.length := by
        simp [first]
      rw [List.foldl_cons, ih, symbolAt_xor (by simp [first]),
        symbolAt_map_times, List.map_cons, List.sum_cons, add_assoc]
      intro other member
      rw [masked]
      exact same other (List.mem_cons_of_mem _ member)

theorem symbolAt_combine
    {length : Nat}
    {shards : List Bytes}
    (same : ∀ shard ∈ shards, shard.length = length)
    (weights : List UInt8)
    (position : Nat) :
    symbolAt position (combine length weights shards) =
      ((weights.zip shards).map fun pair =>
        ⟨pair.1⟩ * symbolAt position pair.2).sum := by
  have each : ∀ pair ∈ weights.zip shards,
      pair.2.length = (Bytes.zeros length).length := by
    intro pair member
    rw [Bytes.length_zeros]
    exact same pair.2 (List.of_mem_zip member).2
  have nothing : symbolAt position (Bytes.zeros length) = 0 := by
    unfold symbolAt
    rw [Bytes.getElem?_zeros]
    split <;> rfl
  have added := symbolAt_foldl_xor each position
  rw [nothing, zero_add] at added
  exact added

/-- What some shards come to at a position when they are added up with the
weights of a target. -/
theorem symbolAt_combine_known
    {length : Nat}
    {known : List (Nat × Bytes)}
    (same : ∀ entry ∈ known, entry.2.length = length)
    (target : UInt8)
    (position : Nat) :
    symbolAt position (combine length
        (weights (known.map fun entry => pointOf entry.1) target)
        (known.map (·.2))) =
      (known.map fun entry =>
        ⟨weight (known.map fun entry => pointOf entry.1) target
            (pointOf entry.1)⟩ *
          symbolAt position entry.2).sum := by
  have each : ∀ shard ∈ known.map (·.2), shard.length = length := by
    intro shard member
    rcases List.mem_map.mp member with ⟨entry, there, rfl⟩
    exact same entry there
  rw [symbolAt_combine each, weights, List.map_map, List.zip_map',
    List.map_map]
  rfl

/-- At a position at which the known shards have the values of a polynomial
at their points, they come to its value at the target. -/
theorem symbolAt_combine_weights
    {length : Nat}
    {known : List (Nat × Bytes)}
    (same : ∀ entry ∈ known, entry.2.length = length)
    (distinct : (known.map (·.1)).Nodup)
    (few : ∀ entry ∈ known, entry.1 < 256)
    (target : UInt8)
    (position : Nat)
    {polynomial : Symbol[X]}
    (small : polynomial.degree < known.length)
    (values : ∀ entry ∈ known,
      symbolAt position entry.2 = polynomial.eval ⟨pointOf entry.1⟩) :
    symbolAt position (combine length
        (weights (known.map fun entry => pointOf entry.1) target)
        (known.map (·.2))) =
      polynomial.eval ⟨target⟩ := by
  have points : (known.map fun entry => pointOf entry.1).Nodup := by
    have mapped := nodup_points distinct (by simpa using few)
    rwa [List.map_map] at mapped
  rw [symbolAt_combine_known same,
    ← sum_weight_mul_eval points target polynomial (by simpa using small),
    List.map_map]
  congr 1
  apply List.map_congr_left
  intro entry member
  rw [values entry member]
  rfl

/-! ## Shards that are there -/

theorem mem_present
    {shards : List (Option Bytes)}
    {index : Nat}
    {shard : Bytes} :
    (index, shard) ∈ present shards ↔ shards[index]? = some (some shard) := by
  simp [present, List.mem_filterMap, List.mem_zipIdx_iff_getElem?]

theorem map_snd_zipIdx_filterMap
    (shards : List (Option Bytes))
    (start : Nat) :
    ((shards.zipIdx start).filterMap fun entry =>
        entry.1.map fun shard => (entry.2, shard)).map (·.1) =
      (List.range' start shards.length).filter fun index =>
        shards[index - start]?.join.isSome := by
  induction shards generalizing start with
  | nil => rfl
  | cons shard? rest ih =>
      have later :
          (List.range' (start + 1) rest.length).filter (fun index =>
              (shard? :: rest)[index - start]?.join.isSome) =
            (List.range' (start + 1) rest.length).filter fun index =>
              rest[index - (start + 1)]?.join.isSome := by
        apply List.filter_congr
        intro index member
        have behind := (List.mem_range'_1.mp member).1
        rw [show index - start = index - (start + 1) + 1 by omega,
          List.getElem?_cons_succ]
      rw [List.zipIdx_cons, List.length_cons, List.range'_succ,
        List.filter_cons, later, ← ih, Nat.sub_self, List.getElem?_cons_zero]
      cases shard? <;> rfl

/-- The shards that are there are listed by their numbers. -/
theorem map_fst_present
    (shards : List (Option Bytes)) :
    (present shards).map (·.1) =
      (List.range shards.length).filter fun index =>
        shards[index]?.join.isSome := by
  rw [List.range_eq_range']
  exact map_snd_zipIdx_filterMap shards 0

theorem nodup_present
    (shards : List (Option Bytes)) :
    ((present shards).map (·.1)).Nodup := by
  rw [map_fst_present]
  exact List.nodup_range.filter _

/-- The shards, without those that are lost. -/
def without
    (lost : Finset Nat)
    (shards : List Bytes) :
    List (Option Bytes) :=
  shards.mapIdx fun index shard => if index ∈ lost then none else some shard

@[simp]
theorem length_without
    (lost : Finset Nat)
    (shards : List Bytes) :
    (without lost shards).length = shards.length :=
  List.length_mapIdx

theorem getElem?_without
    (lost : Finset Nat)
    (shards : List Bytes)
    (index : Nat) :
    (without lost shards)[index]? =
      shards[index]?.map fun shard =>
        if index ∈ lost then none else some shard :=
  List.getElem?_mapIdx

/-- A shard that is there is one of all shards. -/
theorem mem_present_without
    {lost : Finset Nat}
    {shards : List Bytes}
    {entry : Nat × Bytes}
    (there : entry ∈ present (without lost shards)) :
    shards[entry.1]? = some entry.2 := by
  have found := mem_present.mp there
  rw [getElem?_without, Option.map_eq_some_iff] at found
  rcases found with ⟨shard, held, kept⟩
  split at kept
  · cases kept
  · cases kept
    exact held

/-- All shards are there but the lost ones. -/
theorem length_present_without
    {lost : Finset Nat}
    {shards : List Bytes}
    (among : lost ⊆ Finset.range shards.length) :
    (present (without lost shards)).length + lost.card = shards.length := by
  have numbers : (present (without lost shards)).map (·.1) =
      (List.range shards.length).filter (· ∉ lost) := by
    rw [map_fst_present, length_without]
    apply List.filter_congr
    intro index member
    rw [getElem?_without, List.getElem?_eq_getElem (List.mem_range.mp member)]
    by_cases gone : index ∈ lost <;> simp [gone]
  have left : ((List.range shards.length).filter (· ∉ lost)).toFinset =
      Finset.range shards.length \ lost := by
    ext index
    simp
  rw [← List.length_map (·.1), numbers,
    ← List.toFinset_card_of_nodup (List.nodup_range.filter _), left,
    Finset.card_sdiff_add_card_eq_card among, Finset.card_range]

/-! ## Codewords -/

/-- At each position the shards have the values of one polynomial, of degree
below a number, at their points. -/
def Codeword
    (count : Nat)
    (shards : List Bytes) :
    Prop :=
  ∀ position, ∃ polynomial : Symbol[X],
    polynomial.degree < count ∧
      ∀ index shard, shards[index]? = some shard →
        symbolAt position shard = polynomial.eval ⟨pointOf index⟩

variable
  {code : ReedSolomon}
  {data parity length : Nat}
  {shards : List Bytes}

/-- Any shards of a codeword, as many as determine a polynomial, give the
other ones. -/
theorem Codeword.combine_weights
    {known : List (Nat × Bytes)}
    (codeword : Codeword known.length shards)
    (same : ∀ shard ∈ shards, shard.length = length)
    (few : shards.length ≤ 256)
    (distinct : (known.map (·.1)).Nodup)
    (among : ∀ entry ∈ known, shards[entry.1]? = some entry.2)
    {index : Nat}
    {shard : Bytes}
    (there : shards[index]? = some shard) :
    combine length
        (weights (known.map fun entry => pointOf entry.1) (pointOf index))
        (known.map (·.2)) =
      shard := by
  have long : ∀ entry ∈ known, entry.2.length = length :=
    fun entry member => same _ (List.mem_of_getElem? (among entry member))
  have values : ∀ shard ∈ known.map (·.2), shard.length = length := by
    intro shard member
    rcases List.mem_map.mp member with ⟨entry, inside, rfl⟩
    exact long entry inside
  have whole := same shard (List.mem_of_getElem? there)
  apply eq_of_symbolAt ((length_combine _ values).trans whole.symm)
  intro position _
  rcases codeword position with ⟨polynomial, small, held⟩
  rw [held index shard there]
  refine symbolAt_combine_weights long distinct ?_ _ position small ?_
  · intro entry member
    have inside := (List.getElem?_eq_some_iff.mp (among entry member)).1
    omega
  · intro entry member
    exact held _ _ (among entry member)

/-- The bytes that data shards have at a position are the values of a
polynomial of degree below their number. -/
theorem exists_polynomial
    (shards : List Bytes)
    (few : shards.length ≤ 256)
    (position : Nat) :
    ∃ polynomial : Symbol[X],
      polynomial.degree < shards.length ∧
        ∀ index shard, shards[index]? = some shard →
          symbolAt position shard = polynomial.eval ⟨pointOf index⟩ := by
  have points : Set.InjOn (fun index => Symbol.mk (pointOf index))
      (Finset.range shards.length) := by
    intro first one second two equal
    rw [Finset.coe_range, Set.mem_Iio] at one two
    exact pointOf_injOn (by omega) (by omega) (Symbol.mk_injective equal)
  refine ⟨Lagrange.interpolate (Finset.range shards.length)
    (fun index => Symbol.mk (pointOf index))
    (fun index => symbolAt position (shards[index]?.getD [])), ?_, ?_⟩
  · have small := Lagrange.degree_interpolate_lt
      (fun index => symbolAt position (shards[index]?.getD [])) points
    rwa [Finset.card_range] at small
  · intro index shard there
    have inside := (List.getElem?_eq_some_iff.mp there).1
    rw [Lagrange.eval_interpolate_at_node _ points
      (Finset.mem_range.mpr inside), there, Option.getD_some]

/-- All shards there are, where they have the values of a polynomial at their
points, come to its value at the target. -/
theorem symbolAt_combine_all
    (same : ∀ shard ∈ shards, shard.length = length)
    (few : shards.length ≤ 256)
    (target : UInt8)
    (position : Nat)
    {polynomial : Symbol[X]}
    (small : polynomial.degree < shards.length)
    (values : ∀ index shard, shards[index]? = some shard →
      symbolAt position shard = polynomial.eval ⟨pointOf index⟩) :
    symbolAt position (combine length
        (weights ((List.range shards.length).map pointOf) target) shards) =
      polynomial.eval ⟨target⟩ := by
  have held : ∀ entry ∈ present (shards.map some),
      shards[entry.1]? = some entry.2 := by
    intro entry member
    simpa using mem_present.mp member
  have numbers :
      (present (shards.map some)).map (·.1) = List.range shards.length := by
    rw [map_fst_present, List.filter_eq_self.mpr, List.length_map]
    intro number member
    rw [List.length_map, List.mem_range] at member
    simp [List.getElem?_eq_getElem member]
  have count : (present (shards.map some)).length = shards.length := by
    rw [← List.length_map (·.1), numbers, List.length_range]
  have points :
      (present (shards.map some)).map (fun entry => pointOf entry.1) =
        (List.range shards.length).map pointOf := by
    rw [← numbers, List.map_map]
    rfl
  have combined := symbolAt_combine_weights
    (fun entry member => same _ (List.mem_of_getElem? (held entry member)))
    (nodup_present _)
    (fun entry member => by
      have := (List.getElem?_eq_some_iff.mp (held entry member)).1
      omega)
    target position (count ▸ small)
    (fun entry member => values _ _ (held entry member))
  rwa [points, map_snd_present] at combined

theorem encode_eq_append
    (same : ∀ shard ∈ shards, shard.length = length)
    {fragments : List Bytes}
    (encoded : code.encode shards = .ok fragments) :
    fragments = shards ++ code.parityWeights.map fun weights =>
      combine length weights shards := by
  unfold encode at encoded
  dsimp only at encoded
  split at encoded
  · cases encoded
  · rename_i long
    cases shards with
    | nil => exact absurd rfl long
    | cons first rest =>
        rw [List.headD_cons, same first List.mem_cons_self] at encoded
        exact (Except.ok.inj encoded).symm

/-- What is encoded is a codeword, of which the data shards come first. -/
theorem codeword_encode
    (shape : ofShape data parity = .ok code)
    (count : shards.length = data)
    (same : ∀ shard ∈ shards, shard.length = length)
    {fragments : List Bytes}
    (encoded : code.encode shards = .ok fragments) :
    Codeword data fragments := by
  rcases eq_of_ofShape shape with ⟨few, -, -, made⟩
  subst count
  intro position
  rcases exists_polynomial shards (by omega) position with
    ⟨polynomial, small, values⟩
  refine ⟨polynomial, small, fun index fragment there => ?_⟩
  rw [encode_eq_append same encoded, List.getElem?_append] at there
  split at there
  · exact values index fragment there
  · rename_i past
    rw [made, List.map_map, List.getElem?_map, Option.map_eq_some_iff] at there
    rcases there with ⟨row, found, rfl⟩
    rcases List.getElem?_eq_some_iff.mp found with ⟨inside, numbered⟩
    rw [List.getElem_range] at numbered
    have target : shards.length + row = index := by omega
    rw [← target]
    exact symbolAt_combine_all same (by omega) _ position small values

/-- Where shards of a codeword are lost, the first ones that are there give
each data shard. -/
theorem dataShard_without
    (codeword : Codeword data shards)
    (same : ∀ shard ∈ shards, shard.length = length)
    (few : shards.length ≤ 256)
    (someData : 0 < data)
    {lost : Finset Nat}
    (enough : data ≤ (present (without lost shards)).length)
    {index : Nat}
    {shard : Bytes}
    (there : shards[index]? = some shard) :
    dataShard ((present (without lost shards)).take data)
        (without lost shards) index =
      shard := by
  rw [dataShard, getElem?_without, there]
  by_cases gone : index ∈ lost
  · have taken : ∀ entry ∈ (present (without lost shards)).take data,
        shards[entry.1]? = some entry.2 :=
      fun entry member => mem_present_without (List.mem_of_mem_take member)
    have count : ((present (without lost shards)).take data).length =
        data := by
      rw [List.length_take]
      omega
    have distinct :
        (((present (without lost shards)).take data).map (·.1)).Nodup := by
      rw [List.map_take]
      exact (nodup_present _).sublist (List.take_sublist _ _)
    have head : (((present (without lost shards)).take data).map
        (·.2)).headD [] ∈ shards := by
      cases first : (present (without lost shards)).take data with
      | nil =>
          rw [first, List.length_nil] at count
          omega
      | cons entry rest =>
          rw [first] at taken
          exact List.mem_of_getElem? (taken entry List.mem_cons_self)
    simp only [Option.map_some, if_pos gone, same _ head]
    exact Codeword.combine_weights (count.symm ▸ codeword) same few distinct
      taken there
  · simp [gone]

/-- A codeword is made whole again from any shards that determine it, and not
from fewer. -/
theorem reconstruct_without
    (codeword : Codeword code.data shards)
    (same : ∀ shard ∈ shards, shard.length = length)
    (long : 0 < length)
    (someData : 0 < code.data)
    (enough : code.data ≤ shards.length)
    (few : shards.length ≤ 256)
    (lost : Finset Nat) :
    code.reconstruct (without lost shards) =
      if (present (without lost shards)).length < code.data then
        .error .tooFewShardsPresent
      else
        .ok (shards.take code.data) := by
  have sizes : ∀ shard ∈ (present (without lost shards)).map (·.2),
      shard.length = length := by
    intro shard member
    rcases List.mem_map.mp member with ⟨entry, inside, rfl⟩
    exact same _ (List.mem_of_getElem? (mem_present_without inside))
  unfold reconstruct
  simp only [lengthFault?_of_length long sizes]
  split
  · rfl
  · rename_i several
    congr 1
    apply List.ext_getElem (by simp [enough])
    intro index inRange _
    rw [List.length_map, List.length_range] at inRange
    have there := List.getElem?_eq_getElem (Nat.lt_of_lt_of_le inRange enough)
    rw [List.getElem_map, List.getElem_range, List.getElem_take]
    exact dataShard_without codeword same few someData (by omega) there

/-- A lost data shard is rebuilt by the inverse of the rows that the encoding
matrix has for the known shards. -/
theorem symbolAt_dataShard
    (few : data + parity ≤ 256)
    {known : Fin data → Fin (data + parity)}
    (distinct : Function.Injective known)
    {values : Fin data → Bytes}
    (same : ∀ column, (values column).length = length)
    {shards : List (Option Bytes)}
    {index : Fin data}
    (missing : shards[(index : Nat)]? = some none)
    (position : Nat) :
    symbolAt position
        (dataShard
          (List.ofFn fun column => ((known column : Nat), values column))
          shards index) =
      ((encoding data parity).submatrix known id)⁻¹.mulVec
        (fun column => symbolAt position (values column)) index := by
  have each : ∀ entry ∈
      List.ofFn (fun column => ((known column : Nat), values column)),
        entry.2.length = length := by
    intro entry member
    rcases (List.mem_ofFn' _ _).mp member with ⟨column, rfl⟩
    exact same column
  have head : (((List.ofFn fun column =>
      ((known column : Nat), values column)).map (·.2)).headD []).length =
        length := by
    have inside := index.isLt
    cases data with
    | zero => omega
    | succ count =>
        rw [List.ofFn_succ]
        exact same 0
  have points : (List.ofFn fun column =>
      ((known column : Nat), values column)).map (fun entry =>
        pointOf entry.1) =
          (List.ofFn fun column => (known column : Nat)).map pointOf := by
    rw [List.map_ofFn, List.map_ofFn]
    rfl
  rw [(inv_submatrix_encoding few distinct).2, dataShard, missing]
  simp only [head]
  rw [symbolAt_combine_known each, points, List.map_ofFn, List.sum_ofFn]
  rfl

end ReedSolomon

namespace ErasureCoder

open ReedSolomon

variable
  {coder : ErasureCoder}
  {block : Bytes}

theorem total_eq
    (coder : ErasureCoder) :
    coder.total = coder.code.data + coder.code.parity :=
  rfl

theorem exists_ofShape
    {data parity : Nat}
    (someData : 0 < data)
    (someParity : 0 < parity)
    (few : data + parity ≤ 256) :
    ∃ made, ofShape data parity = .ok made ∧
      ReedSolomon.ofShape data parity = .ok made.code := by
  unfold ofShape ReedSolomon.ofShape
  rw [if_neg (by omega), if_neg (by omega)]
  exact ⟨_, rfl, rfl⟩

theorem codeword_fragments
    {data parity : Nat}
    (shape : ReedSolomon.ofShape data parity = .ok coder.code)
    {fragments : List Bytes}
    (split : coder.fragments block = .ok fragments) :
    Codeword data fragments := by
  rcases ReedSolomon.eq_of_ofShape shape with ⟨-, count, -, -⟩
  unfold ErasureCoder.fragments reported at split
  cases encoded : coder.code.encode (coder.dataShards block) with
  | error fault =>
      rw [encoded] at split
      cases split
  | ok shards =>
      rw [encoded] at split
      cases split
      exact codeword_encode shape ((length_dataShards coder block).trans count)
        (fun shard member => length_of_mem_dataShards member) encoded

/-- A block is decoded from its fragments unless more of them are lost than
there are parity shards. -/
theorem decode_without
    {data parity : Nat}
    (shape : ReedSolomon.ofShape data parity = .ok coder.code)
    (someData : 0 < data)
    (nonempty : block ≠ [])
    {fragments : List Bytes}
    (split : coder.fragments block = .ok fragments)
    {lost : Finset Nat}
    (among : lost ⊆ Finset.range fragments.length) :
    coder.decode (without lost fragments) block.length =
      if lost.card ≤ parity then
        .ok block
      else
        .error (.erasure "TooFewShardsPresent") := by
  have codeword := codeword_fragments shape split
  rcases ReedSolomon.eq_of_ofShape shape with
    ⟨few, dataCount, parityCount, -⟩
  rw [← dataCount] at someData codeword
  rcases
      exists_fragments someData (length_parityWeights shape) nonempty with
    ⟨rest, found, total, same⟩
  cases split.symm.trans found
  have left := length_present_without among
  have all : coder.total = data + parity := by
    rw [total_eq, dataCount, parityCount]
  have rebuilt := reconstruct_without codeword same
    (coder.fragmentLength_pos someData (List.length_pos_iff.mpr nonempty))
    someData (by omega) (by omega) lost
  rw [decode, if_neg (by simpa using total), rebuilt]
  by_cases several : lost.card ≤ parity
  · rw [if_neg (by omega), if_pos several,
      List.take_left' (length_dataShards coder block)]
    exact congrArg Except.ok (take_flatten_dataShards someData block)
  · rw [if_pos (by omega), if_neg several]
    rfl

/-- At each position the fragments are what the encoding matrix makes of the
data shards. -/
theorem symbolAt_fragment
    {data parity : Nat}
    (shape : ReedSolomon.ofShape data parity = .ok coder.code)
    {fragments : List Bytes}
    (split : coder.fragments block = .ok fragments)
    (count : fragments.length = data + parity)
    (first : coder.dataShards block <+: fragments)
    (position : Nat)
    (row : Fin (data + parity)) :
    symbolAt position (fragments.getD row []) =
      (encoding data parity).mulVec
        (fun column =>
          symbolAt position ((coder.dataShards block).getD column [])) row := by
  rcases ReedSolomon.eq_of_ofShape shape with ⟨few, dataCount, -, -⟩
  rcases codeword_fragments shape split position with
    ⟨polynomial, small, values⟩
  have known : ∀ index, index < data + parity →
      symbolAt position (fragments.getD index []) =
        polynomial.eval ⟨pointOf index⟩ := by
    intro index inside
    have there := List.getElem?_eq_getElem (count ▸ inside)
    rw [List.getD_eq_getElem?_getD, there]
    exact values index _ there
  have shards : (fun column : Fin data =>
      symbolAt position ((coder.dataShards block).getD column [])) =
        fun column : Fin data => polynomial.eval ⟨pointOf column⟩ := by
    funext column
    rcases first with ⟨rest, rfl⟩
    have inside : (column : Nat) < (coder.dataShards block).length := by
      rw [length_dataShards, dataCount]
      exact column.isLt
    rw [← known column (by omega), List.getD_eq_getElem?_getD,
      List.getD_eq_getElem?_getD, List.getElem?_append_left inside]
  rw [shards, encoding_eq_weighting few, weighting_mulVec_eval _
    Fin.val_injective (fun column => by omega) polynomial small,
    known row row.isLt]

/--
For all numbers of shards that the field has room for there is a coder, and
whatever its books are: a block that it encodes becomes one fragment for each
shard, made from the pieces of the block by the encoding matrix, and is decoded
from the fragments exactly if no more of them are lost than there are parity
shards, whichever they are.
-/
theorem encode_outlives_losses
    {data parity : Nat}
    (someData : 0 < data)
    (someParity : 0 < parity)
    (few : data + parity ≤ 256) :
    ∃ made, ofShape data parity = .ok made ∧
      ∀ (coder later : ErasureCoder) (path : Path) (block : Bytes)
          (offset : Nat) (fragments : List Bytes) (extent : Extent),
        coder.code = made.code → block ≠ [] →
        (encode path block offset).execute coder =
            (.ok (fragments, extent), later) →
          fragments.length = data + parity ∧
          (∀ fragment ∈ fragments,
            fragment.length = block.length ⌈/⌉ data) ∧
          (∀ position (row : Fin (data + parity)),
            symbolAt position (fragments.getD row []) =
              (encoding data parity).mulVec
                (fun column => symbolAt position
                  ((coder.dataShards block).getD column [])) row) ∧
          ∀ lost ⊆ Finset.range (data + parity),
            later.decode (without lost fragments) extent.block =
              if lost.card ≤ parity then
                .ok block
              else
                .error (.erasure "TooFewShardsPresent") := by
  rcases exists_ofShape someData someParity few with ⟨made, shape, code⟩
  refine ⟨made, shape, ?_⟩
  intro coder later path block offset fragments extent same nonempty ran
  rw [← same] at code
  rcases ReedSolomon.eq_of_ofShape code with ⟨-, dataCount, parityCount, -⟩
  rcases
      exists_fragments (dataCount ▸ someData) (length_parityWeights code)
        nonempty with
    ⟨rest, split, total, sizes⟩
  have kept : later.code = coder.code := by
    have unchanged := coder.code_after (.encode path block offset)
    rwa [after, ran] at unchanged
  rcases coder.encode_cases path block offset with
    ⟨error, -, failed⟩ | ⟨id, identities, found, -, again, placed⟩
  · cases ran.symm.trans failed
  rcases placed with ⟨-, failed⟩ | ⟨start, recorded, -, is, succeeded⟩
  · cases ran.symm.trans failed
  cases ran.symm.trans succeeded
  cases again.symm.trans split
  have count : (coder.dataShards block ++ rest).length = data + parity := by
    rw [total, total_eq, dataCount, parityCount]
  refine ⟨count, ?_, ?_, ?_⟩
  · rw [← dataCount]
    exact sizes
  · exact symbolAt_fragment code split count (List.prefix_append _ _)
  · intro lost among
    rw [is]
    exact decode_without (kept ▸ code) someData nonempty split (count ▸ among)

/-- Of the three fragments of three bytes any one can be lost, but not two. -/
theorem encode_outlives_losses_of_three_bytes :
    ∃ made, ofShape 2 1 = .ok made ∧
      ∃ later extent,
        (encode ⟨["file"]⟩ [1, 2, 3] 0).execute made =
            (.ok ([[1, 2], [3, 0], [5, 6]], extent), later) ∧
          later.decode [none, some [3, 0], some [5, 6]] extent.block =
            .ok [1, 2, 3] ∧
          later.decode [none, some [3, 0], none] extent.block =
            .error (.erasure "TooFewShardsPresent") := by
  rcases
      encode_outlives_losses (by decide : 0 < 2) (by decide : 0 < 1)
        (by decide) with
    ⟨made, shape, outlives⟩
  cases ofShape_two_one.symm.trans shape
  have encoded :
      (encode ⟨["file"]⟩ [1, 2, 3] 0).execute { code := ⟨2, 1, [[3, 2]]⟩ } =
        (.ok ([[1, 2], [3, 0], [5, 6]], ⟨0, 2, 3⟩),
          { code := ⟨2, 1, [[3, 2]]⟩
            identities := ⟨1, [("/file", 0)]⟩
            extents := [(0, ⟨[(0, ⟨0, 2, 3⟩)], [(3, 2)], 3⟩)] }) := by
    rfl
  rcases outlives _ _ _ _ _ _ _ rfl (by decide) encoded with
    ⟨-, -, -, decodes⟩
  have first : without {0} [[1, 2], [3, 0], [5, 6]] =
      [none, some [3, 0], some [5, 6]] := by
    decide
  have outer : without {0, 2} [[1, 2], [3, 0], [5, 6]] =
      [none, some [3, 0], none] := by
    decide
  exact ⟨_, shape, _, _, encoded, first ▸ decodes {0} (by decide),
    outer ▸ decodes {0, 2} (by decide)⟩

end ErasureCoder

end Strata
