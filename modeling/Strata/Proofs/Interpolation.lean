import Mathlib.LinearAlgebra.Lagrange
import Mathlib.LinearAlgebra.Vandermonde
import Mathlib.LinearAlgebra.Matrix.NonsingularInverse
import Strata.Proofs.CodeField

/-!
# Interpolation by weights

The weights of the code are those of interpolation: added up with the weights
of a target, the values of a polynomial at some points come to its value at the
target, as long as its degree is below the number of points.

As matrices the weights undo the powers of the points.  So the matrix that makes
all shards from the data shards is the powers of all points times the inverse of
those of the data shards, and any rows of it, as many as it has columns, can be
inverted.
-/

namespace Strata.ReedSolomon

open Polynomial

/-! ## Bytes as elements -/

namespace Symbol

theorem mk_injective :
    Function.Injective Symbol.mk :=
  fun _ _ same => congrArg byte same

@[simp]
theorem mk_xor
    (left right : UInt8) :
    Symbol.mk (left ^^^ right) = ⟨left⟩ + ⟨right⟩ :=
  rfl

@[simp]
theorem mk_times
    (left right : UInt8) :
    Symbol.mk (times left right) = ⟨left⟩ * ⟨right⟩ :=
  rfl

theorem mk_inverse
    (byte : UInt8) :
    Symbol.mk (ByteField.inverse reduction byte) = (⟨byte⟩ : Symbol)⁻¹ :=
  rfl

/-- In this field a difference is a sum. -/
theorem sub_eq_add
    (left right : Symbol) :
    left - right = left + right :=
  sub_eq_add_neg left right

end Symbol

/-! ## Weights -/

variable {points : List UInt8}

theorem mk_differences
    (origin : UInt8)
    (others : List UInt8) :
    Symbol.mk (differences origin others) =
      (others.map fun other => Symbol.mk origin - ⟨other⟩).prod := by
  unfold differences
  have product : ∀ (factors : List UInt8) (start : UInt8),
      Symbol.mk (factors.foldl times start) =
        ⟨start⟩ * (factors.map Symbol.mk).prod := by
    intro factors
    induction factors with
    | nil => exact fun start => (mul_one _).symm
    | cons factor rest ih =>
        intro start
        rw [List.foldl_cons, ih, List.map_cons, List.prod_cons,
          Symbol.mk_times, mul_assoc]
  rw [product, List.map_map]
  refine (one_mul _).trans (congrArg List.prod (List.map_congr_left ?_))
  intro other _
  exact (Symbol.sub_eq_add _ _).symm

/-- A weight is the value at the target of the polynomial that is one at its
point and zero at the other ones. -/
theorem mk_weight
    (distinct : points.Nodup)
    (target point : UInt8) :
    Symbol.mk (weight points target point) =
      (Lagrange.basis points.toFinset Symbol.mk point).eval ⟨target⟩ := by
  have others : (points.filter (· != point)).toFinset =
      points.toFinset.erase point := by
    ext other
    simp [and_comm]
  rw [weight, Symbol.mk_times, Symbol.mk_inverse, mk_differences,
    mk_differences, ← List.prod_toFinset _ (distinct.filter _),
    ← List.prod_toFinset _ (distinct.filter _), others, Lagrange.basis,
    eval_prod, ← Finset.prod_inv_distrib, ← Finset.prod_mul_distrib]
  refine Finset.prod_congr rfl fun other _ => ?_
  simp [Lagrange.basisDivisor, mul_comm]

/-- Weighted with the weights of a target, the values of a polynomial at the
points add up to its value at the target. -/
theorem sum_weight_mul_eval
    (distinct : points.Nodup)
    (target : UInt8)
    (polynomial : Symbol[X])
    (small : polynomial.degree < points.length) :
    (points.map fun point =>
        Symbol.mk (weight points target point) * polynomial.eval ⟨point⟩).sum =
      polynomial.eval ⟨target⟩ := by
  have determined := Lagrange.eq_interpolate_of_eval_eq
    (s := points.toFinset) (v := Symbol.mk)
    (fun point => polynomial.eval ⟨point⟩) Symbol.mk_injective.injOn
    (by rwa [List.toFinset_card_of_nodup distinct]) fun _ _ => rfl
  calc
    _ = ∑ point ∈ points.toFinset,
          Symbol.mk (weight points target point) *
            polynomial.eval ⟨point⟩ :=
      (List.sum_toFinset _ distinct).symm
    _ = ∑ point ∈ points.toFinset,
          (C (polynomial.eval ⟨point⟩) *
            Lagrange.basis points.toFinset Symbol.mk point).eval ⟨target⟩ := by
      refine Finset.sum_congr rfl fun point _ => ?_
      rw [eval_mul, eval_C, mk_weight distinct, mul_comm]
    _ = polynomial.eval ⟨target⟩ := by
      rw [← eval_finsetSum, ← Lagrange.interpolate_apply, ← determined]

/-! ## Points of shards -/

theorem pointOf_injOn
    {first second : Nat}
    (one : first < 256)
    (two : second < 256)
    (same : pointOf first = pointOf second) :
    first = second := by
  have numbers := congrArg UInt8.toNat same
  simp only [pointOf, Nat.toUInt8_eq, UInt8.toNat_ofNat'] at numbers
  omega

/-- Different shards have different points, as long as there are at most as
many shards as bytes. -/
theorem nodup_points
    {indices : List Nat}
    (distinct : indices.Nodup)
    (few : ∀ index ∈ indices, index < 256) :
    (indices.map pointOf).Nodup :=
  List.Nodup.map_on
    (fun first one second two => pointOf_injOn (few first one) (few second two))
    distinct

/-! ## Matrices -/

variable
  {rows count : Nat}
  {shards : Fin count → Nat}

/-- The powers of the points of some shards. -/
def powers
    (shards : Fin rows → Nat)
    (columns : Nat) :
    Matrix (Fin rows) (Fin columns) Symbol :=
  Matrix.of fun row column => ⟨pointOf (shards row)⟩ ^ (column : Nat)

/-- The weights of the values of some shards in those of other ones. -/
def weighting
    (targets : Fin rows → Nat)
    (shards : Fin count → Nat) :
    Matrix (Fin rows) (Fin count) Symbol :=
  Matrix.of fun row column =>
    ⟨weight ((List.ofFn shards).map pointOf) (pointOf (targets row))
      (pointOf (shards column))⟩

/-- The matrix that makes all shards from the data shards: the powers of the
points of all shards times the inverse of those of the data shards. -/
noncomputable def encoding
    (data parity : Nat) :
    Matrix (Fin (data + parity)) (Fin data) Symbol :=
  powers (fun shard : Fin (data + parity) => shard) data *
    (powers (fun shard : Fin data => shard) data)⁻¹

theorem isUnit_det_powers
    (distinct : Function.Injective shards)
    (few : ∀ column, shards column < 256) :
    IsUnit (powers shards count).det := by
  refine IsUnit.mk0 _ (Matrix.det_vandermonde_ne_zero_iff.mpr ?_)
  intro first second same
  exact distinct (pointOf_injOn (few first) (few second)
    (Symbol.mk_injective same))

/-- The weights take the values of a polynomial at some points to its values
at other ones. -/
theorem weighting_mulVec_eval
    (targets : Fin rows → Nat)
    (distinct : Function.Injective shards)
    (few : ∀ column, shards column < 256)
    (polynomial : Symbol[X])
    (small : polynomial.degree < count) :
    (weighting targets shards).mulVec
        (fun column => polynomial.eval ⟨pointOf (shards column)⟩) =
      fun row => polynomial.eval ⟨pointOf (targets row)⟩ := by
  have points : ((List.ofFn shards).map pointOf).Nodup := by
    refine nodup_points (List.nodup_ofFn.mpr distinct) fun shard member => ?_
    rcases (List.mem_ofFn' _ _).mp member with ⟨column, rfl⟩
    exact few column
  funext row
  have value := sum_weight_mul_eval points (pointOf (targets row)) polynomial
    (by simpa using small)
  rwa [List.map_map, List.map_ofFn, List.sum_ofFn] at value

theorem weighting_mul_powers
    (targets : Fin rows → Nat)
    (distinct : Function.Injective shards)
    (few : ∀ column, shards column < 256) :
    weighting targets shards * powers shards count = powers targets count := by
  ext1 row column
  have value := weighting_mulVec_eval targets distinct few
    (X ^ (column : Nat)) (by simp)
  simp only [eval_pow, eval_X] at value
  exact congrFun value row

/-- The weights of the data shards in all shards are the encoding matrix. -/
theorem encoding_eq_weighting
    {data parity : Nat}
    (few : data + parity ≤ 256) :
    encoding data parity =
      weighting (fun shard : Fin (data + parity) => shard)
        (fun shard : Fin data => shard) := by
  have unit : IsUnit (powers (fun shard : Fin data => (shard : Nat))
      data).det :=
    isUnit_det_powers Fin.val_injective fun shard => by omega
  rw [encoding, ← weighting_mul_powers _ Fin.val_injective
    (fun shard => by omega), Matrix.mul_assoc, Matrix.mul_nonsing_inv _ unit,
    Matrix.mul_one]

/-- Any rows of the encoding matrix, as many as it has columns, can be
inverted, and the inverse has the weights of their shards in the data
shards. -/
theorem inv_submatrix_encoding
    {data parity : Nat}
    (few : data + parity ≤ 256)
    {known : Fin data → Fin (data + parity)}
    (distinct : Function.Injective known) :
    IsUnit ((encoding data parity).submatrix known id).det ∧
      ((encoding data parity).submatrix known id)⁻¹ =
        weighting (fun shard : Fin data => shard)
          (fun column => known column) := by
  have unit : IsUnit (powers (fun shard : Fin data => (shard : Nat))
      data).det :=
    isUnit_det_powers Fin.val_injective fun shard => by omega
  have different : Function.Injective fun column => (known column : Nat) :=
    Fin.val_injective.comp distinct
  have inverse :
      weighting (fun shard : Fin data => (shard : Nat))
          (fun column => (known column : Nat)) *
        (encoding data parity).submatrix known id = 1 := by
    have split : (encoding data parity).submatrix known id =
        powers (fun column => (known column : Nat)) data *
          (powers (fun shard : Fin data => (shard : Nat)) data)⁻¹ :=
      rfl
    rw [split, ← Matrix.mul_assoc, weighting_mul_powers _ different
      (fun column => by omega), Matrix.mul_nonsing_inv _ unit]
  exact ⟨Matrix.isUnit_det_of_left_inverse inverse,
    Matrix.inv_eq_left_inv inverse⟩

end Strata.ReedSolomon
