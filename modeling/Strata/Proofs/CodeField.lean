import Mathlib.Algebra.Field.Defs
import Mathlib.GroupTheory.OrderOfElement
import Mathlib.Tactic.NormNum.Prime
import Strata.Coding.ReedSolomon

/-!
# The field of the code

Bytes are multiplied by adding up doublings, so a map of bytes that adds and
doubles as its arguments do goes past a product.  Multiplying by a byte is such
a map itself.  Hence multiplications commute with each other, and applied to
the byte one they give the laws of a commutative ring.

It is a field because the powers of two are all the bytes other than zero:
there are 255 of them before they come back to one.
-/

namespace Strata

namespace ByteField

variable {reduction : UInt8}

/-- What holds of the bytes of all numbers below 256 holds of all bytes. -/
theorem forall_of_fin
    {law : UInt8 → Prop}
    (each : ∀ index : Fin 256, law (UInt8.ofFin index))
    (byte : UInt8) :
    law byte :=
  each byte.toFin

/-- Whether a map of bytes adds and doubles as its arguments do. -/
structure Linear
    (reduction : UInt8)
    (map : UInt8 → UInt8) :
    Prop where
  xor : ∀ left right, map (left ^^^ right) = map left ^^^ map right
  double : ∀ byte,
    map (ByteField.double reduction byte) =
      ByteField.double reduction (map byte)

theorem Linear.zero
    {map : UInt8 → UInt8}
    (linear : Linear reduction map) :
    map 0 = 0 := by
  have twice := linear.xor 0 0
  rwa [UInt8.xor_self, UInt8.xor_self] at twice

/-- The highest bit of a byte is all that doubling looks at. -/
theorem highest_bit
    (byte : UInt8) :
    byte &&& 0x80 = 0 ∨ byte &&& 0x80 = 0x80 := by
  revert byte
  exact forall_of_fin (by decide +kernel)

theorem xor_and
    (left right mask : UInt8) :
    (left ^^^ right) &&& mask = (left &&& mask) ^^^ (right &&& mask) := by
  apply UInt8.toBitVec_inj.mp
  ext index
  simp [Bool.and_xor_distrib_right]

theorem xor_xor_xor_comm
    (first second third fourth : UInt8) :
    (first ^^^ second) ^^^ (third ^^^ fourth) =
      (first ^^^ third) ^^^ (second ^^^ fourth) := by
  rw [UInt8.xor_assoc, UInt8.xor_assoc, ← UInt8.xor_assoc second,
    UInt8.xor_comm second, UInt8.xor_assoc third]

theorem double_xor
    (left right : UInt8) :
    double reduction (left ^^^ right) =
      double reduction left ^^^ double reduction right := by
  unfold double
  rw [UInt8.shiftLeft_xor, xor_and, xor_xor_xor_comm]
  congr 1
  rcases highest_bit left with first | first <;>
    rcases highest_bit right with second | second <;>
      simp [first, second]

/-- Doubling is itself such a map. -/
theorem linear_double :
    Linear reduction (double reduction) :=
  ⟨double_xor, fun _ => rfl⟩

theorem map_addProduct
    {map : UInt8 → UInt8}
    (linear : Linear reduction map)
    (sum left right : UInt8)
    (bits : Nat) :
    map (addProduct reduction sum left right bits) =
      addProduct reduction (map sum) (map left) right bits := by
  induction bits generalizing sum left right with
  | zero => rfl
  | succ bits ih =>
      simp only [addProduct]
      rw [ih, linear.double]
      split
      · rfl
      · rw [linear.xor]

theorem addProduct_xor
    (sum other left shift right : UInt8)
    (bits : Nat) :
    addProduct reduction (sum ^^^ other) (left ^^^ shift) right bits =
      addProduct reduction sum left right bits ^^^
        addProduct reduction other shift right bits := by
  induction bits generalizing sum other left shift right with
  | zero => rfl
  | succ bits ih =>
      simp only [addProduct]
      rw [double_xor]
      split
      · exact ih ..
      · rw [xor_xor_xor_comm]
        exact ih ..

end ByteField

namespace ReedSolomon

open ByteField

/-- A linear map goes past a product. -/
theorem map_times
    {map : UInt8 → UInt8}
    (linear : Linear reduction map)
    (left right : UInt8) :
    map (times left right) = times (map left) right := by
  unfold times product
  rw [map_addProduct linear, linear.zero]

theorem linear_times
    (factor : UInt8) :
    Linear reduction (times · factor) where
  xor left right := addProduct_xor 0 0 left right factor 8
  double byte := (map_times linear_double byte factor).symm

theorem one_times
    (byte : UInt8) :
    times 1 byte = byte := by
  revert byte
  exact forall_of_fin (by decide +kernel)

/-- Multiplications commute, because each of them is linear. -/
theorem times_right_comm
    (first second third : UInt8) :
    times (times first second) third = times (times first third) second :=
  map_times (linear_times third) first second

theorem times_comm
    (left right : UInt8) :
    times left right = times right left := by
  have swapped := times_right_comm 1 left right
  rwa [one_times, one_times] at swapped

theorem times_assoc
    (first second third : UInt8) :
    times (times first second) third = times first (times second third) := by
  rw [times_comm first second, times_right_comm, times_comm _ first]

/-- A byte as an element of the field of the code. -/
@[ext]
structure Symbol where
  byte : UInt8
  deriving DecidableEq

namespace Symbol

instance : Zero Symbol := ⟨⟨0⟩⟩

instance : One Symbol := ⟨⟨1⟩⟩

instance : Add Symbol := ⟨fun left right => ⟨left.byte ^^^ right.byte⟩⟩

instance : Neg Symbol := ⟨fun symbol => symbol⟩

instance : Mul Symbol := ⟨fun left right => ⟨times left.byte right.byte⟩⟩

instance : Inv Symbol :=
  ⟨fun symbol => ⟨ByteField.inverse reduction symbol.byte⟩⟩

@[simp]
theorem byte_zero :
    (0 : Symbol).byte = 0 :=
  rfl

@[simp]
theorem byte_one :
    (1 : Symbol).byte = 1 :=
  rfl

@[simp]
theorem byte_add
    (left right : Symbol) :
    (left + right).byte = left.byte ^^^ right.byte :=
  rfl

@[simp]
theorem byte_mul
    (left right : Symbol) :
    (left * right).byte = times left.byte right.byte :=
  rfl

instance : CommRing Symbol where
  add_assoc _ _ _ := Symbol.ext (UInt8.xor_assoc ..)
  zero_add _ := Symbol.ext UInt8.zero_xor
  add_zero _ := Symbol.ext UInt8.xor_zero
  add_comm _ _ := Symbol.ext (UInt8.xor_comm ..)
  neg_add_cancel _ := Symbol.ext UInt8.xor_self
  mul_assoc _ _ _ := Symbol.ext (times_assoc ..)
  mul_comm _ _ := Symbol.ext (times_comm ..)
  one_mul _ := Symbol.ext (one_times _)
  mul_one _ := Symbol.ext ((times_comm ..).trans (one_times _))
  zero_mul symbol := Symbol.ext (linear_times symbol.byte).zero
  mul_zero symbol :=
    Symbol.ext ((times_comm ..).trans (linear_times symbol.byte).zero)
  left_distrib factor left right := by
    apply Symbol.ext
    simp only [byte_mul, byte_add, times_comm factor.byte]
    exact (linear_times factor.byte).xor left.byte right.byte
  right_distrib left right factor :=
    Symbol.ext ((linear_times factor.byte).xor left.byte right.byte)
  nsmul := nsmulRec
  zsmul := zsmulRec

theorem byte_pow
    (symbol : Symbol)
    (exponent : Nat) :
    (symbol ^ exponent).byte = power reduction symbol.byte exponent := by
  induction exponent with
  | zero => rw [pow_zero]; rfl
  | succ exponent ih => rw [pow_succ', byte_mul, ih]; rfl

/-- The byte two, of which every byte other than zero is a power. -/
def two : Symbol :=
  ⟨2⟩

theorem byte_two_pow
    (exponent : Nat) :
    (two ^ exponent).byte = (double reduction)^[exponent] 1 := by
  induction exponent with
  | zero => rw [pow_zero]; rfl
  | succ exponent ih =>
      rw [pow_succ', byte_mul, Function.iterate_succ_apply', ← ih]
      have doubled := map_times linear_double 1 (two ^ exponent).byte
      rw [one_times] at doubled
      exact doubled.symm

theorem orderOf_two :
    orderOf two = 255 := by
  have power_ne : ∀ exponent, (double reduction)^[exponent] 1 ≠ 1 →
      two ^ exponent ≠ 1 := by
    intro exponent differs same
    rw [← byte_two_pow, same] at differs
    exact differs rfl
  refine orderOf_eq_of_pow_and_pow_div_prime (by decide) ?_ ?_
  · apply Symbol.ext
    rw [byte_two_pow]
    decide +kernel
  · intro factor prime divides
    have factors : factor ∣ 3 * 5 * 17 := divides
    rw [prime.dvd_mul, prime.dvd_mul,
      Nat.prime_dvd_prime_iff_eq prime Nat.prime_three,
      Nat.prime_dvd_prime_iff_eq prime Nat.prime_five,
      Nat.prime_dvd_prime_iff_eq prime (by norm_num)] at factors
    rcases factors with (rfl | rfl) | rfl <;>
      exact power_ne _ (by decide +kernel)

instance : Nontrivial Symbol :=
  ⟨0, 1, by decide⟩

/-- Bytes are the numbers below 256. -/
def finEquiv :
    Fin 256 ≃ Symbol where
  toFun index := ⟨UInt8.ofFin index⟩
  invFun symbol := symbol.byte.toFin

instance : Fintype Symbol :=
  Fintype.ofEquiv (Fin 256) finEquiv

/-- The 255 powers of two are all there is beside zero. -/
theorem exists_two_pow
    {symbol : Symbol}
    (nonzero : symbol ≠ 0) :
    ∃ exponent, two ^ exponent = symbol := by
  have unit : IsUnit two :=
    IsUnit.of_pow_eq_one (orderOf_two ▸ pow_orderOf_eq_one two) (by decide)
  have powers : (Finset.range 255).image (two ^ ·) = Finset.univ.erase 0 := by
    refine Finset.eq_of_subset_of_card_le ?_ ?_
    · intro power member
      rcases Finset.mem_image.mp member with ⟨exponent, -, rfl⟩
      exact Finset.mem_erase.mpr
        ⟨(unit.pow exponent).ne_zero, Finset.mem_univ _⟩
    · have bytes : Fintype.card Symbol = 256 :=
        (Fintype.card_congr finEquiv.symm).trans (Fintype.card_fin 256)
      have apart : Set.InjOn (two ^ ·) (Finset.range 255 : Set Nat) := by
        rw [Finset.coe_range, ← orderOf_two]
        exact pow_injOn_Iio_orderOf
      rw [Finset.card_image_of_injOn apart, Finset.card_range,
        Finset.card_erase_of_mem (Finset.mem_univ _), Finset.card_univ, bytes]
  have member : symbol ∈ (Finset.range 255).image (two ^ ·) := by
    rw [powers]
    exact Finset.mem_erase.mpr ⟨nonzero, Finset.mem_univ _⟩
  rcases Finset.mem_image.mp member with ⟨exponent, -, same⟩
  exact ⟨exponent, same⟩

theorem pow_255
    {symbol : Symbol}
    (nonzero : symbol ≠ 0) :
    symbol ^ 255 = 1 := by
  rcases exists_two_pow nonzero with ⟨exponent, rfl⟩
  rw [← pow_mul, mul_comm, pow_mul, ← orderOf_two, pow_orderOf_eq_one,
    one_pow]

theorem inv_eq_pow
    (symbol : Symbol) :
    symbol⁻¹ = symbol ^ 254 :=
  Symbol.ext (byte_pow symbol 254).symm

instance : Field Symbol where
  inv_zero := by rw [inv_eq_pow, zero_pow (by decide)]
  mul_inv_cancel symbol nonzero := by
    rw [inv_eq_pow, ← pow_succ', pow_255 nonzero]
  nnqsmul := _
  qsmul := _

end Symbol

end ReedSolomon
end Strata
