import Mathlib.Data.List.Basic
import Mathlib.Tactic.IntervalCases
import Strata.Json.Reading
import Strata.Json.Writing

/-!
# Numbers and texts in JSON

A number that was written is read back as the same number, as long as it fits
into 64 bits and nothing that could go on with it stands behind it.  A text
that was written is read back character by character: each character is
written as itself or as one escape, and reading takes either as one step.
-/

namespace Strata.Json

/-! ## Digits -/

theorem le_ofDigitChars
    (digits : List Char)
    (number : Nat) :
    number ≤ Nat.ofDigitChars 10 digits number := by
  induction digits generalizing number with
  | nil => exact Nat.le_refl number
  | cons digit rest ih =>
      calc
        number ≤ 10 * number + (digit.toNat - '0'.toNat) := by omega
        _ ≤ Nat.ofDigitChars 10 (digit :: rest) number := ih _

/-- Digits that stand for a number of 64 bits are all taken. -/
theorem absorb_of_fits
    {digits : List Char}
    {number : Nat}
    (fits : Nat.ofDigitChars 10 digits number ≤ wordLimit) :
    absorb number digits = (Nat.ofDigitChars 10 digits number, 0) := by
  induction digits generalizing number with
  | nil => rfl
  | cons digit rest ih =>
      have next : number * 10 + digitValue digit =
          10 * number + (digit.toNat - '0'.toNat) := by
        rw [digitValue, Nat.mul_comm]
      have step : number * 10 + digitValue digit ≤ wordLimit := by
        rw [next]
        exact Nat.le_trans (le_ofDigitChars rest _) fits
      rw [absorb, if_pos step, next]
      exact ih fits

/-- The digits of a number begin with a zero for zero only. -/
theorem head?_toDigits
    {number : Nat}
    (positive : 0 < number) :
    (Nat.toDigits 10 number).head? ≠ some '0' := by
  induction number using Nat.strongRecOn with
  | ind number ih =>
      rcases Nat.lt_or_ge number 10 with small | large
      · rw [Nat.toDigits_of_lt_base small]
        interval_cases number <;> decide
      · rw [Nat.toDigits_of_base_le (by decide) large,
          List.head?_append_of_ne_nil _ Nat.toDigits_ne_nil]
        exact ih (number / 10) (by omega) (by omega)

/-- What stands behind a number does not go on with it. -/
def EndsNumber
    (rest : List Char) :
    Prop :=
  ∀ next ∈ rest.head?,
    next.isDigit = false ∧ next ≠ '.' ∧ next ≠ 'e' ∧ next ≠ 'E'

theorem endsNumber_nil :
    EndsNumber [] :=
  fun _ none => nomatch none

theorem spanDigits_append
    {digits rest : List Char}
    (all : ∀ digit ∈ digits, digit.isDigit = true)
    (ends : EndsNumber rest) :
    spanDigits (digits ++ rest) = (digits, rest) := by
  have stops : rest.takeWhile Char.isDigit = [] ∧
      rest.dropWhile Char.isDigit = rest := by
    cases rest with
    | nil => exact ⟨rfl, rfl⟩
    | cons next rest =>
        have other := (ends next rfl).1
        exact ⟨List.takeWhile_cons_of_neg (by simp [other]),
          List.dropWhile_cons_of_neg (by simp [other])⟩
  rw [spanDigits, List.takeWhile_append_of_pos all,
    List.dropWhile_append_of_pos all, stops.1, stops.2, List.append_nil]

theorem fractionPart?_of_ends
    {rest : List Char}
    (ends : EndsNumber rest) :
    fractionPart? rest = some (none, rest) := by
  cases rest with
  | nil => rfl
  | cons next rest =>
      have other := (ends next rfl).2.1
      unfold fractionPart?
      split
      · rename_i same
        exact absurd (List.cons.inj same).1 other
      · rfl

theorem exponentPart?_of_ends
    {rest : List Char}
    (ends : EndsNumber rest) :
    exponentPart? rest = some (none, rest) := by
  cases rest with
  | nil => rfl
  | cons next rest =>
      have others := (ends next rfl).2.2
      simp only [exponentPart?, others.1, others.2, or_self, if_false]

/-! ## Numbers -/

/-- The sign and the digits of a number are all of it. -/
theorem number?_signed
    (negative : Bool)
    (number : Nat)
    {rest : List Char}
    (ends : EndsNumber rest) :
    number? ((if negative then ['-'] else []) ++
        (Nat.toDigits 10 number ++ rest)) =
      some ((Parts.mk negative (Nat.toDigits 10 number) none none).toJson,
        rest) := by
  have digits : ∀ digit ∈ Nat.toDigits 10 number, digit.isDigit = true :=
    fun digit member =>
      Nat.isDigit_of_mem_toDigits (by decide) (by decide) member
  have span := spanDigits_append digits ends
  have leading : (Nat.toDigits 10 number).head? = some '0' →
      (Nat.toDigits 10 number).length ≤ 1 := by
    intro zero
    have none : number = 0 := by
      by_contra some
      exact head?_toDigits (Nat.pos_of_ne_zero some) zero
    rw [none]
    exact Nat.le_refl 1
  cases negative with
  | true =>
      simpa [number?, span, fractionPart?_of_ends ends,
        exponentPart?_of_ends ends] using leading
  | false =>
      have unsigned : ∀ others,
          Nat.toDigits 10 number ++ rest ≠ '-' :: others := by
        intro others same
        cases first : Nat.toDigits 10 number with
        | nil => exact Nat.toDigits_ne_nil first
        | cons digit more =>
            have plain := digits digit (first ▸ List.mem_cons_self)
            rw [first, List.cons_append] at same
            rw [(List.cons.inj same).1] at plain
            cases plain
      simpa [number?, span, fractionPart?_of_ends ends,
        exponentPart?_of_ends ends] using leading

/-- A number is written as its digits. -/
theorem toList_toString_nat
    (number : Nat) :
    (toString number).toList = Nat.toDigits 10 number := by
  rw [Nat.toString_eq_ofList_toDigits, String.toList_ofList]

/-- A negative number is written as its digits with a sign. -/
theorem toList_toString_negSucc
    (number : Nat) :
    (toString (Int.negSucc number)).toList =
      '-' :: Nat.toDigits 10 (number + 1) := by
  have shown :
      toString (Int.negSucc number) = "-" ++ toString (number + 1) :=
    rfl
  rw [shown, String.toList_append, toList_toString_nat]
  rfl

/-- A number of 64 bits is read back. -/
theorem number?_written
    {value : Int}
    {rest : List Char}
    (low : -2 ^ 63 ≤ value)
    (high : value ≤ wordLimit)
    (ends : EndsNumber rest) :
    number? ((toString value).toList ++ rest) =
      some (.integer value, rest) := by
  have absorbed {number : Nat} (fits : number ≤ wordLimit) :
      absorb 0 (Nat.toDigits 10 number) = (number, 0) := by
    have same := @Nat.ofDigitChars_ten_toDigits number
    rw [absorb_of_fits (by rwa [same]), same]
  cases value with
  | ofNat number =>
      have fits : number ≤ wordLimit := Int.ofNat_le.mp high
      have shown : (toString (Int.ofNat number)).toList =
          Nat.toDigits 10 number :=
        toList_toString_nat number
      rw [shown]
      refine (number?_signed false number ends).trans ?_
      simp only [Parts.toJson, absorbed fits]
      rfl
  | negSucc number =>
      have fits : number + 1 ≤ Nat.pow 2 63 := by
        rw [Int.negSucc_eq] at low
        have power : Nat.pow 2 63 = 9223372036854775808 := by norm_num
        omega
      have most : number + 1 ≤ wordLimit :=
        Nat.le_trans fits (by rw [wordLimit]; norm_num)
      rw [toList_toString_negSucc]
      refine (number?_signed true (number + 1) ends).trans ?_
      simp only [Parts.toJson, absorbed most, Bool.not_true,
        Bool.false_eq_true, if_false, Nat.add_one_ne_zero, false_or,
        if_neg (Nat.not_lt.mpr fits)]
      rfl

/-- A number begins with a digit or a sign. -/
theorem exists_first_toString
    (value : Int) :
    ∃ first more, (toString value).toList = first :: more ∧
      (first.isDigit = true ∨ first = '-') := by
  cases value with
  | ofNat number =>
      have shown : (toString (Int.ofNat number)).toList =
          Nat.toDigits 10 number :=
        toList_toString_nat number
      rw [shown]
      cases digits : Nat.toDigits 10 number with
      | nil => exact absurd digits Nat.toDigits_ne_nil
      | cons first more =>
          have member : first ∈ Nat.toDigits 10 number :=
            digits ▸ List.mem_cons_self
          exact ⟨first, more, rfl, .inl
            (Nat.isDigit_of_mem_toDigits (by decide) (by decide) member)⟩
  | negSucc number => exact ⟨_, _, toList_toString_negSucc number, .inr rfl⟩

/-! ## Texts -/

/-- The characters that were read, the last one first, and no escape that
waits for its second half. -/
def collectedFrom
    (characters : List Char) :
    Collected :=
  { characters }

theorem hexValue?_digitChar
    {digit : Nat}
    (single : digit < 16) :
    hexValue? (Nat.digitChar digit) = some digit := by
  interval_cases digit <;> decide

/-- An escaped control character is one. -/
theorem pushUnit_control
    (characters : List Char)
    {character : Char}
    (control : character < ' ') :
    (collectedFrom characters).pushUnit character.toNat =
      collectedFrom (character :: characters) := by
  have small : character.toNat < 32 := control
  have high : ¬(0xd800 ≤ character.toNat ∧ character.toNat ≤ 0xdbff) := by
    omega
  have low : ¬(0xdc00 ≤ character.toNat ∧ character.toNat ≤ 0xdfff) := by
    omega
  simp only [Collected.pushUnit, collectedFrom, if_neg high, if_neg low,
    Char.ofNat_toNat]
  rfl

/-- A character that stands for itself is taken as it is. -/
theorem readText_plain
    (collected : Collected)
    {character : Char}
    (rest : List Char)
    (quote : character ≠ '"')
    (backslash : character ≠ '\\')
    (control : ¬character < ' ') :
    readText collected (character :: rest) =
      readText (collected.push character) rest := by
  rw [readText]
  · exact if_neg control
  · exact quote
  · rintro _ _ _ _ _ rfl
    exact absurd rfl backslash
  · rintro _ _ rfl
    exact absurd rfl backslash

/-- A control character is read back from its number. -/
theorem readText_control
    (characters : List Char)
    {character : Char}
    (rest : List Char)
    (control : character < ' ') :
    readText (collectedFrom characters)
        ('\\' :: 'u' :: '0' :: '0' :: Nat.digitChar (character.toNat / 16) ::
          Nat.digitChar (character.toNat % 16) :: rest) =
      readText (collectedFrom (character :: characters)) rest := by
  have small : character.toNat < 32 := control
  have zero : hexValue? '0' = some 0 := rfl
  have upper := @hexValue?_digitChar (character.toNat / 16) (by omega)
  have lower := @hexValue?_digitChar (character.toNat % 16) (by omega)
  have value : unit? '0' '0' (Nat.digitChar (character.toNat / 16))
      (Nat.digitChar (character.toNat % 16)) = some character.toNat := by
    simp only [unit?, zero, upper, lower, Option.pure_def,
      Option.bind_eq_bind, Option.bind_some, Option.some.injEq]
    omega
  simp only [readText, value, pushUnit_control characters control]

/-- A character is read back from what it was written as. -/
theorem readText_escaped
    (characters : List Char)
    (character : Char)
    (rest : List Char) :
    readText (collectedFrom characters) (escapedInText character ++ rest) =
      readText (collectedFrom (character :: characters)) rest := by
  by_cases named :
      character ∈ ['"', '\\', '\x08', '\x0c', '\n', '\r', '\t']
  · simp only [List.mem_cons, List.not_mem_nil, or_false] at named
    rcases named with rfl | rfl | rfl | rfl | rfl | rfl | rfl <;> rfl
  · simp only [List.mem_cons, List.not_mem_nil, or_false, not_or] at named
    rcases named with
      ⟨quote, backslash, backspace, feed, newline, carriage, tab⟩
    simp only [escapedInText, quote, backslash, backspace, feed, newline,
      carriage, tab, or_self, if_false]
    split
    case isTrue control => exact readText_control characters rest control
    case isFalse control =>
      exact readText_plain _ rest quote backslash control

theorem readText_flatMap
    (characters text rest : List Char) :
    readText (collectedFrom characters)
        (text.flatMap escapedInText ++ '"' :: rest) =
      (.string (String.ofList (characters.reverse ++ text)), some rest) := by
  induction text generalizing characters with
  | nil =>
      rw [List.flatMap_nil, List.nil_append, readText, List.append_nil]
      rfl
  | cons character text ih =>
      rw [List.flatMap_cons, List.append_assoc, readText_escaped, ih,
        List.reverse_cons, List.append_assoc]
      rfl

/-- A text that was written is read back. -/
theorem readText_written
    (text : String)
    (rest : List Char) :
    readText {} (text.toList.flatMap escapedInText ++ '"' :: rest) =
      (.string text, some rest) := by
  have read := readText_flatMap [] text.toList rest
  rwa [List.reverse_nil, List.nil_append, String.ofList_toList] at read

end Strata.Json
