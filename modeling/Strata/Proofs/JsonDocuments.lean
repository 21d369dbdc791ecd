import Strata.Proofs.JsonTokens

/-!
# Documents in JSON

A value without faults and fractions is read back from its written form,
whatever the depth that it was written at and whatever stands behind it.
Reading and writing descend into a value in the same way, so that this is one
induction over the value, its items and its fields.
-/

namespace Strata.Json

/-! ## Values that can be read back -/

mutual

/-- Whether a value is whole: its numbers are integers of 64 bits, its arrays
and objects are closed, and all names of fields are there. -/
def IsWhole :
    Json → Prop
  | .null => True
  | .boolean _ => True
  | .integer value => -2 ^ 63 ≤ value ∧ value ≤ wordLimit
  | .real _ => False
  | .string _ => True
  | .array items closed => closed = true ∧ AllWhole items
  | .object fields closed => closed = true ∧ FieldsWhole fields
  | .valueless => False
  | .broken => False

/-- Whether all items are whole. -/
def AllWhole :
    List Json → Prop
  | [] => True
  | item :: items => IsWhole item ∧ AllWhole items

/-- Whether all fields are whole and have names. -/
def FieldsWhole :
    List (Option String × Json) → Prop
  | [] => True
  | (name, value) :: fields =>
    name.isSome = true ∧ IsWhole value ∧ FieldsWhole fields

end

/-! ## Blanks -/

theorem skipBlanks_of_not_blank
    {first : Char}
    {rest : List Char}
    (plain : isBlank first = false) :
    skipBlanks (first :: rest) = first :: rest :=
  List.dropWhile_cons_of_neg (by simp [plain])

theorem skipBlanks_newLine
    (depth : Nat)
    (text : List Char) :
    skipBlanks (newLine depth ++ text) = skipBlanks text := by
  have blank : ∀ character ∈ newLine depth, isBlank character = true := by
    intro character member
    rcases List.mem_cons.mp member with rfl | spaces
    · rfl
    · rw [List.eq_of_mem_replicate spaces]
      rfl
  exact List.dropWhile_append_of_pos blank

theorem readValue_newLine
    (fuel depth : Nat)
    (text : List Char) :
    readValue fuel (newLine depth ++ text) = readValue fuel text := by
  cases fuel with
  | zero => rfl
  | succ fuel => simp only [readValue, skipBlanks_newLine]

theorem readItems_newLine
    (fuel depth : Nat)
    (text : List Char) :
    readItems fuel (newLine depth ++ text) = readItems fuel text := by
  cases fuel with
  | zero => rfl
  | succ fuel => simp only [readItems, readValue_newLine]

theorem readFields_newLine
    (fuel depth : Nat)
    (text : List Char) :
    readFields fuel (newLine depth ++ text) = readFields fuel text := by
  cases fuel with
  | zero => rfl
  | succ fuel => simp only [readFields, skipBlanks_newLine]

/-! ## The first character of a value -/

theorem isBlank_of_number
    {first : Char}
    (number : first.isDigit = true ∨ first = '-') :
    isBlank first = false := by
  rcases number with digit | rfl
  · cases blank : isBlank first with
    | false => rfl
    | true =>
        simp only [isBlank, Bool.or_eq_true, beq_iff_eq] at blank
        rcases blank with ((rfl | rfl) | rfl) | rfl <;> cases digit
  · rfl

/-- A whole value does not begin with a blank, nor with the end of an
array. -/
theorem exists_first
    (depth : Nat)
    {value : Json}
    (whole : IsWhole value) :
    ∃ first more, written depth value = first :: more ∧
      isBlank first = false ∧ first ≠ ']' := by
  cases value with
  | null => exact ⟨_, _, rfl, rfl, by decide⟩
  | boolean value => cases value <;> exact ⟨_, _, rfl, rfl, by decide⟩
  | integer value =>
      rcases exists_first_toString value with ⟨first, more, shown, number⟩
      refine ⟨first, more, ?_, isBlank_of_number number, ?_⟩
      · rw [written, shown]
      · rintro rfl
        rcases number with digit | sign
        · cases digit
        · exact absurd sign (by decide)
  | real bits => exact whole.elim
  | string text => exact ⟨_, _, rfl, rfl, by decide⟩
  | array items closed => cases items <;> exact ⟨_, _, rfl, rfl, by decide⟩
  | object fields closed => cases fields <;> exact ⟨_, _, rfl, rfl, by decide⟩
  | valueless => exact whole.elim
  | broken => exact whole.elim

/-- What begins with a digit or a sign is read as a number. -/
theorem readValue_of_number
    (fuel : Nat)
    {first : Char}
    {text : List Char}
    (number : first.isDigit = true ∨ first = '-') :
    readValue (fuel + 1) (first :: text) =
      match number? (first :: text) with
      | some (value, rest) => (value, some rest)
      | none => (.broken, none) := by
  have other (letter : Char) (apart : letter.isDigit = false ∧ letter ≠ '-') :
      first ≠ letter := by
    rintro rfl
    rcases number with digit | sign
    · rw [apart.1] at digit
      cases digit
    · exact apart.2 sign
  rw [readValue, skipBlanks_of_not_blank (isBlank_of_number number)]
  split
  all_goals
    rename_i same
    try exact absurd (List.cons.inj same).1 (other _ (by decide))
  rfl

/-- What begins like an array with an item is read as one. -/
theorem readValue_of_items
    (fuel depth : Nat)
    {first : Char}
    {text rest : List Char}
    {items : List Json}
    (plain : isBlank first = false)
    (other : first ≠ ']')
    (read : readItems fuel (first :: text) = (items, some rest)) :
    readValue (fuel + 1) ('[' :: (newLine depth ++ first :: text)) =
      (.array items true, some rest) := by
  have bracket : isBlank '[' = false := rfl
  simp only [readValue, skipBlanks_of_not_blank bracket, skipBlanks_newLine,
    skipBlanks_of_not_blank plain]
  split
  · rename_i same
    exact absurd (List.cons.inj same).1 other
  · rw [read]
    rfl

/-- What begins like an object with a field is read as one. -/
theorem readValue_of_fields
    (fuel depth : Nat)
    {text rest : List Char}
    {fields : List (Option String × Json)}
    (read : readFields fuel ('"' :: text) = (fields, some rest)) :
    readValue (fuel + 1) ('\x7b' :: (newLine depth ++ '"' :: text)) =
      (.object fields true, some rest) := by
  have brace : isBlank '\x7b' = false := rfl
  have quote : isBlank '"' = false := rfl
  simp only [readValue, skipBlanks_of_not_blank brace, skipBlanks_newLine,
    skipBlanks_of_not_blank quote]
  split
  · rename_i same
    exact absurd (List.cons.inj same).1 (by decide)
  · rw [read]
    rfl

/-! ## Reading back -/

/-- The written items of an array that is not empty. -/
def writtenRow
    (depth : Nat) :
    List Json → List Char
  | [] => []
  | item :: items => written depth item ++ writtenItems depth items

/-- The written fields of an object that is not empty. -/
def writtenTable
    (depth : Nat) :
    List (Option String × Json) → List Char
  | [] => []
  | (name, value) :: fields =>
    writtenText (name.getD "") ++
      (':' :: ' ' :: (written depth value ++ writtenFields depth fields))

theorem endsNumber_newLine
    (depth : Nat)
    (rest : List Char) :
    EndsNumber (newLine depth ++ rest) := by
  rintro next first
  obtain rfl := Option.some.inj first
  decide

theorem endsNumber_comma
    (rest : List Char) :
    EndsNumber (',' :: rest) := by
  rintro next first
  obtain rfl := Option.some.inj first
  decide

mutual

/-- A whole value is read back from its written form. -/
theorem readValue_written
    (depth : Nat) :
    (value : Json) → IsWhole value → ∀ {rest : List Char} {fuel : Nat},
      EndsNumber rest → (written depth value).length ≤ fuel →
        readValue fuel (written depth value ++ rest) = (value, some rest)
  | .null, _, rest, fuel, _, enough => by
      cases fuel with
      | zero => cases enough
      | succ fuel => rfl
  | .boolean value, _, rest, fuel, _, enough => by
      cases fuel with
      | zero => cases value <;> cases enough
      | succ fuel => cases value <;> rfl
  | .integer value, whole, rest, fuel, ends, enough => by
      rcases exists_first_toString value with ⟨first, more, shown, number⟩
      rw [written, shown] at enough
      cases fuel with
      | zero => cases enough
      | succ fuel =>
          rw [written, shown, List.cons_append, readValue_of_number fuel number,
            ← List.cons_append, ← shown, number?_written whole.1 whole.2 ends]
  | .string text, _, rest, fuel, _, enough => by
      cases fuel with
      | zero => cases enough
      | succ fuel =>
          rw [written, writtenText, List.cons_append, List.cons_append,
            List.append_assoc]
          exact readText_written text rest
  | .array items closed, whole, rest, fuel, _, enough => by
      rcases whole with ⟨rfl, whole⟩
      cases items with
      | nil =>
          cases fuel with
          | zero => cases enough
          | succ fuel => rfl
      | cons item items =>
          have row : written depth (.array (item :: items) true) =
              '[' :: (newLine (depth + 1) ++ (writtenRow (depth + 1)
                (item :: items) ++ (newLine depth ++ [']']))) := by
            simp [written, writtenRow]
          rw [row] at enough
          cases fuel with
          | zero => cases enough
          | succ fuel =>
              have read := readItems_written (depth + 1) (item :: items)
                (List.cons_ne_nil _ _) whole depth fuel rest
                (by simp at enough ⊢; omega)
              rcases exists_first (depth + 1) whole.1 with
                ⟨first, more, begins, plain, other⟩
              simp only [row, writtenRow, begins, List.cons_append,
                List.append_assoc] at read ⊢
              exact readValue_of_items fuel (depth + 1) plain other read
  | .object fields closed, whole, rest, fuel, _, enough => by
      rcases whole with ⟨rfl, whole⟩
      rcases fields with _ | ⟨⟨name, value⟩, fields⟩
      · cases fuel with
        | zero => cases enough
        | succ fuel => rfl
      · have table : written depth (.object ((name, value) :: fields) true) =
            '\x7b' :: (newLine (depth + 1) ++ (writtenTable (depth + 1)
              ((name, value) :: fields) ++ (newLine depth ++ ['\x7d']))) := by
          simp [written, writtenTable]
        rw [table] at enough
        cases fuel with
        | zero => cases enough
        | succ fuel =>
            have read := readFields_written (depth + 1) ((name, value) :: fields)
              (List.cons_ne_nil _ _) whole depth fuel rest
              (by simp at enough ⊢; omega)
            simp only [table, writtenTable, writtenText, List.cons_append,
              List.append_assoc] at read ⊢
            exact readValue_of_fields fuel (depth + 1) read

/-- The items of an array are read back up to its end. -/
theorem readItems_written
    (depth : Nat) :
    (items : List Json) → items ≠ [] → AllWhole items →
      ∀ (outer fuel : Nat) (rest : List Char),
        (writtenRow depth items).length < fuel →
          readItems fuel
              (writtenRow depth items ++ (newLine outer ++ ']' :: rest)) =
            (items, some rest)
  | [], nonempty, _, _, _, _, _ => absurd rfl nonempty
  | item :: items, _, whole, outer, fuel, rest, enough => by
      cases fuel with
      | zero => cases enough
      | succ fuel =>
          have fits : (written depth item).length ≤ fuel := by
            simp [writtenRow] at enough
            omega
          rw [readItems, writtenRow, List.append_assoc]
          cases items with
          | nil =>
              rw [writtenItems, List.nil_append, readValue_written depth item
                whole.1 (endsNumber_newLine outer _) fits]
              simp only [skipBlanks_newLine]
              rfl
          | cons next more =>
              have row : writtenItems depth (next :: more) =
                  ',' :: (newLine depth ++ writtenRow depth (next :: more)) := by
                simp [writtenItems, writtenRow]
              have comma : isBlank ',' = false := rfl
              have read := readItems_written depth (next :: more)
                (List.cons_ne_nil _ _) whole.2 outer fuel rest
                (by simp [writtenRow, writtenItems] at enough ⊢; omega)
              rw [row, List.cons_append, readValue_written depth item whole.1
                (endsNumber_comma _) fits]
              simp only [skipBlanks_of_not_blank comma, List.append_assoc, readItems_newLine, read]

/-- The fields of an object are read back up to its end. -/
theorem readFields_written
    (depth : Nat) :
    (fields : List (Option String × Json)) → fields ≠ [] →
      FieldsWhole fields → ∀ (outer fuel : Nat) (rest : List Char),
        (writtenTable depth fields).length < fuel →
          readFields fuel
              (writtenTable depth fields ++ (newLine outer ++ '\x7d' :: rest)) =
            (fields, some rest)
  | [], nonempty, _, _, _, _, _ => absurd rfl nonempty
  | (none, value) :: fields, _, whole, _, _, _, _ => by
      cases whole.1
  | (some name, value) :: fields, _, whole, outer, fuel, rest, enough => by
      cases fuel with
      | zero => cases enough
      | succ fuel =>
          have fits : (written depth value).length ≤ fuel := by
            simp [writtenTable] at enough
            omega
          have spaced (text : List Char) :
              readValue fuel (' ' :: text) = readValue fuel text := by
            cases fuel <;> rfl
          have quote : isBlank '"' = false := rfl
          have colon : isBlank ':' = false := rfl
          have comma : isBlank ',' = false := rfl
          simp only [writtenTable, writtenText, Option.getD_some,
            List.cons_append, List.append_assoc, List.nil_append, readFields,
            skipBlanks_of_not_blank quote, readText_written,
            skipBlanks_of_not_blank colon, spaced]
          cases fields with
          | nil =>
              rw [writtenFields, List.nil_append, readValue_written depth value
                whole.2.1 (endsNumber_newLine outer _) fits]
              simp only [skipBlanks_newLine]
              rfl
          | cons next more =>
              rcases next with ⟨other, second⟩
              have row : writtenFields depth ((other, second) :: more) =
                  ',' :: (newLine depth ++
                    writtenTable depth ((other, second) :: more)) := by
                simp [writtenFields, writtenTable]
              have read := readFields_written depth ((other, second) :: more)
                (List.cons_ne_nil _ _) whole.2.2 outer fuel rest
                (by simp [writtenTable, writtenFields] at enough ⊢; omega)
              rw [row, List.cons_append, readValue_written depth value
                whole.2.1 (endsNumber_comma _) fits]
              simp only [skipBlanks_of_not_blank comma, List.append_assoc,
                readFields_newLine, read, name?]

end

/-- A document is read back, and nothing is left of its text. -/
theorem read_write
    {value : Json}
    (whole : IsWhole value) :
    read value.write = (value, true) := by
  have characters : value.write.toList = written 0 value :=
    String.toList_ofList
  have enough : (written 0 value).length ≤ readingFuel (written 0 value) := by
    rw [readingFuel]
    omega
  have found := readValue_written 0 value whole endsNumber_nil enough
  rw [List.append_nil] at found
  simp only [read, characters, found]
  rfl

end Strata.Json
