/-!
# Tables

A table gives values to finitely many keys.  It is a list of entries with at
most one entry for each key; entries that were added last are found first.
The lemmas say what a table gives for a key after each operation, and nothing
else about a table is ever needed.
-/

namespace Strata

/-- Values for finitely many keys. -/
abbrev Table
    (κ α : Type) :=
  List (κ × α)

namespace Table

variable {κ α : Type} [DecidableEq κ]

/-- The value of a key. -/
def find?
    (key : κ) :
    Table κ α → Option α
  | [] => none
  | (other, value) :: rest =>
    if other = key then some value else find? key rest

/-- Whether a key has a value. -/
def holds
    (key : κ)
    (table : Table κ α) :
    Bool :=
  (find? key table).isSome

/-- Gives another value to a key that has one. -/
def replace
    (key : κ)
    (value : α) :
    Table κ α → Table κ α
  | [] => []
  | (other, old) :: rest =>
    if other = key then
      (key, value) :: rest
    else
      (other, old) :: replace key value rest

/-- Gives a value to a key. -/
def set
    (key : κ)
    (value : α)
    (table : Table κ α) :
    Table κ α :=
  if holds key table then
    replace key value table
  else
    (key, value) :: table

/-- Keeps the entries whose keys satisfy a test. -/
def keep
    (test : κ → Bool)
    (table : Table κ α) :
    Table κ α :=
  table.filter fun entry => test entry.1

/-- Takes the value of a key away. -/
def erase
    (key : κ)
    (table : Table κ α) :
    Table κ α :=
  keep (fun other => !decide (other = key)) table

@[simp]
theorem find?_nil
    (key : κ) :
    find? key ([] : Table κ α) = none :=
  rfl

theorem find?_replace
    (key other : κ)
    (value : α)
    (table : Table κ α) :
    find? other (replace key value table) =
      if key = other ∧ holds key table then
        some value
      else
        find? other table := by
  induction table with
  | nil => simp [replace, holds]
  | cons entry rest ih =>
    obtain ⟨first, old⟩ := entry
    simp only [replace, holds] at ih ⊢
    by_cases same : first = key
    · subst same
      by_cases wanted : first = other <;> simp [find?, wanted]
    · by_cases wanted : first = other
      · subst wanted
        simp [find?, same, Ne.symm same]
      · simp only [find?, same, wanted, if_false, ih]
        congr

@[simp]
theorem find?_set
    (key other : κ)
    (value : α)
    (table : Table κ α) :
    find? other (set key value table) =
      if key = other then some value else find? other table := by
  unfold set
  split
  · rename_i held
    simp [find?_replace, held]
  · simp [find?]

@[simp]
theorem find?_keep
    (test : κ → Bool)
    (key : κ)
    (table : Table κ α) :
    find? key (keep test table) =
      if test key then find? key table else none := by
  induction table with
  | nil => simp [keep]
  | cons entry rest ih =>
    obtain ⟨first, value⟩ := entry
    simp only [keep] at ih ⊢
    by_cases kept : test first <;> by_cases same : first = key
    · subst same
      simp [find?, kept]
    · simp [find?, kept, same, ih]
    · subst same
      simp [kept, ih]
    · simp [find?, kept, same, ih]

@[simp]
theorem find?_erase
    (key other : κ)
    (table : Table κ α) :
    find? other (erase key table) =
      if key = other then none else find? other table := by
  simp only [erase, find?_keep]
  by_cases same : key = other
  · simp [same]
  · simp [same, Ne.symm same]

end Table

end Strata
