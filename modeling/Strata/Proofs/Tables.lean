import Mathlib.Data.List.Nodup
import Strata.Table

/-!
# Keys of tables

A table that is built by giving values and taking them away has at most one
entry for each key, so an entry that is in the table is the one that is found.
This matters where a table is walked instead of being asked.
-/

namespace Strata.Table

variable {κ α : Type}

/-- Whether there is at most one entry for each key. -/
def Unique
    (table : Table κ α) :
    Prop :=
  (table.map Prod.fst).Nodup

@[simp]
theorem unique_nil :
    Unique ([] : Table κ α) :=
  List.nodup_nil

theorem Unique.keep
    {table : Table κ α}
    (unique : Unique table)
    (test : κ → Bool) :
    Unique (table.keep test) :=
  unique.sublist (List.filter_sublist.map Prod.fst)

variable [DecidableEq κ]

theorem find?_eq_none_iff
    (key : κ)
    (table : Table κ α) :
    find? key table = none ↔ key ∉ table.map Prod.fst := by
  induction table with
  | nil => simp
  | cons entry rest ih =>
      rcases entry with ⟨first, value⟩
      by_cases same : first = key
      · simp [find?, same]
      · simp only [find?, same, if_false, ih, List.map_cons, List.mem_cons,
          Ne.symm same, false_or]

theorem find?_append
    (key : κ)
    (first second : Table κ α) :
    find? key (first ++ second) =
      (find? key first).or (find? key second) := by
  induction first with
  | nil => rfl
  | cons entry rest ih =>
      rcases entry with ⟨other, value⟩
      by_cases same : other = key
      · simp [find?, same]
      · simp [find?, same, ih]

/-- What is found is in the table. -/
theorem mem_of_find?
    {key : κ}
    {value : α}
    {table : Table κ α}
    (found : find? key table = some value) :
    (key, value) ∈ table := by
  induction table with
  | nil => cases found
  | cons entry rest ih =>
      rcases entry with ⟨first, old⟩
      unfold find? at found
      split at found
      · rename_i same
        cases found
        rw [same]
        exact List.mem_cons_self
      · exact List.mem_cons_of_mem _ (ih found)

theorem mem_of_mem_replace
    {key : κ}
    {value : α}
    {table : Table κ α}
    {entry : κ × α}
    (member : entry ∈ replace key value table) :
    entry = (key, value) ∨ entry ∈ table := by
  induction table with
  | nil => cases member
  | cons head rest ih =>
      rcases head with ⟨first, old⟩
      unfold replace at member
      split at member
      · cases List.mem_cons.mp member with
        | inl same => exact .inl same
        | inr later => exact .inr (List.mem_cons_of_mem _ later)
      · cases List.mem_cons.mp member with
        | inl same => exact .inr (same ▸ List.mem_cons_self)
        | inr later => exact (ih later).imp_right (List.mem_cons_of_mem _)

/-- An entry is the one that was given last or was there before. -/
theorem mem_of_mem_set
    {key : κ}
    {value : α}
    {table : Table κ α}
    {entry : κ × α}
    (member : entry ∈ table.set key value) :
    entry = (key, value) ∨ entry ∈ table := by
  unfold set at member
  split at member
  · exact mem_of_mem_replace member
  · exact List.mem_cons.mp member

theorem mem_of_mem_erase
    {key : κ}
    {table : Table κ α}
    {entry : κ × α}
    (member : entry ∈ table.erase key) :
    entry ∈ table :=
  (List.mem_filter.mp member).1

/-- An entry is found if it is the only one with its key. -/
theorem Unique.find?_of_mem
    {key : κ}
    {value : α}
    {table : Table κ α}
    (unique : Unique table)
    (member : (key, value) ∈ table) :
    find? key table = some value := by
  induction table with
  | nil => cases member
  | cons entry rest ih =>
      rcases entry with ⟨first, old⟩
      rcases List.nodup_cons.mp unique with ⟨fresh, others⟩
      cases List.mem_cons.mp member with
      | inl same =>
          cases same
          simp [find?]
      | inr later =>
          have differs : first ≠ key := by
            intro same
            exact fresh (List.mem_map.mpr ⟨(key, value), later, same.symm⟩)
          rw [find?, if_neg differs]
          exact ih others later

theorem Unique.find?_eq_some_iff
    {key : κ}
    {value : α}
    {table : Table κ α}
    (unique : Unique table) :
    find? key table = some value ↔ (key, value) ∈ table :=
  ⟨mem_of_find?, unique.find?_of_mem⟩

/-- Without the value of a key there is what there is beside it. -/
theorem perm_erase
    {key : κ}
    {value : α}
    {table others : Table κ α}
    (split : table.Perm ((key, value) :: others))
    (unique : Unique table) :
    (table.erase key).Perm others := by
  have apart := (List.nodup_cons.mp
    ((split.map Prod.fst).nodup_iff.mp unique)).1
  have stay : others.filter (fun entry => !decide (entry.1 = key)) =
      others := by
    rw [List.filter_eq_self]
    intro entry member
    have differs : entry.1 ≠ key := fun same =>
      apart (List.mem_map.mpr ⟨entry, member, same⟩)
    simpa using differs
  have kept := split.filter fun entry => !decide (entry.1 = key)
  rw [List.filter_cons_of_neg (by simp), stay] at kept
  exact kept

theorem set_of_absent
    {key : κ}
    {value : α}
    {table : Table κ α}
    (absent : key ∉ table.map Prod.fst) :
    table.set key value = (key, value) :: table := by
  rw [← find?_eq_none_iff] at absent
  rw [set, holds, absent]
  rfl

theorem map_fst_replace
    (key : κ)
    (value : α)
    (table : Table κ α) :
    (replace key value table).map Prod.fst = table.map Prod.fst := by
  induction table with
  | nil => rfl
  | cons entry rest ih =>
      rcases entry with ⟨first, old⟩
      by_cases same : first = key
      · simp [replace, same]
      · simp [replace, same, ih]

theorem Unique.set
    {table : Table κ α}
    (unique : Unique table)
    (key : κ)
    (value : α) :
    Unique (table.set key value) := by
  unfold Table.set
  split
  · unfold Unique
    rw [map_fst_replace]
    exact unique
  · rename_i absent
    have fresh : key ∉ table.map Prod.fst := by
      rw [← find?_eq_none_iff]
      simpa [holds] using absent
    exact List.nodup_cons.mpr ⟨fresh, unique⟩

end Strata.Table
