import Mathlib.Logic.Relation
import Strata.Proofs.Naming

/-!
# Orphaned identities

Whoever is told that an identity has lost its last name drops all that is
recorded for it, so no such report may be wrong.  An identity that was given
out and that no path names is retired: no call gives it to a path again, and
so no call answers it.  A report is right because each path has at most one
identity, and whatever is in the table is found there.
-/

namespace Strata

/-- What may be asked of identities. -/
inductive IdentityCall where
  | identify (path : String)
  | lookup (path : String)
  | forget (path : String)
  | rename (source target : String)
  | renameTree (source target : String)
  | addName (existing added : String)
  deriving DecidableEq, Repr

namespace Identities

variable
  {identities before after : Identities}
  {path source target : String}
  {call : IdentityCall}
  {answer : Option FileId}
  {id : FileId}

/-- A call, what it answers, and the identities that it leaves.  The names
below a directory are moved in any order. -/
inductive Step
    (identities : Identities) :
    IdentityCall → Option FileId → Identities → Prop where
  | identify
      (path : String) :
      Step identities (.identify path) (some (identities.identify path).1)
        (identities.identify path).2
  | lookup
      (path : String) :
      Step identities (.lookup path) (identities.lookup path) identities
  | forget
      (path : String) :
      Step identities (.forget path) (identities.forget path).1
        (identities.forget path).2
  | rename
      (source target : String) :
      Step identities (.rename source target)
        (identities.rename source target).1
        (identities.rename source target).2
  | renameTree
      (source target : String)
      (order : Table String FileId)
      (all : order.Perm identities.names) :
      Step identities (.renameTree source target) none
        (identities.renamedTree source target order)
  | addName
      (existing added : String) :
      Step identities (.addName existing added)
        (identities.addName existing added).1
        (identities.addName existing added).2

/-- Moving the names in the order of the table is one of the ways. -/
theorem Step.renameTree_names
    (identities : Identities)
    (source target : String) :
    identities.Step (.renameTree source target) none
      (identities.renameTree source target) :=
  .renameTree source target identities.names (.refl _)

/-- What any number of calls make of identities. -/
def Run :
    Identities → Identities → Prop :=
  Relation.ReflTransGen fun before after =>
    ∃ call answer, before.Step call answer after

/-- Whether a path names an identity. -/
def Named
    (identities : Identities)
    (id : FileId) :
    Prop :=
  ∃ path, identities.lookup path = some id

/-! ## What one call leaves -/

/-- After a call a path has an identity that a path had before, or the one
that was to be given out next. -/
theorem Step.exists_or_next
    (step : before.Step call answer after)
    {entry : String × FileId}
    (member : entry ∈ after.names) :
    (∃ old ∈ before.names, old.2 = entry.2) ∨
      entry.2 = before.next ∧ after.next = before.next + 1 := by
  cases step with
  | identify path =>
      unfold Identities.identify at member ⊢
      split at member
      · exact .inl ⟨entry, member, rfl⟩
      · rcases Table.mem_of_mem_set member with rfl | old
        · exact .inr ⟨rfl, rfl⟩
        · exact .inl ⟨entry, old, rfl⟩
  | lookup path => exact .inl ⟨entry, member, rfl⟩
  | forget path => exact .inl (before.inherits_forget path entry member)
  | rename source target =>
      exact .inl (before.inherits_rename source target entry member)
  | renameTree source target order all =>
      rcases exists_of_mem_moveNames member with ⟨old, among, same⟩
      refine .inl ⟨old, ?_, same⟩
      exact (List.mem_append.mp among).elim all.mem_iff.mp id
  | addName existing added =>
      exact .inl (before.inherits_addName existing added entry member)

theorem Step.next_le
    (step : before.Step call answer after) :
    before.next ≤ after.next := by
  cases step with
  | identify path => exact before.next_le_identify path
  | lookup path => exact Nat.le_refl _
  | forget path => exact (before.forget_next path).ge
  | rename source target => exact (before.rename_next source target).ge
  | renameTree source target order all => exact Nat.le_refl _
  | addName existing added => exact (before.addName_next existing added).ge

theorem Step.issued
    (step : before.Step call answer after)
    (issued : before.Issued) :
    after.Issued := by
  intro entry member
  rcases step.exists_or_next member with ⟨old, among, same⟩ | ⟨new, grown⟩
  · exact same ▸ Nat.lt_of_lt_of_le (issued old among) step.next_le
  · rw [new, grown]
    exact Nat.lt_succ_self _

theorem unique_moveNames
    {below above : List Char}
    {order names : Table String FileId}
    (unique : names.Unique) :
    (order.foldl (moveName below above) names).Unique := by
  induction order generalizing names with
  | nil => exact unique
  | cons first rest ih =>
      refine ih ?_
      unfold moveName
      split
      · exact unique
      · exact (unique.keep _).set _ _

theorem Step.unique
    (step : before.Step call answer after)
    (unique : before.names.Unique) :
    after.names.Unique := by
  cases step with
  | identify path =>
      unfold Identities.identify
      split
      · exact unique
      · exact unique.set _ _
  | lookup path => exact unique
  | forget path =>
      have others : (before.names.erase path).Unique := unique.keep _
      unfold Identities.forget
      split
      · exact unique
      · exact others
  | rename source target =>
      have others : ((before.names.erase target).erase source).Unique :=
        (unique.keep _).keep _
      unfold Identities.rename
      dsimp only
      split
      · exact unique
      · dsimp only
        split
        · exact others.set _ _
        · exact others
  | renameTree source target order all => exact unique_moveNames unique
  | addName existing added =>
      unfold Identities.addName
      split
      · exact unique
      · exact unique.set _ _

/-! ## Retired identities -/

/-- An identity that was given out and that no path names. -/
structure Retired
    (identities : Identities)
    (id : FileId) :
    Prop where
  issued : id < identities.next
  unnamed : ∀ entry ∈ identities.names, entry.2 ≠ id

theorem Retired.not_named
    (retired : identities.Retired id) :
    ¬ identities.Named id := by
  rintro ⟨path, found⟩
  exact retired.unnamed _ (Table.mem_of_find? found) rfl

/-- No call gives a retired identity to a path. -/
theorem Retired.step
    (retired : before.Retired id)
    (step : before.Step call answer after) :
    after.Retired id := by
  refine ⟨Nat.lt_of_lt_of_le retired.issued step.next_le, ?_⟩
  intro entry member
  rcases step.exists_or_next member with ⟨old, among, same⟩ | ⟨new, -⟩
  · exact same ▸ retired.unnamed old among
  · exact new ▸ retired.issued.ne'

theorem Retired.run
    (retired : before.Retired id)
    (run : before.Run after) :
    after.Retired id := by
  induction run with
  | refl => exact retired
  | tail _ step ih =>
      rcases step with ⟨call, answer, step⟩
      exact ih.step step

theorem issued_empty :
    ({} : Identities).Issued :=
  fun _ member => nomatch member

theorem Run.sound
    (run : Run {} identities) :
    identities.Issued ∧ identities.names.Unique := by
  induction run with
  | refl => exact ⟨issued_empty, Table.unique_nil⟩
  | tail _ step ih =>
      rcases step with ⟨call, answer, step⟩
      exact ⟨step.issued ih.1, step.unique ih.2⟩

theorem Run.next_le
    (run : before.Run after) :
    before.next ≤ after.next := by
  induction run with
  | refl => exact Nat.le_refl _
  | tail _ step ih =>
      rcases step with ⟨call, answer, step⟩
      exact ih.trans step.next_le

/-! ## Reports -/

/-- Where each path has one identity, an identity that no path names is in no
entry. -/
theorem not_named_iff
    (unique : identities.names.Unique) :
    ¬ identities.Named id ↔ ∀ entry ∈ identities.names, entry.2 ≠ id := by
  constructor
  · rintro unnamed ⟨path, other⟩ member rfl
    exact unnamed ⟨path, unique.find?_of_mem member⟩
  · rintro absent ⟨path, found⟩
    exact absent _ (Table.mem_of_find? found) rfl

theorem orphaned_eq_some_iff
    (unique : identities.names.Unique)
    {orphan : FileId} :
    orphaned identities.names id = some orphan ↔
      id = orphan ∧ ¬ identities.Named orphan := by
  unfold orphaned isNamed
  by_cases named : identities.names.any fun entry => entry.2 == id
  · rw [if_pos named]
    refine ⟨nofun, ?_⟩
    rintro ⟨rfl, unnamed⟩
    rcases List.any_eq_true.mp named with ⟨entry, member, same⟩
    exact absurd (beq_iff_eq.mp same)
      ((not_named_iff unique).mp unnamed entry member)
  · rw [if_neg named, Option.some.injEq]
    refine ⟨?_, And.left⟩
    rintro rfl
    refine ⟨rfl, (not_named_iff unique).mpr fun entry member same => named ?_⟩
    exact List.any_eq_true.mpr ⟨entry, member, beq_iff_eq.mpr same⟩

/-- A report is right if the identity that may have lost its last name is one
that was named, and the only one that can be named no more. -/
theorem reported_iff
    {lost : Option FileId}
    (unique : after.names.Unique)
    (had : ∀ id, lost = some id → before.Named id)
    (others : ∀ id, before.Named id → ¬ after.Named id → lost = some id) :
    lost.bind (orphaned after.names) = some id ↔
      before.Named id ∧ ¬ after.Named id := by
  rw [Option.bind_eq_some_iff]
  constructor
  · rintro ⟨other, gone, left⟩
    obtain ⟨rfl, unnamed⟩ := (orphaned_eq_some_iff unique).mp left
    exact ⟨had _ gone, unnamed⟩
  · rintro ⟨named, unnamed⟩
    exact ⟨id, others id named unnamed,
      (orphaned_eq_some_iff unique).mpr ⟨rfl, unnamed⟩⟩

theorem forget_fst
    (identities : Identities)
    (path : String) :
    (identities.forget path).1 =
      (identities.lookup path).bind
        (orphaned (identities.forget path).2.names) := by
  unfold forget
  cases identities.lookup path <;> rfl

/-- Forgetting a path reports an identity exactly if the path was its last
name. -/
theorem forget_eq_some_iff
    (unique : identities.names.Unique) :
    (identities.forget path).1 = some id ↔
      identities.Named id ∧ ¬ (identities.forget path).2.Named id := by
  rw [forget_fst]
  refine reported_iff ((Step.forget path).unique unique)
    (fun id found => ⟨path, found⟩) ?_
  rintro id ⟨other, found⟩ unnamed
  by_cases same : path = other
  · exact same ▸ found
  · refine absurd ⟨other, ?_⟩ unnamed
    rw [lookup_forget, if_neg same, found]

theorem rename_of_same
    (moved : (identities.lookup source).isSome ∧
      identities.lookup source = identities.lookup target) :
    identities.rename source target = (none, identities) := by
  rw [rename, if_pos moved]

theorem rename_fst_of_not_same
    (apart : ¬ ((identities.lookup source).isSome ∧
      identities.lookup source = identities.lookup target)) :
    (identities.rename source target).1 =
      (identities.lookup target).bind
        (orphaned (identities.rename source target).2.names) := by
  rw [rename, if_neg apart]

theorem lookup_rename_target
    (found : identities.lookup source = some id) :
    (identities.rename source target).2.lookup target = some id := by
  unfold rename
  dsimp only
  split
  · rename_i same
    exact same.2.symm.trans found
  · rw [found]
    exact (Table.find?_set _ _ _ _).trans (if_pos rfl)

/-- Renaming reports an identity exactly if the target was its last name, and
is not any more. -/
theorem rename_eq_some_iff
    (unique : identities.names.Unique) :
    (identities.rename source target).1 = some id ↔
      identities.Named id ∧
        ¬ (identities.rename source target).2.Named id := by
  by_cases same : (identities.lookup source).isSome ∧
      identities.lookup source = identities.lookup target
  · rw [rename_of_same same]
    exact ⟨nofun, fun both => absurd both.1 both.2⟩
  · rw [rename_fst_of_not_same same]
    refine reported_iff ((Step.rename source target).unique unique)
      (fun id found => ⟨target, found⟩) ?_
    rintro id ⟨other, found⟩ unnamed
    by_cases isTarget : target = other
    · exact isTarget ▸ found
    · -- What the source named is named by the target now.
      refine absurd ?_ unnamed
      by_cases isSource : source = other
      · exact ⟨target, lookup_rename_target (isSource ▸ found)⟩
      · exact ⟨other,
          (lookup_rename_of_ne isSource isTarget).trans found⟩

/-- A retired identity is no answer of any call. -/
theorem Retired.answer_ne
    (retired : before.Retired id)
    (unique : before.names.Unique)
    (step : before.Step call answer after) :
    answer ≠ some id := by
  have unnamed := retired.not_named
  intro told
  cases step with
  | identify path =>
      exact (retired.step (.identify path)).not_named
        ⟨path, told ▸ before.lookup_identify path⟩
  | lookup path => exact unnamed ⟨path, told⟩
  | forget path => exact unnamed ((forget_eq_some_iff unique).mp told).1
  | rename source target =>
      exact unnamed ((rename_eq_some_iff unique).mp told).1
  | renameTree source target order all => cases told
  | addName existing added =>
      cases found : before.lookup existing with
      | none =>
          rw [Identities.addName, found] at told
          cases told
      | some other =>
          rw [Identities.addName, found] at told
          exact unnamed ⟨existing, found.trans told⟩

/-- An identity that is reported was given out, and no path names it. -/
theorem retired_of_reported
    (sound : before.Issued ∧ before.names.Unique)
    (step : before.Step call answer after)
    (gone : before.Named id ∧ ¬ after.Named id) :
    after.Retired id := by
  rcases gone with ⟨⟨path, found⟩, unnamed⟩
  exact ⟨Nat.lt_of_lt_of_le (sound.1.lt found) step.next_le,
    (not_named_iff (step.unique sound.2)).mp unnamed⟩

/--
Whatever calls have led to some identities: a path without an identity that is
asked for is given one that no path had at any time before, forgetting and
renaming report an identity exactly if they take its last name away, and one
that was reported is never the answer of a call again.
-/
theorem Run.never_reused
    {now : Identities}
    (run : Run {} now) :
    (∀ path, now.lookup path = none →
      (now.identify path).2.lookup path = some (now.identify path).1 ∧
        ∀ earlier, Run {} earlier → earlier.Run now →
          ¬ earlier.Named (now.identify path).1) ∧
    (∀ path id, (now.forget path).1 = some id ↔
      now.Named id ∧ ¬ (now.forget path).2.Named id) ∧
    (∀ source target id, (now.rename source target).1 = some id ↔
      now.Named id ∧ ¬ (now.rename source target).2.Named id) ∧
    ∀ orphan after,
      (∃ path, now.forget path = (some orphan, after)) ∨
        (∃ source target, now.rename source target = (some orphan, after)) →
      ∀ later, after.Run later →
        ∀ call answer final, later.Step call answer final →
          answer ≠ some orphan := by
  have sound := run.sound
  refine ⟨?_, fun _ _ => forget_eq_some_iff sound.2,
    fun _ _ _ => rename_eq_some_iff sound.2, ?_⟩
  · intro path absent
    refine ⟨now.lookup_identify path, ?_⟩
    rintro earlier first rest ⟨other, found⟩
    rw [identify_of_none absent] at found
    exact absurd (first.sound.1.lt found) (Nat.not_lt.mpr rest.next_le)
  · intro orphan after reported later rest call answer final step
    have removed : ∃ call answer, now.Step call answer after ∧
        after.Retired orphan := by
      rcases reported with ⟨path, ran⟩ | ⟨source, target, ran⟩
      · have step := @Step.forget now path
        have gone := (forget_eq_some_iff sound.2).mp (congrArg Prod.fst ran)
        have retired := retired_of_reported sound step gone
        rw [ran] at step retired
        exact ⟨_, _, step, retired⟩
      · have step := @Step.rename now source target
        have gone := (rename_eq_some_iff sound.2).mp (congrArg Prod.fst ran)
        have retired := retired_of_reported sound step gone
        rw [ran] at step retired
        exact ⟨_, _, step, retired⟩
    rcases removed with ⟨_, _, removal, retired⟩
    have reached : Run {} later :=
      (run.tail ⟨_, _, removal⟩).trans rest
    exact (retired.run rest).answer_ne reached.sound.2 step

/-- A file loses one of its two names, is moved with the directory of the
other one, and loses that name too. -/
theorem never_reused_of_two_names :
    let file := (({} : Identities).identify "/directory/file").2
    let linked := (file.addName "/directory/file" "/link").2
    let moved := linked.renameTree "/directory" "/other/"
    let left := (moved.forget "/link").2
    let gone := (left.forget "/other/file").2
    (moved.forget "/link").1 = none ∧
      (left.forget "/other/file").1 = some 0 ∧
      (gone.identify "/link").1 = 1 ∧
      ¬ linked.Named (gone.identify "/link").1 ∧
      ∀ later call answer final,
        gone.Run later → later.Step call answer final → answer ≠ some 0 := by
  intro file linked moved left gone
  have made : Run {} linked :=
    (Relation.ReflTransGen.single ⟨_, _, .identify "/directory/file"⟩).tail
      ⟨_, _, .addName "/directory/file" "/link"⟩
  have kept : linked.Run left :=
    (Relation.ReflTransGen.single
      ⟨_, _, .renameTree_names linked "/directory" "/other/"⟩).tail
        ⟨_, _, .forget "/link"⟩
  have last : left.Run gone := .single ⟨_, _, .forget "/other/file"⟩
  have reported : (left.forget "/other/file").1 = some 0 := by
    decide +kernel
  refine ⟨by decide +kernel, reported, by decide +kernel, ?_, ?_⟩
  · exact ((Run.never_reused ((made.trans kept).trans last)).1 "/link"
      (by decide +kernel)).2 linked made (kept.trans last)
  · intro later call answer final run step
    exact (Run.never_reused (made.trans kept)).2.2.2 0 gone
      (.inl ⟨"/other/file", Prod.ext reported rfl⟩) later run call answer final
      step

end Identities

end Strata
