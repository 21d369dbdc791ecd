import Strata.Proofs.Naming

/-!
# Files apart

A call touches the paths that it takes a name from or gives one to, and, where
it changes a file, the other names of that file.  What is recorded for any
other path stays as it is: no identity is given out twice, and what is dropped
was recorded for an identity that no path names any more.  A path without an
identity is like one that the coder never saw.
-/

namespace Strata

namespace ErasureCoder

/-- Whether two coders say the same of a path. -/
structure AgreeAt
    (path : Path)
    (first second : ErasureCoder) :
    Prop where
  trackedSize : first.trackedSize path = second.trackedSize path
  locate : ∀ offset, first.locate path offset = second.locate path offset

/-- Whether two paths name the same file. -/
def Shares
    (coder : ErasureCoder)
    (first second : Path) :
    Prop :=
  ∃ id, coder.identity? first = some id ∧ coder.identity? second = some id

end ErasureCoder

/-- Whether a call may change what is recorded for a path: the path is one of
a file that the call changes, or one that the call takes a name from or gives
one to, or lies below such a directory. -/
def BookCall.Touches
    (coder : ErasureCoder)
    (path : Path) :
    BookCall → Prop
  | .encode changed _ _ => changed = path ∨ coder.Shares changed path
  | .truncate changed _ => changed = path ∨ coder.Shares changed path
  | .reset changed => changed = path ∨ coder.Shares changed path
  | .forget gone => gone = path
  | .rename source target => source = path ∨ target = path
  | .renameDirectory source target =>
    source.names <+: path.names ∨ target.names <+: path.names
  | .link _ added => added = path

namespace ErasureCoder

variable
  {coder other : ErasureCoder}
  {path changed : Path}
  {call : BookCall}
  {id : FileId}

theorem agreeAt_of_recorded
    (same : coder.recorded path = other.recorded path) :
    AgreeAt path coder other where
  trackedSize := by rw [trackedSize_eq, trackedSize_eq, same]
  locate offset := by rw [locate_eq, locate_eq, same]

theorem not_displaces_of_not_touches
    (apart : ¬ call.Touches coder path) :
    ¬ call.Displaces coder path := by
  cases call with
  | encode | truncate | reset => exact not_false
  | forget | rename | link => exact apart
  | renameDirectory source target =>
      rcases not_or.mp apart with ⟨notSource, notTarget⟩
      rintro (below | rfl | ⟨more, names, -⟩)
      · exact notSource below
      · exact notTarget (List.prefix_refl _)
      · exact notTarget ⟨more, names.symm⟩

theorem identified?_ne_of_not_touches
    (apart : ¬ call.Touches coder path) :
    call.identified? ≠ some path := by
  cases call with
  | encode | truncate =>
      intro same
      exact apart (.inl (Option.some.inj same))
  | reset | forget | rename | renameDirectory | link => exact nofun

/-- The same is recorded for a path that keeps its identity if the same is
recorded for the identity. -/
theorem recorded_congr
    (named : coder.identity? path = other.identity? path)
    (files : ∀ id, other.identity? path = some id →
      coder.extents.file id = other.extents.file id) :
    coder.recorded path = other.recorded path := by
  unfold recorded
  rw [named]
  cases found : other.identity? path with
  | none => rfl
  | some id => exact files id found

theorem file_set_of_ne
    (extents : Extents)
    (file : FileExtents)
    {changed id : FileId}
    (differs : changed ≠ id) :
    Extents.file (extents.set changed file) id = extents.file id := by
  rw [Extents.file, Table.find?_set, if_neg differs]
  rfl

/-- The identity that a path has or is given is not that of a path of another
file. -/
theorem Sound.identify_ne
    (sound : coder.Sound)
    (apart : ¬ coder.Shares changed path)
    (found : coder.identity? path = some id) :
    (coder.identities.identify changed.render).1 ≠ id := by
  rintro rfl
  cases known : coder.identities.lookup changed.render with
  | none =>
      rw [Identities.identify_of_none known] at found
      exact absurd (sound.issued.lt found) (Nat.lt_irrefl _)
  | some other =>
      rw [Identities.identify_of_some known] at found
      exact apart ⟨other, known, found⟩

theorem file_dropOrphan
    {orphan : Option FileId}
    (path : Path)
    (named : coder.identity? path = some id)
    (unnamed : ∀ other, orphan = some other →
      coder.identity? path ≠ some other) :
    (coder.dropOrphan orphan).extents.file id = coder.extents.file id := by
  cases orphan with
  | none => rfl
  | some other =>
      have differs : other ≠ id := by
        rintro rfl
        exact unnamed other rfl named
      change (Table.find? id (coder.extents.erase other)).getD {} = _
      rw [Table.find?_erase, if_neg differs]
      rfl

/-- What a call leaves recorded for an identity that a path keeps which the
call does not touch. -/
theorem Sound.file_after
    (sound : coder.Sound)
    (apart : ¬ call.Touches coder path)
    (found : coder.identity? path = some id)
    (kept : (coder.after call).identity? path = some id) :
    (coder.after call).extents.file id = coder.extents.file id := by
  cases call with
  | encode changed block offset =>
      have differs := sound.identify_ne (not_or.mp apart).2 found
      rcases coder.encode_cases changed block offset with
        ⟨error, -, ran⟩ | ⟨new, identities, fragments, identified, -, placed⟩
      · rw [ErasureCoder.after, ran]
      · rw [identified] at differs
        rcases placed with ⟨-, ran⟩ | ⟨start, extent, -, -, ran⟩
        · rw [ErasureCoder.after, ran]
        · rw [ErasureCoder.after, ran]
          exact file_set_of_ne _ _ differs
  | truncate changed size =>
      exact file_set_of_ne _ _ (sound.identify_ne (not_or.mp apart).2 found)
  | reset changed =>
      rw [ErasureCoder.after, reset]
      split
      · rfl
      · rename_i new known
        refine file_set_of_ne _ _ ?_
        rintro rfl
        exact (not_or.mp apart).2 ⟨new, known, found⟩
  | forget gone =>
      have named : (coder.identities.forget gone.render).2.lookup
          path.render = some id := by
        rwa [ErasureCoder.after, identity?, identities_forget] at kept
      exact file_dropOrphan path named
        fun orphan left => Identities.forget_orphan left _
  | rename source target =>
      have named :
          (coder.identities.rename source.render target.render).2.lookup
            path.render = some id := by
        rwa [ErasureCoder.after, identity?, identities_rename] at kept
      exact file_dropOrphan path named
        fun orphan left => Identities.rename_orphan left _
  | renameDirectory source target => rfl
  | link existing added => rfl

/-- What is recorded for a path stays as it is after calls that do not touch
it. -/
theorem Sound.recorded_after
    (sound : coder.Sound)
    (proper : path.Proper)
    (properCall : call.Proper)
    (apart : ¬ call.Touches coder path) :
    (coder.after call).recorded path = coder.recorded path := by
  have named := identity?_after proper properCall
    (not_displaces_of_not_touches apart)
    (.inr (identified?_ne_of_not_touches apart))
  refine recorded_congr named fun id found => ?_
  exact sound.file_after apart found (named.trans found)

/-! ## What a call on a path does to it -/

/-- A coder with the same code and nothing recorded. -/
def emptied
    (coder : ErasureCoder) :
    ErasureCoder :=
  { code := coder.code }

theorem sound_emptied
    (coder : ErasureCoder) :
    coder.emptied.Sound where
  issued _ member := absurd member List.not_mem_nil
  fresh _ _ := rfl

/-- What calls on a path without an identity do to it is what they do to a path
that no coder has seen. -/
theorem Sound.like_emptied
    (sound : coder.Sound)
    (absent : coder.identity? path = none) :
    (∀ block offset,
      ((encode path block offset).execute coder).1 =
          ((encode path block offset).execute coder.emptied).1 ∧
        AgreeAt path (coder.after (.encode path block offset))
          (coder.emptied.after (.encode path block offset))) ∧
    ∀ size,
      (coder.truncate path size).1 = (coder.emptied.truncate path size).1 ∧
        AgreeAt path (coder.after (.truncate path size))
          (coder.emptied.after (.truncate path size)) := by
  have nothing : coder.recorded path = coder.emptied.recorded path := by
    rw [recorded, absent]
    rfl
  have soundEmptied := coder.sound_emptied
  constructor
  · intro block offset
    have here := sound.encode_eq path block offset
    have there := soundEmptied.encode_eq path block offset
    rw [nothing] at here
    have same := Prod.mk.inj (here.trans there.symm)
    exact ⟨same.1, agreeAt_of_recorded same.2⟩
  · intro size
    rcases sound.truncate_recorded path size with ⟨answer, left⟩
    rcases soundEmptied.truncate_recorded path size with ⟨other, leftOther⟩
    rw [answer, other, nothing]
    refine ⟨rfl, agreeAt_of_recorded ?_⟩
    rw [left, leftOther, nothing]

/--
Whatever calls a coder has had, a call changes nothing for a path that it does
not touch; a name that was taken away names nothing; and a path that names
nothing is empty, and new when it is used again.
-/
theorem Reached.isolated
    (reached : coder.Reached) :
    (∀ (call : BookCall) (path : Path),
      call.Proper → path.Proper → ¬ call.Touches coder path →
        AgreeAt path coder (coder.after call)) ∧
    (∀ path, (coder.after (.forget path)).identity? path = none) ∧
    ∀ path, coder.identity? path = none →
      coder.trackedSize path = 0 ∧
      (∀ offset, coder.locate path offset = .ok none) ∧
      (∀ block offset,
        ((encode path block offset).execute coder).1 =
            ((encode path block offset).execute coder.emptied).1 ∧
          AgreeAt path (coder.after (.encode path block offset))
            (coder.emptied.after (.encode path block offset))) ∧
      ∀ size,
        (coder.truncate path size).1 = (coder.emptied.truncate path size).1 ∧
          AgreeAt path (coder.after (.truncate path size))
            (coder.emptied.after (.truncate path size)) := by
  refine ⟨?_, ?_, ?_⟩
  · intro call path properCall proper apart
    exact agreeAt_of_recorded
      (reached.sound.recorded_after proper properCall apart).symm
  · intro path
    rw [ErasureCoder.after, identity?, identities_forget,
      Identities.lookup_forget, if_pos rfl]
  · intro path absent
    refine ⟨?_, ?_, reached.sound.like_emptied absent⟩
    · rw [trackedSize, absent]
      rfl
    · intro offset
      rw [locate, absent]

/-- One of two names of a file is taken away: the file keeps its other name,
and the name that is gone is new when it is used again. -/
theorem isolated_of_two_names :
    let written : ErasureCoder :=
      after { code := ⟨2, 1, [[3, 2]]⟩ } (.encode ⟨["file"]⟩ [1, 2, 3] 0)
    let coder := written.after (.link ⟨["file"]⟩ ⟨["other"]⟩)
    let later := coder.after (.forget ⟨["file"]⟩)
    AgreeAt ⟨["other"]⟩ coder later ∧
      coder.trackedSize ⟨["other"]⟩ = 3 ∧
      coder.trackedSize ⟨["file"]⟩ = 3 ∧
      later.trackedSize ⟨["file"]⟩ = 0 ∧
      AgreeAt ⟨["file"]⟩ (later.after (.encode ⟨["file"]⟩ [4] 0))
        (later.emptied.after (.encode ⟨["file"]⟩ [4] 0)) := by
  intro written coder later
  have reached : coder.Reached := .called (.called (.made ofShape_two_one) _) _
  rcases reached.isolated with ⟨apart, gone, -⟩
  rcases (reached.called (.forget ⟨["file"]⟩)).isolated with ⟨-, -, fresh⟩
  rcases fresh _ (gone ⟨["file"]⟩) with ⟨empty, -, encodes, -⟩
  exact ⟨apart (.forget ⟨["file"]⟩) ⟨["other"]⟩
      (by decide : (⟨["file"]⟩ : Path).Proper) (by decide)
      (by decide : (⟨["file"]⟩ : Path) ≠ ⟨["other"]⟩),
    rfl, rfl, empty, (encodes [4] 0).2⟩

end ErasureCoder

end Strata
