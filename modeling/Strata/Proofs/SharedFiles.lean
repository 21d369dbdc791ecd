import Strata.Proofs.Isolation

/-!
# Shared files

Two names of one file say the same of it, and go on doing so until one of them
is taken away, moved or given to another file.  Linking makes two names of one
file only if the file had an identity by then: otherwise nothing is shared, and
a later call gives each of the names a file of its own.
-/

namespace Strata

namespace ErasureCoder

variable
  {start coder later : ErasureCoder}
  {first second : Path}

/-- Whether the coder says the same of two names: the same size, and the same
placement or none at every offset.  What it says of an offset inside of a block
is an error that has the name in it, so there it need only fail for both. -/
structure SameFile
    (coder : ErasureCoder)
    (first second : Path) :
    Prop where
  size :
    (Coder.erasure coder).trackedSize? first =
      (Coder.erasure coder).trackedSize? second
  locate : ∀ offset length placement?,
    (Coder.erasure coder).locate first offset length = .ok placement? ↔
      (Coder.erasure coder).locate second offset length = .ok placement?

/-- Any number of calls of which none displaces one of two names. -/
inductive Keeping
    (first second : Path)
    (start : ErasureCoder) :
    ErasureCoder → Prop where
  | none : Keeping first second start start
  | call
      {coder : ErasureCoder}
      (run : Keeping first second start coder)
      (call : BookCall)
      (proper : call.Proper)
      (keepsFirst : ¬ call.Displaces coder first)
      (keepsSecond : ¬ call.Displaces coder second) :
      Keeping first second start (coder.after call)

theorem locate_eq_ok_iff
    (path : Path)
    (offset length : Nat)
    (placement? : Option Placement) :
    (Coder.erasure coder).locate path offset length = .ok placement? ↔
      match (coder.recorded path).blocks.find? offset with
      | some extent => some (Coder.placementOf extent) = placement?
      | none =>
        (coder.recorded path).size ≤ offset ∧ placement? = none := by
  unfold Coder.locate
  dsimp only
  rw [locate_eq]
  cases (coder.recorded path).blocks.find? offset with
  | some extent => exact ⟨Except.ok.inj, congrArg _⟩
  | none =>
      by_cases past : (coder.recorded path).size ≤ offset
      · simp only [if_pos past]
        exact ⟨fun same => ⟨past, (Except.ok.inj same).symm⟩,
          fun ⟨_, nothing⟩ => nothing ▸ rfl⟩
      · simp only [if_neg past]
        exact ⟨nofun, fun ⟨inside, _⟩ => absurd inside past⟩

/-- Names of one file say the same of it. -/
theorem Shares.sameFile
    (shares : coder.Shares first second) :
    coder.SameFile first second := by
  rcases shares with ⟨id, one, two⟩
  have same : coder.recorded first = coder.recorded second := by
    rw [recorded, recorded, one, two]
  constructor
  · change some (coder.trackedSize first) = some (coder.trackedSize second)
    rw [trackedSize_eq, trackedSize_eq, same]
  · intro offset length placement?
    rw [locate_eq_ok_iff, locate_eq_ok_iff, same]

/-- Two names stay names of one file when a call displaces none of them. -/
theorem Shares.after
    (shares : coder.Shares first second)
    (properFirst : first.Proper)
    (properSecond : second.Proper)
    {call : BookCall}
    (proper : call.Proper)
    (keepsFirst : ¬ call.Displaces coder first)
    (keepsSecond : ¬ call.Displaces coder second) :
    (coder.after call).Shares first second := by
  rcases shares with ⟨id, one, two⟩
  refine ⟨id, ?_, ?_⟩
  · rw [identity?_after properFirst proper keepsFirst (.inl (one ▸ rfl)), one]
  · rw [identity?_after properSecond proper keepsSecond (.inl (two ▸ rfl)),
      two]

theorem Keeping.shares
    (run : Keeping first second start coder)
    (properFirst : first.Proper)
    (properSecond : second.Proper)
    (shares : start.Shares first second) :
    coder.Shares first second := by
  induction run with
  | none => exact shares
  | call _ call proper keepsFirst keepsSecond ih =>
      exact ih.after properFirst properSecond proper keepsFirst keepsSecond

/-- Linking a file that has an identity makes its names share it. -/
theorem shares_after_link
    (properFirst : first.Proper)
    (properSecond : second.Proper)
    (differs : first ≠ second)
    (named : (coder.identity? first).isSome) :
    (coder.after (.link first second)).Shares first second := by
  rcases Option.isSome_iff_exists.mp named with ⟨id, found⟩
  refine ⟨id, ?_, Identities.lookup_addName found⟩
  exact (Identities.lookup_addName_of_ne
    (properSecond.render_ne properFirst differs.symm)).trans found

/-- Linking a file that has no identity does nothing. -/
theorem after_link_of_none
    (absent : coder.identity? first = none) :
    coder.after (.link first second) = coder := by
  change { coder with identities := (coder.identities.addName _ _).2 } = _
  rw [Identities.addName_of_none absent]

/--
After a link the two names go on saying the same, whatever calls follow that
displace none of them, exactly if they are one name or the linked file had an
identity, that is, a block of it was to be encoded or it was cut before.
-/
theorem link_shares_iff
    (reached : coder.Reached)
    (properFirst : first.Proper)
    (properSecond : second.Proper) :
    (∀ later, Keeping first second (coder.after (.link first second)) later →
        later.SameFile first second) ↔
      first = second ∨ (coder.identity? first).isSome := by
  constructor
  · intro same
    by_cases equal : first = second
    · exact .inl equal
    · refine .inr ?_
      by_contra unnamed
      have absent := Option.not_isSome_iff_eq_none.mp unnamed
      rw [after_link_of_none absent] at same
      -- The first name is given a size that the second one does not have.
      have parted := same _ (.call .none
        (.truncate first (coder.trackedSize second + 1)) properFirst
        not_false not_false)
      have size := Option.some.inj parted.size
      have other := (reached.isolated.1
        (.truncate first (coder.trackedSize second + 1)) second properFirst
        properSecond (by
          rintro (is | ⟨id, found, -⟩)
          · exact equal is
          · rw [absent] at found
            cases found)).trackedSize
      rw [← other, trackedSize_eq,
        (reached.sound.truncate_recorded first _).2] at size
      exact absurd size (Nat.succ_ne_self _)
  · rintro (rfl | named) later run
    · exact ⟨rfl, fun _ _ _ => Iff.rfl⟩
    · by_cases equal : first = second
      · subst equal
        exact ⟨rfl, fun _ _ _ => Iff.rfl⟩
      · exact (run.shares properFirst properSecond
          (shares_after_link properFirst properSecond equal named)).sameFile

/-- A written file is linked, and written through both of its names. -/
theorem link_shares_iff_of_written_file :
    let coder : ErasureCoder :=
      after { code := ⟨2, 1, [[3, 2]]⟩ } (.encode ⟨["file"]⟩ [1, 2, 3] 0)
    let later :=
      ((coder.after (.link ⟨["file"]⟩ ⟨["other"]⟩)).after
        (.encode ⟨["other"]⟩ [4, 5] 3)).after (.truncate ⟨["file"]⟩ 4)
    later.SameFile ⟨["file"]⟩ ⟨["other"]⟩ ∧
      later.trackedSize ⟨["other"]⟩ = 4 := by
  intro coder later
  have reached : coder.Reached := .called (.made ofShape_two_one) _
  have proper : (⟨["file"]⟩ : Path).Proper := by decide
  have properOther : (⟨["other"]⟩ : Path).Proper := by decide
  refine ⟨(link_shares_iff reached proper properOther).mpr (.inr rfl) later ?_,
    by decide +kernel⟩
  refine .call (.call .none _ ?_ ?_ ?_) _ ?_ ?_ ?_
  · exact properOther
  · exact not_false
  · exact not_false
  · exact proper
  · exact not_false
  · exact not_false

/-- A file that was made and not written is linked.  What is written through
the one name then is not seen through the other one. -/
theorem link_not_shares_unwritten :
    let coder : ErasureCoder :=
      after { code := ⟨2, 1, [[3, 2]]⟩ } (.reset ⟨["file"]⟩)
    ∃ later,
      Keeping ⟨["file"]⟩ ⟨["other"]⟩
          (coder.after (.link ⟨["file"]⟩ ⟨["other"]⟩)) later ∧
        ¬ later.SameFile ⟨["file"]⟩ ⟨["other"]⟩ := by
  refine ⟨_, .call .none (.encode ⟨["file"]⟩ [1, 2, 3] 0) ?_ not_false
    not_false, ?_⟩
  · exact (by decide : (⟨["file"]⟩ : Path).Proper)
  · intro same
    exact absurd same.size (by decide)

end ErasureCoder

end Strata
