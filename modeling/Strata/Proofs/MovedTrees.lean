import Strata.Proofs.OrphanedIdentities

/-!
# Moved trees

Where a directory moves, a path below it keeps what is behind the directory
and gets the other directory before that.  The paths are moved one by one
within the table that they come from, in an order that nobody has chosen.  As
no known path lies below the other directory, none is moved onto one that is
still to be moved or has been.  So in whatever order the table ends as itself
with every path substituted (`perm_substituted`), and everything else about
the move is read off that.
-/

namespace Strata.Identities

variable
  {identities : Identities}
  {source target path : String}
  {below above rest : List Char}
  {entry : String × FileId}
  {names order moved waiting : Table String FileId}

/-- Whether a path lies below a directory: it goes on behind the slash. -/
def IsBelow
    (directory path : String) :
    Prop :=
  treePrefix directory <+: path.toList

instance (directory path : String) : Decidable (IsBelow directory path) :=
  inferInstanceAs (Decidable (_ <+: _))

/-- The path of a rest below a directory. -/
def pathBelow
    (directory rest : String) :
    String :=
  String.ofList (treePrefix directory ++ rest.toList)

/-- An entry whose path has one beginning in place of another one, if it has
that one. -/
def substituted
    (below above : List Char)
    (entry : String × FileId) :
    String × FileId :=
  match restAfter? entry.1 below with
  | none => entry
  | some rest => (String.ofList (above ++ rest), entry.2)

/-! ## One path -/

theorem restAfter?_of_append
    (whole : path.toList = below ++ rest) :
    restAfter? path below = some rest := by
  rw [restAfter?, whole, List.drop_left, if_pos]
  exact List.isPrefixOf_iff_prefix.mpr (List.prefix_append _ _)

theorem restAfter?_of_apart
    (apart : ¬ below <+: path.toList) :
    restAfter? path below = none := by
  rw [restAfter?, if_neg]
  exact mt List.isPrefixOf_iff_prefix.mp apart

theorem substituted_of_append
    (whole : entry.1.toList = below ++ rest) :
    substituted below above entry =
      (String.ofList (above ++ rest), entry.2) := by
  rw [substituted, restAfter?_of_append whole]

theorem substituted_of_apart
    (apart : ¬ below <+: entry.1.toList) :
    substituted below above entry = entry := by
  rw [substituted, restAfter?_of_apart apart]

theorem snd_substituted
    (below above : List Char)
    (entry : String × FileId) :
    (substituted below above entry).2 = entry.2 := by
  unfold substituted
  split <;> rfl

theorem moveName_of_append
    (whole : entry.1.toList = below ++ rest) :
    moveName below above names entry =
      (names.erase entry.1).set (String.ofList (above ++ rest)) entry.2 := by
  rw [moveName, restAfter?_of_append whole]

theorem moveName_of_apart
    (apart : ¬ below <+: entry.1.toList) :
    moveName below above names entry = names := by
  rw [moveName, restAfter?_of_apart apart]

/-- Two paths become the same one only if they are the same one. -/
theorem fst_eq_of_substituted_eq
    {other : String × FileId}
    (free : ¬ above <+: other.1.toList)
    (whole : entry.1.toList = below ++ rest)
    (same : (substituted below above other).1 =
      String.ofList (above ++ rest)) :
    other.1 = entry.1 := by
  by_cases moves : below <+: other.1.toList
  · rcases moves with ⟨tail, split⟩
    rw [substituted_of_append split.symm, String.ofList_inj,
      List.append_right_inj] at same
    rw [← String.toList_inj, ← split, whole, same]
  · rw [substituted_of_apart moves, ← String.toList_inj,
      String.toList_ofList] at same
    exact absurd ⟨rest, same.symm⟩ free

/-! ## All paths in some order -/

/-- A path that waits is moved, and takes the place of none. -/
theorem perm_moveName
    (free : ∀ other ∈ moved ++ entry :: waiting, ¬ above <+: other.1.toList)
    (once : (moved ++ entry :: waiting).Unique)
    (unique : names.Unique)
    (now : names.Perm
      (moved.map (substituted below above) ++ entry :: waiting)) :
    (moveName below above names entry).Perm
      (moved.map (substituted below above) ++
        substituted below above entry :: waiting) := by
  by_cases moves : below <+: entry.1.toList
  · rcases moves with ⟨rest, whole⟩
    rw [moveName_of_append whole.symm, substituted_of_append whole.symm]
    have others := Table.perm_erase (now.trans List.perm_middle) unique
    have alone : ∀ other ∈ moved, other.1 ≠ entry.1 := by
      rw [Table.Unique, List.map_append, List.nodup_append] at once
      exact fun other member =>
        once.2.2 _ (List.mem_map_of_mem member) _ List.mem_cons_self
    -- No path that was moved or waits is the one that this path becomes.
    have absent : String.ofList (above ++ rest) ∉
        (names.erase entry.1).map Prod.fst := by
      rw [(others.map Prod.fst).mem_iff, List.map_append, List.mem_append,
        List.map_map, List.mem_map, List.mem_map]
      rintro (⟨other, member, same⟩ | ⟨other, member, same⟩)
      · exact alone other member (fst_eq_of_substituted_eq
          (free other (List.mem_append_left _ member)) whole.symm same)
      · refine free other
          (List.mem_append_right _ (List.mem_cons_of_mem _ member)) ⟨rest, ?_⟩
        rw [same, String.toList_ofList]
    rw [Table.set_of_absent absent]
    exact (others.cons _).trans List.perm_middle.symm
  · rw [moveName_of_apart moves, substituted_of_apart moves]
    exact now

/-- Whatever was moved before, the paths that wait are moved as well. -/
theorem perm_moveNames
    (free : ∀ other ∈ moved ++ waiting, ¬ above <+: other.1.toList)
    (once : (moved ++ waiting).Unique)
    (unique : names.Unique)
    (now : names.Perm (moved.map (substituted below above) ++ waiting)) :
    (waiting.foldl (moveName below above) names).Perm
      ((moved ++ waiting).map (substituted below above)) := by
  induction waiting generalizing moved names with
  | nil => simpa using now
  | cons entry waiting ih =>
      have next := perm_moveName free once unique now
      rw [List.append_cons] at free once ⊢
      have single : (moveName below above names entry).Unique :=
        @unique_moveNames below above [entry] names unique
      refine ih free once single ?_
      rw [List.map_append, List.append_assoc]
      exact next

/-- In whatever order the paths are moved, each of them is substituted. -/
theorem perm_substituted
    (unique : identities.names.Unique)
    (free : ∀ entry ∈ identities.names, ¬ IsBelow target entry.1)
    (all : order.Perm identities.names) :
    (identities.renamedTree source target order).names.Perm
      (identities.names.map
        (substituted (treePrefix source) (treePrefix target))) := by
  have once : order.Unique := (all.map Prod.fst).nodup_iff.mpr unique
  have moved := @perm_moveNames (treePrefix source) (treePrefix target)
    identities.names [] order
    (fun entry member => free entry (all.mem_iff.mp member)) once unique
    all.symm
  exact moved.trans (all.map _)

/-! ## What is found after a move -/

/-- A directory that is another one and does not lie below a directory has
nothing below it that lies below that one too. -/
theorem not_prefix_of_outside
    (differs : treePrefix target ≠ treePrefix source)
    (outside : ¬ IsBelow source target) :
    ¬ treePrefix source <+: treePrefix target := by
  intro begins
  rcases List.prefix_concat_iff.mp begins with same | shorter
  · exact differs same.symm
  · exact outside (shorter.trans (List.rdropWhile_prefix _ _))

/-- If no known path has the other beginning, a path that has it after the
substitution is what the path with the same rest has become. -/
theorem mem_map_substituted_above
    (free : ∀ entry ∈ names, ¬ above <+: entry.1.toList)
    (rest : List Char)
    (id : FileId) :
    (String.ofList (above ++ rest), id) ∈
        names.map (substituted below above) ↔
      (String.ofList (below ++ rest), id) ∈ names := by
  rw [List.mem_map]
  constructor
  · rintro ⟨entry, member, becomes⟩
    by_cases moves : below <+: entry.1.toList
    · rcases moves with ⟨tail, whole⟩
      rw [substituted_of_append whole.symm, Prod.mk.injEq, String.ofList_inj,
        List.append_right_inj] at becomes
      rcases becomes with ⟨rfl, rfl⟩
      rwa [whole, String.ofList_toList]
    · rw [substituted_of_apart moves] at becomes
      subst becomes
      exact absurd ⟨rest, (String.toList_ofList ..).symm⟩ (free _ member)
  · intro member
    exact ⟨_, member, substituted_of_append (String.toList_ofList ..)⟩

/-- No path has the beginning that is substituted any more. -/
theorem not_mem_map_substituted_below
    (free : ∀ entry ∈ names, ¬ above <+: entry.1.toList)
    (apart : ¬ below <+: above)
    (rest : List Char)
    (id : FileId) :
    (String.ofList (below ++ rest), id) ∉
      names.map (substituted below above) := by
  rw [List.mem_map]
  rintro ⟨entry, member, becomes⟩
  by_cases moves : below <+: entry.1.toList
  · rcases moves with ⟨tail, whole⟩
    rw [substituted_of_append whole.symm, Prod.mk.injEq,
      String.ofList_inj] at becomes
    -- One beginning goes on as the other one, and so does the known path.
    rcases List.prefix_or_prefix_of_prefix
      (List.prefix_append below rest) ⟨tail, becomes.1⟩ with
      within | within
    · exact apart within
    · exact free entry member (within.trans ⟨tail, whole⟩)
  · rw [substituted_of_apart moves] at becomes
    subst becomes
    exact moves ⟨rest, (String.toList_ofList ..).symm⟩

/-- A path that has neither beginning is as known as before. -/
theorem mem_map_substituted_of_apart
    (notBelow : ¬ below <+: path.toList)
    (notAbove : ¬ above <+: path.toList)
    (id : FileId) :
    (path, id) ∈ names.map (substituted below above) ↔ (path, id) ∈ names := by
  rw [List.mem_map]
  constructor
  · rintro ⟨entry, member, becomes⟩
    by_cases moves : below <+: entry.1.toList
    · rcases moves with ⟨tail, whole⟩
      rw [substituted_of_append whole.symm, Prod.mk.injEq] at becomes
      refine absurd ⟨tail, ?_⟩ notAbove
      rw [← becomes.1, String.toList_ofList]
    · rw [substituted_of_apart moves] at becomes
      exact becomes ▸ member
  · intro member
    exact ⟨_, member, substituted_of_apart notBelow⟩

/--
Where each path has one identity, a directory moves to another one that does
not lie below it, and no known path lies below that one, then in whatever order
the paths are moved: each path below the other directory has the identity that
the path with the same rest had below the directory, and that path has none;
all other paths keep what they have; and the table holds the same identities,
each as often as before, with the paths substituted.
-/
theorem renamedTree_substitutes
    (unique : identities.names.Unique)
    (differs : treePrefix target ≠ treePrefix source)
    (outside : ¬ IsBelow source target)
    (free : ∀ entry ∈ identities.names, ¬ IsBelow target entry.1)
    (all : order.Perm identities.names) :
    let after := identities.renamedTree source target order
    (∀ rest,
      after.lookup (pathBelow target rest) =
          identities.lookup (pathBelow source rest) ∧
        after.lookup (pathBelow source rest) = none) ∧
    (∀ path, ¬ IsBelow source path → ¬ IsBelow target path →
      after.lookup path = identities.lookup path) ∧
    after.names.Perm
      (identities.names.map
        (substituted (treePrefix source) (treePrefix target))) ∧
    (after.names.map Prod.snd).Perm (identities.names.map Prod.snd) ∧
    after.next = identities.next := by
  intro after
  have apart := not_prefix_of_outside differs outside
  have moved : after.names.Perm _ :=
    perm_substituted unique free all
  have once : after.names.Unique := unique_moveNames unique
  -- What is found is what the substituted table holds.
  have found (path : String) (id : FileId) :
      after.lookup path = some id ↔
        (path, id) ∈ identities.names.map
          (substituted (treePrefix source) (treePrefix target)) :=
    once.find?_eq_some_iff.trans moved.mem_iff
  refine ⟨fun rest => ⟨?_, ?_⟩, ?_, moved, ?_, rfl⟩
  · refine Option.ext fun id => ?_
    exact ((found _ id).trans
      (mem_map_substituted_above free rest.toList id)).trans
        unique.find?_eq_some_iff.symm
  · rw [Option.eq_none_iff_forall_ne_some]
    intro id known
    exact not_mem_map_substituted_below free apart rest.toList id
      ((found _ id).mp known)
  · intro path notBelow notAbove
    refine Option.ext fun id => ?_
    exact ((found path id).trans
      (mem_map_substituted_of_apart notBelow notAbove id)).trans
        unique.find?_eq_some_iff.symm
  · have values := moved.map Prod.snd
    rw [List.map_map] at values
    exact values.trans (.of_eq (List.map_congr_left fun entry _ =>
      snd_substituted _ _ entry))

/-- Beside the directory that moves there is one whose name only begins like
its name, and the other directory has the name of a file. -/
theorem renamedTree_substitutes_of_sibling :
    let known : Identities :=
      { next := 4
        names := [("/d/a", 0), ("/d/sub/b", 1), ("/dx/c", 2), ("/e", 3)] }
    let after := known.renamedTree "/d/" "/e" known.names.reverse
    after.lookup "/e/sub/b" = some 1 ∧
      after.lookup "/d/sub/b" = none ∧
      after.lookup "/dx/c" = some 2 ∧
      (after.names.map Prod.snd).Perm [0, 1, 2, 3] := by
  intro known after
  have unique : known.names.Unique := by
    unfold Table.Unique
    decide
  have substitutes := @renamedTree_substitutes known "/d/" "/e" _
    unique (by decide +kernel) (by decide +kernel) (by decide +kernel)
    (List.reverse_perm known.names)
  rcases substitutes with ⟨moves, keeps, -, same, -⟩
  have source : pathBelow "/d/" "sub/b" = "/d/sub/b" := by decide +kernel
  have target : pathBelow "/e" "sub/b" = "/e/sub/b" := by decide +kernel
  rcases moves "sub/b" with ⟨found, gone⟩
  rw [source] at found gone
  rw [target] at found
  refine ⟨found.trans (by decide +kernel), gone, ?_, same⟩
  exact (keeps "/dx/c" (by decide +kernel) (by decide +kernel)).trans
    (by decide +kernel)

end Strata.Identities
