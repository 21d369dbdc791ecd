import Strata.Proofs.Books
import Strata.Proofs.PathNames

/-!
# Names of files

A call gives a path another identity only if it takes the path's name away,
moves it, or moves or links another file to it.  Asking for the identity of a
path changes none that there is, and an identity that is dropped is one that no
path names any more.
-/

namespace Strata

/-! ## Identities after each operation -/

namespace Identities

variable
  {identities : Identities}
  {key path source target existing added : String}
  {id : FileId}

theorem lookup_identify_of_ne
    (differs : path ≠ key) :
    (identities.identify path).2.lookup key = identities.lookup key := by
  unfold identify
  split
  · rfl
  · simp [lookup, differs]

/-- A path that has an identity keeps it whatever path is asked for. -/
theorem lookup_identify_of_some
    (found : identities.lookup key = some id) :
    (identities.identify path).2.lookup key = some id := by
  by_cases same : path = key
  · subst same
    unfold identify
    rw [found]
    exact found
  · rw [lookup_identify_of_ne same, found]

theorem identify_of_some
    (found : identities.lookup path = some id) :
    identities.identify path = (id, identities) := by
  rw [identify, found]

theorem identify_of_none
    (absent : identities.lookup path = none) :
    (identities.identify path).1 = identities.next := by
  rw [identify, absent]

theorem lookup_forget
    (identities : Identities)
    (path key : String) :
    (identities.forget path).2.lookup key =
      if path = key then none else identities.lookup key := by
  cases found : identities.lookup path with
  | none =>
      rw [forget, found]
      by_cases same : path = key
      · rw [if_pos same, ← same]
        exact found
      · rw [if_neg same]
  | some id =>
      rw [forget, found]
      exact Table.find?_erase _ _ _

theorem lookup_rename_of_ne
    (notSource : source ≠ key)
    (notTarget : target ≠ key) :
    (identities.rename source target).2.lookup key =
      identities.lookup key := by
  unfold rename
  dsimp only
  split
  · rfl
  · cases identities.lookup source <;>
      simp [lookup, notSource, notTarget]

theorem lookup_addName_of_ne
    (differs : added ≠ key) :
    (identities.addName existing added).2.lookup key =
      identities.lookup key := by
  unfold addName
  split
  · rfl
  · simp [lookup, differs]

theorem lookup_addName
    (found : identities.lookup existing = some id) :
    (identities.addName existing added).2.lookup added = some id := by
  rw [addName, found]
  exact (Table.find?_set _ _ _ _).trans (if_pos rfl)

theorem addName_of_none
    (absent : identities.lookup existing = none) :
    (identities.addName existing added).2 = identities := by
  rw [addName, absent]

/-- Moving a name changes nothing for a name that it neither is nor becomes. -/
theorem find?_moveName
    {below above : List Char}
    {entry : String × FileId}
    (apart : ¬ below <+: key.toList)
    (other : ∀ rest, entry.1.toList = below ++ rest →
      key.toList ≠ above ++ rest)
    (names : Table String FileId) :
    (moveName below above names entry).find? key = names.find? key := by
  unfold moveName restAfter?
  split
  · rfl
  · rename_i rest behind
    split at behind
    · rename_i begins
      cases behind
      rcases List.isPrefixOf_iff_prefix.mp begins with ⟨rest, whole⟩
      rw [← whole, List.drop_left, Table.find?_set, if_neg,
        Table.find?_erase, if_neg]
      · rintro rfl
        exact apart ⟨rest, whole⟩
      · rintro rfl
        exact other rest whole.symm (String.toList_ofList ..)
    · cases behind

theorem find?_foldl_moveName
    {below above : List Char}
    {entries : Table String FileId}
    (apart : ¬ below <+: key.toList)
    (others : ∀ entry ∈ entries, ∀ rest, entry.1.toList = below ++ rest →
      key.toList ≠ above ++ rest)
    (names : Table String FileId) :
    (entries.foldl (moveName below above) names).find? key =
      names.find? key := by
  induction entries generalizing names with
  | nil => rfl
  | cons entry rest ih =>
      rw [List.foldl_cons,
        ih fun later member => others later (List.mem_cons_of_mem _ member)]
      exact find?_moveName apart (others entry List.mem_cons_self) names

/-- A name that no other one is moved to keeps its identity, unless it is
moved itself. -/
theorem lookup_renameTree
    (apart : ¬ treePrefix source <+: key.toList)
    (free : ∀ rest, key.toList = treePrefix target ++ rest →
      identities.lookup (String.ofList (treePrefix source ++ rest)) = none) :
    (identities.renameTree source target).lookup key =
      identities.lookup key := by
  refine find?_foldl_moveName apart ?_ identities.names
  intro entry member rest whole becomes
  have absent := free rest becomes
  rw [← whole, String.ofList_toList] at absent
  exact (Table.find?_eq_none_iff _ _).mp absent (List.mem_map_of_mem member)

/-- Only an identity that no path names is left over. -/
theorem ne_of_orphaned
    {names : Table String FileId}
    {orphan : FileId}
    (left : orphaned names id = some orphan)
    (key : String) :
    names.find? key ≠ some orphan := by
  unfold orphaned at left
  split at left
  · cases left
  · rename_i unnamed
    cases left
    intro found
    apply unnamed
    exact List.any_eq_true.mpr
      ⟨(key, id), Table.mem_of_find? found, beq_self_eq_true id⟩

theorem forget_orphan
    {orphan : FileId}
    (left : (identities.forget path).1 = some orphan)
    (key : String) :
    (identities.forget path).2.lookup key ≠ some orphan := by
  unfold forget at left ⊢
  cases found : identities.lookup path with
  | none =>
      rw [found] at left
      cases left
  | some id =>
      rw [found] at left
      exact ne_of_orphaned left key

theorem rename_orphan
    {orphan : FileId}
    (left : (identities.rename source target).1 = some orphan)
    (key : String) :
    (identities.rename source target).2.lookup key ≠ some orphan := by
  unfold rename at left ⊢
  dsimp only at left ⊢
  split at left
  · cases left
  · rename_i moves
    rw [if_neg moves]
    rcases Option.bind_eq_some_iff.mp left with ⟨id, -, unnamed⟩
    exact ne_of_orphaned unnamed key

end Identities

/-! ## Identities after each call -/

namespace BookCall

/-- Whether all paths of a call are proper. -/
def Proper :
    BookCall → Prop
  | .encode path _ _ => path.Proper
  | .truncate path _ => path.Proper
  | .reset path => path.Proper
  | .forget path => path.Proper
  | .rename source target => source.Proper ∧ target.Proper
  | .renameDirectory source target => source.Proper ∧ target.Proper
  | .link existing added => existing.Proper ∧ added.Proper

/-- The path that a call gives an identity to if it has none. -/
def identified? :
    BookCall → Option Path
  | .encode path _ _ => some path
  | .truncate path _ => some path
  | _ => none

/-- Whether a call takes a name away, moves it or a directory above it, or
moves or links another file to it. -/
def Displaces
    (coder : ErasureCoder)
    (path : Path) :
    BookCall → Prop
  | .encode _ _ _ => False
  | .truncate _ _ => False
  | .reset _ => False
  | .forget gone => gone = path
  | .rename source target => source = path ∨ target = path
  | .renameDirectory source target =>
    source.names <+: path.names ∨ target = path ∨
      ∃ more, path.names = target.names ++ more ∧
        (coder.identity? ⟨source.names ++ more⟩).isSome
  | .link _ added => added = path

end BookCall

namespace ErasureCoder

variable
  {coder : ErasureCoder}
  {path : Path}

theorem identities_dropOrphan
    (coder : ErasureCoder)
    (orphan : Option FileId) :
    (coder.dropOrphan orphan).identities = coder.identities := by
  cases orphan <;> rfl

theorem identities_forget
    (coder : ErasureCoder)
    (path : Path) :
    (coder.forget path).identities =
      (coder.identities.forget path.render).2 :=
  identities_dropOrphan _ _

theorem identities_rename
    (coder : ErasureCoder)
    (source target : Path) :
    (coder.rename source target).identities =
      (coder.identities.rename source.render target.render).2 :=
  identities_dropOrphan _ _

theorem identities_reset
    (coder : ErasureCoder)
    (path : Path) :
    (coder.reset path).identities = coder.identities := by
  unfold reset
  split <;> rfl

/-- An attempt to encode a block leaves the names as they are, or asks for the
identity of the path. -/
theorem identities_after_encode
    (coder : ErasureCoder)
    (path : Path)
    (block : Bytes)
    (offset : Nat) :
    (coder.after (.encode path block offset)).identities = coder.identities ∨
      (coder.after (.encode path block offset)).identities =
        (coder.identities.identify path.render).2 := by
  rcases coder.encode_cases path block offset with
    ⟨error, -, ran⟩ | ⟨id, identities, fragments, identified, -, placed⟩
  · left
    rw [after, ran]
  · right
    rw [identified]
    rcases placed with ⟨-, ran⟩ | ⟨start, extent, -, -, ran⟩ <;>
      rw [after, ran]

theorem identities_after_identified
    {call : BookCall}
    (identified : call.identified? = some path) :
    (coder.after call).identities = coder.identities ∨
      (coder.after call).identities =
        (coder.identities.identify path.render).2 := by
  cases call with
  | encode other block offset =>
      cases identified
      exact coder.identities_after_encode path block offset
  | truncate other size =>
      cases identified
      exact .inr rfl
  | reset | forget | rename | renameDirectory | link => cases identified

/-- Where a directory moves, a path that is not displaced keeps its
identity. -/
theorem lookup_renameDirectory
    {source target : Path}
    (proper : path.Proper)
    (properSource : source.Proper)
    (properTarget : target.Proper)
    (stays : ¬ (BookCall.renameDirectory source target).Displaces coder
      path) :
    (coder.identities.renameTree source.render target.render).lookup
        path.render =
      coder.identities.lookup path.render := by
  rcases not_or.mp stays with ⟨apart, others⟩
  rcases not_or.mp others with ⟨differs, free⟩
  apply Identities.lookup_renameTree
  · exact fun below => apart (proper.prefix_of_treePrefix properSource below)
  · intro rest below
    rcases proper.exists_append properTarget differs below with
      ⟨more, names, behind⟩
    have unnamed : ¬ (coder.identity? ⟨source.names ++ more⟩).isSome :=
      fun named => free ⟨more, names, named⟩
    rw [identity?, Option.not_isSome_iff_eq_none] at unnamed
    rwa [← Path.toList_render_append properSource behind, String.ofList_toList]

/-- A path that a call does not displace keeps its identity; if it has none, it
gets none unless the call asks for it. -/
theorem identity?_after
    {call : BookCall}
    (proper : path.Proper)
    (properCall : call.Proper)
    (stays : ¬ call.Displaces coder path)
    (known : (coder.identity? path).isSome ∨ call.identified? ≠ some path) :
    (coder.after call).identity? path = coder.identity? path := by
  have asked : ∀ other : Path, other.Proper →
      ((coder.identity? path).isSome ∨ some other ≠ some path) →
        (coder.identities.identify other.render).2.lookup path.render =
          coder.identities.lookup path.render := by
    intro other properOther known
    rcases known with named | differs
    · rcases Option.isSome_iff_exists.mp named with ⟨id, found⟩
      exact (Identities.lookup_identify_of_some found).trans found.symm
    · exact Identities.lookup_identify_of_ne
        (properOther.render_ne proper fun same => differs (congrArg some same))
  unfold identity?
  cases call with
  | encode other block offset =>
      rcases coder.identities_after_encode other block offset with
        same | identified
      · rw [same]
      · rw [identified, asked other properCall known]
  | truncate other size => exact asked other properCall known
  | reset other =>
      rw [after, identities_reset]
  | forget other =>
      rw [after, identities_forget, Identities.lookup_forget,
        if_neg (properCall.render_ne proper stays)]
  | rename source target =>
      rcases not_or.mp stays with ⟨notSource, notTarget⟩
      rw [after, identities_rename]
      exact Identities.lookup_rename_of_ne
        (properCall.1.render_ne proper notSource)
        (properCall.2.render_ne proper notTarget)
  | renameDirectory source target =>
      exact lookup_renameDirectory proper properCall.1 properCall.2 stays
  | link existing added =>
      exact Identities.lookup_addName_of_ne
        (properCall.2.render_ne proper stays)

end ErasureCoder

end Strata
