import Mathlib.Data.List.DropRight
import Mathlib.Data.List.Induction
import Strata.Coding.Identities
import Strata.Path

/-!
# Names of paths

The tables of a coder know a path by its displayed form.  A path that was read
has names without slashes, none of them empty, so the displayed form tells its
names: cut at the slashes it has them for pieces.  Hence different paths have
different forms, and a form begins as those of the paths below a directory do
exactly if the path lies below it.
-/

namespace Strata

namespace Text

variable
  {separator : Char}
  {characters : List Char}

theorem pieces_of_not_mem
    (absent : separator ∉ characters) :
    pieces separator characters = [characters] := by
  induction characters with
  | nil => rfl
  | cons character rest ih =>
      rcases not_or.mp (mt List.mem_cons.mpr absent) with ⟨differs, later⟩
      rw [pieces, if_neg (Ne.symm differs), ih later]

theorem pieces_append
    (characters rest : List Char) :
    pieces separator (characters ++ separator :: rest) =
      pieces separator characters ++ pieces separator rest := by
  induction characters with
  | nil => simp [pieces]
  | cons character others ih =>
      rw [List.cons_append, pieces, pieces, ih]
      split
      · rfl
      · cases cut : pieces separator others with
        | nil => exact absurd cut (pieces_ne_nil separator others)
        | cons piece more => rfl

end Text

namespace Path

/-- Whether the names of a path are names: none is empty or has a slash. -/
def Proper
    (path : Path) :
    Prop :=
  ∀ name ∈ path.names, name ≠ "" ∧ '/' ∉ name.toList

instance (path : Path) : Decidable path.Proper :=
  inferInstanceAs (Decidable (∀ name ∈ path.names, _))

/-- A path that was read is proper. -/
theorem proper_of_parse
    {text : String}
    {path : Path}
    (parsed : parse text = .ok path) :
    path.Proper := by
  unfold parse at parsed
  split at parsed
  · rename_i rest _
    split at parsed
    · cases parsed
    · cases parsed
      intro name member
      rcases List.mem_map.mp member with ⟨characters, among, rfl⟩
      rcases List.mem_filter.mp among with ⟨piece, nonempty⟩
      refine ⟨?_, ?_⟩
      · rintro empty
        rw [← String.toList_eq_nil_iff, String.toList_ofList] at empty
        simp [empty] at nonempty
      · rw [String.toList_ofList]
        exact Text.not_mem_of_mem_pieces piece
  · cases parsed

/-- Names with a slash before each of them. -/
def slashed
    (names : List String) :
    List Char :=
  names.flatMap fun name => '/' :: name.toList

theorem slashed_append
    (names others : List String) :
    slashed (names ++ others) = slashed names ++ slashed others :=
  List.flatMap_append

theorem toList_render
    (path : Path) :
    path.render.toList =
      if path.names = [] then ['/'] else slashed path.names := by
  rcases path with ⟨names⟩
  cases names with
  | nil => rfl
  | cons name rest =>
      change (String.join _).toList = _
      rw [if_neg (List.cons_ne_nil _ _), String.toList_join, List.flatMap_map]
      simp [slashed]

variable
  {path other source target : Path}
  {names : List String}

/-- Cut at the slashes, names with slashes before them are the names behind
an empty piece. -/
theorem pieces_slashed
    (proper : ∀ name ∈ names, '/' ∉ name.toList) :
    Text.pieces '/' (slashed names) = [] :: names.map String.toList := by
  induction names using List.reverseRecOn with
  | nil => rfl
  | append_singleton names name ih =>
      have first := ih fun name member =>
        proper name (List.mem_append_left _ member)
      have last := proper name (by simp)
      have split : slashed (names ++ [name]) =
          slashed names ++ '/' :: name.toList := by
        simp [slashed]
      rw [split, Text.pieces_append, first, Text.pieces_of_not_mem last,
        List.map_append]
      rfl

theorem slashed_eq_cons_joined
    (nonempty : names ≠ []) :
    slashed names = '/' :: Text.joined '/' (names.map String.toList) := by
  induction names with
  | nil => exact absurd rfl nonempty
  | cons name rest ih =>
      cases rest with
      | nil => simp [slashed, Text.joined]
      | cons next others =>
          have later := ih (List.cons_ne_nil _ _)
          change '/' :: (name.toList ++ slashed (next :: others)) = _
          rw [later]
          rfl

theorem map_toList_injective :
    Function.Injective (List.map String.toList) :=
  fun _ _ same =>
    (List.map_inj_right fun _ _ => String.toList_injective).mp same

theorem slashed_injective
    {others : List String}
    (proper : ∀ name ∈ names, '/' ∉ name.toList)
    (properOthers : ∀ name ∈ others, '/' ∉ name.toList)
    (same : slashed names = slashed others) :
    names = others := by
  have pieces := congrArg (Text.pieces '/') same
  rw [pieces_slashed proper, pieces_slashed properOthers] at pieces
  exact map_toList_injective (List.cons.inj pieces).2

/-- What lies below some names goes on with more names. -/
theorem exists_append_of_slashed
    {others : List String}
    {rest : List Char}
    (proper : ∀ name ∈ names, '/' ∉ name.toList)
    (properOthers : ∀ name ∈ others, '/' ∉ name.toList)
    (same : slashed names = slashed others ++ '/' :: rest) :
    ∃ more, names = others ++ more ∧ slashed more = '/' :: rest := by
  have pieces := congrArg (Text.pieces '/') same
  rw [Text.pieces_append, pieces_slashed proper,
    pieces_slashed properOthers] at pieces
  have behind := (List.cons.inj pieces).2
  rcases List.map_eq_append_iff.mp behind with
    ⟨first, more, rfl, begins, ends⟩
  refine ⟨more, ?_, ?_⟩
  · rw [map_toList_injective begins]
  · have nonempty : more ≠ [] := by
      rintro rfl
      exact Text.pieces_ne_nil '/' rest ends.symm
    rw [slashed_eq_cons_joined nonempty, ends, Text.joined_pieces]

theorem Proper.slash_not_mem
    (proper : path.Proper) :
    ∀ name ∈ path.names, '/' ∉ name.toList :=
  fun name member => (proper name member).2

/-- Names that are not empty leave more than a slash. -/
theorem Proper.slashed_ne_slash
    (proper : path.Proper) :
    slashed path.names ≠ ['/'] := by
  intro single
  have pieces := congrArg (Text.pieces '/') single
  rw [pieces_slashed proper.slash_not_mem] at pieces
  have empty : path.names.map String.toList = [[]] :=
    (List.cons.inj pieces).2
  rcases List.map_eq_singleton_iff.mp empty with ⟨name, alone, nothing⟩
  have member : name ∈ path.names := by
    rw [alone]
    exact List.mem_singleton_self _
  exact (proper name member).1 (String.toList_eq_nil_iff.mp nothing)

/-- Different paths have different forms. -/
theorem Proper.render_injective
    (proper : path.Proper)
    (properOther : other.Proper)
    (same : path.render = other.render) :
    path = other := by
  have characters := congrArg String.toList same
  rw [toList_render, toList_render] at characters
  have equal : path.names = other.names := by
    split at characters
    · rename_i root
      split at characters
      · rename_i rootOther
        rw [root, rootOther]
      · exact absurd characters.symm properOther.slashed_ne_slash
    · split at characters
      · exact absurd characters proper.slashed_ne_slash
      · exact slashed_injective proper.slash_not_mem
          properOther.slash_not_mem characters
  rcases path with ⟨names⟩
  rcases other with ⟨others⟩
  exact congrArg mk equal

theorem Proper.render_ne
    (proper : path.Proper)
    (properOther : other.Proper)
    (differs : path ≠ other) :
    path.render ≠ other.render :=
  fun same => differs (proper.render_injective properOther same)

/-! ## Below a directory -/

open Identities

/-- What is below a directory begins with its names and a slash. -/
theorem Proper.treePrefix_render
    (proper : source.Proper) :
    treePrefix source.render = slashed source.names ++ ['/'] := by
  change List.rdropWhile (· == '/') source.render.toList ++ ['/'] = _
  rw [toList_render]
  rcases source with ⟨names⟩
  induction names using List.reverseRecOn with
  | nil => rfl
  | append_singleton names name _ =>
      rcases proper name (by simp) with ⟨nonempty, absent⟩
      have characters : name.toList ≠ [] :=
        mt String.toList_eq_nil_iff.mp nonempty
      have split : slashed (names ++ [name]) =
          slashed names ++ '/' :: name.toList := by
        simp [slashed]
      dsimp only
      rw [if_neg (by simp), split, List.rdropWhile_eq_self_iff.mpr]
      -- The last character is one of a name, so no slash is trimmed.
      intro _
      rw [List.getLast_append_of_ne_nil _ (List.cons_ne_nil _ _),
        List.getLast_cons characters, beq_iff_eq]
      intro slash
      exact absent (slash ▸ List.getLast_mem characters)

/-- A path whose form begins with that of a directory is the directory with
more names. -/
theorem Proper.exists_append
    (proper : path.Proper)
    (properSource : source.Proper)
    (apart : source ≠ path)
    {rest : List Char}
    (below : path.render.toList = treePrefix source.render ++ rest) :
    ∃ more, path.names = source.names ++ more ∧
      slashed more = '/' :: rest := by
  rw [properSource.treePrefix_render, List.append_assoc, toList_render]
    at below
  split at below
  · -- Only the root itself is below a directory and has no names.
    rename_i root
    cases given : source.names with
    | nil =>
        rcases path with ⟨names⟩
        rcases source with ⟨others⟩
        exact absurd (congrArg mk (given.trans root.symm)) apart
    | cons name others =>
        rw [given] at below
        have length := congrArg List.length below
        simp [slashed] at length
  · exact exists_append_of_slashed proper.slash_not_mem
      properSource.slash_not_mem below

theorem Proper.prefix_of_treePrefix
    (proper : path.Proper)
    (properSource : source.Proper)
    (below : treePrefix source.render <+: path.render.toList) :
    source.names <+: path.names := by
  rcases below with ⟨rest, whole⟩
  by_cases same : source = path
  · exact same ▸ List.prefix_refl _
  · rcases proper.exists_append properSource same whole.symm with
      ⟨more, names, -⟩
    exact ⟨more, names.symm⟩

/-- The form of a path is that of a directory and what more names it has. -/
theorem toList_render_append
    {more : List String}
    {rest : List Char}
    (proper : source.Proper)
    (behind : slashed more = '/' :: rest) :
    (Path.mk (source.names ++ more)).render.toList =
      treePrefix source.render ++ rest := by
  have nonempty : source.names ++ more ≠ [] := by
    intro empty
    rcases List.append_eq_nil_iff.mp empty with ⟨-, rfl⟩
    cases behind
  rw [toList_render, if_neg nonempty, slashed_append, behind,
    proper.treePrefix_render, List.append_assoc]
  rfl

end Path

end Strata
