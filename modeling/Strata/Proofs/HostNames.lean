import Strata.Host.Lookup
import Strata.Device.Fleet
import Strata.Proofs.PathNames

/-!
# Names of places on the host

A place on a device is the root of the device with the names of a path behind
it.  Taken apart, it has the names of the root and then those of the path, it
begins where the root begins, and it ends in a slash only if the path has no
names.  A place that goes on where another one ends is refused whenever the
other one is.
-/

namespace Strata

namespace Text

variable {separator : Char}

theorem joined_cons_cons
    (piece next : List Char)
    (others : List (List Char)) :
    joined separator (piece :: next :: others) =
      piece ++ separator :: joined separator (next :: others) :=
  rfl

theorem joined_concat
    {pieces : List (List Char)}
    (some : pieces ≠ [])
    (piece : List Char) :
    joined separator (pieces ++ [piece]) =
      joined separator pieces ++ separator :: piece := by
  induction pieces with
  | nil => exact absurd rfl some
  | cons first rest ih =>
      cases rest with
      | nil => rfl
      | cons second others =>
          have later := ih (List.cons_ne_nil _ _)
          simp only [List.cons_append, joined_cons_cons] at later ⊢
          rw [later, List.append_assoc, List.cons_append]

theorem mem_of_mem_pieces
    {characters piece : List Char}
    {character : Char}
    (member : piece ∈ pieces separator characters)
    (inside : character ∈ piece) :
    character ∈ characters := by
  induction characters generalizing piece with
  | nil =>
      obtain rfl := List.mem_singleton.mp member
      exact inside
  | cons first rest ih =>
      rw [pieces] at member
      split at member
      · rcases List.mem_cons.mp member with rfl | later
        · cases inside
        · exact List.mem_cons_of_mem _ (ih later inside)
      · cases cut : pieces separator rest with
        | nil => exact absurd cut (pieces_ne_nil separator rest)
        | cons head others =>
            rw [cut] at member ih
            rcases List.mem_cons.mp member with rfl | later
            · rcases List.mem_cons.mp inside with rfl | within
              · exact List.mem_cons_self
              · exact List.mem_cons_of_mem _
                  (ih List.mem_cons_self within)
            · exact List.mem_cons_of_mem _
                (ih (List.mem_cons_of_mem _ later) inside)

end Text

/-- Whether a text can be a name of a path: not a dot name, and a name
between slashes. -/
def Path.IsName
    (name : String) :
    Prop :=
  name ≠ "" ∧ '/' ∉ name.toList ∧ name ≠ "." ∧ name ≠ ".."

instance (name : String) : Decidable (Path.IsName name) :=
  inferInstanceAs (Decidable (_ ∧ _ ∧ _ ∧ _))

/-- A path with one more name. -/
def Path.child
    (path : Path)
    (name : String) :
    Path :=
  ⟨path.names ++ [name]⟩

theorem Path.Proper.child
    {path : Path}
    {name : String}
    (proper : path.Proper)
    (named : Path.IsName name) :
    (path.child name).Proper := by
  intro other member
  rcases List.mem_append.mp member with before | last
  · exact proper other before
  · obtain rfl := List.mem_singleton.mp last
    exact ⟨named.1, named.2.1⟩

theorem Path.withSuffix_child
    (path : Path)
    (name suffix : String) :
    (path.child name).withSuffix suffix = path.child (name ++ suffix) := by
  rcases path with ⟨names⟩
  have extended : Path.extendLast suffix (names ++ [name]) =
      names ++ [name ++ suffix] := by
    induction names with
    | nil => rfl
    | cons first rest ih =>
        cases rest with
        | nil => rfl
        | cons second others => exact congrArg (first :: ·) ih
  exact congrArg Path.mk extended

namespace Host

variable
  {root : String}
  {path : Path}

theorem toList_relative
    (path : Path) :
    path.relative.toList =
      Text.joined '/' (path.names.map String.toList) := by
  rcases path with ⟨names⟩
  change (String.intercalate "/" names).toList = _
  rw [String.toList_intercalate]
  induction names with
  | nil => rfl
  | cons name rest ih =>
      cases rest with
      | nil => simp [Text.joined]
      | cons next others =>
          rw [List.map_cons, List.map_cons, List.intercalate_cons_cons,
            ← List.map_cons, ih, List.append_assoc]
          rfl

theorem pieces_relative
    (proper : path.Proper)
    (nonempty : path.names ≠ []) :
    Text.pieces '/' path.relative.toList =
      path.names.map String.toList := by
  have slashed := Path.pieces_slashed proper.slash_not_mem
  rw [Path.slashed_eq_cons_joined nonempty, ← toList_relative] at slashed
  exact (List.cons.inj slashed).2

theorem isAbsolute_relative
    (proper : path.Proper) :
    isAbsolute path.relative = false := by
  rcases path with ⟨names⟩
  cases names with
  | nil => rfl
  | cons name rest =>
      rcases proper name List.mem_cons_self with ⟨nonempty, absent⟩
      have head : (Path.relative ⟨name :: rest⟩).toList.head? =
          name.toList.head? := by
        rw [toList_relative]
        have some := mt String.toList_eq_nil_iff.mp nonempty
        cases rest with
        | nil => rfl
        | cons next others => exact List.head?_append_of_ne_nil _ some
      rw [isAbsolute, head, beq_eq_false_iff_ne]
      intro slash
      exact absent (List.mem_of_mem_head? slash)

/-- What is joined to an absolute path goes on behind a slash. -/
theorem exists_joined
    (absolute : isAbsolute root) :
    ∃ base : List Char,
      namesOf root = ((Text.pieces '/' base).filter
        (!·.isEmpty)).map String.ofList ∧
      ∀ text, isAbsolute text = false →
        (join root text).toList = base ++ '/' :: text.toList := by
  have given : root ≠ "" := by
    rintro rfl
    cases absolute
  have joins (text : String) (relative : isAbsolute text = false) :
      join root text =
        if endsInSlash root then root ++ text
        else root ++ "/" ++ text := by
    rw [join, if_neg]
    simp [relative, given]
  by_cases slash : endsInSlash root
  · rcases List.getLast?_eq_some_iff.mp (beq_iff_eq.mp slash) with
      ⟨base, split⟩
    refine ⟨base, ?_, fun text relative => ?_⟩
    · rw [namesOf, split, Text.pieces_append]
      simp [Text.pieces]
    · rw [joins text relative, if_pos slash, String.toList_append, split,
        List.append_assoc]
      rfl
  · refine ⟨root.toList, rfl, fun text relative => ?_⟩
    rw [joins text relative, if_neg slash, String.toList_append,
      String.toList_append, List.append_assoc]
    rfl

/-- A place is its root, a slash, and the names of the path. -/
theorem exists_base
    (absolute : isAbsolute root) :
    ∃ base : List Char,
      namesOf root = ((Text.pieces '/' base).filter
        (!·.isEmpty)).map String.ofList ∧
      ∀ path : Path, path.Proper →
        (join root path.relative).toList =
          base ++ '/' :: path.relative.toList := by
  rcases exists_joined absolute with ⟨base, names, joins⟩
  exact ⟨base, names, fun _ proper => joins _ (isAbsolute_relative proper)⟩

/-- The names of a place are those of the root and those of the path. -/
theorem namesOf_place
    (absolute : isAbsolute root)
    (proper : path.Proper) :
    namesOf (Devices.resolve root path) = namesOf root ++ path.names := by
  rcases exists_base absolute with ⟨base, names, places⟩
  rw [Devices.resolve, namesOf, places path proper, Text.pieces_append,
    List.filter_append, List.map_append, names]
  congr 1
  by_cases empty : path.names = []
  · rw [toList_relative, empty]
    rfl
  · have kept : (path.names.map String.toList).filter (!·.isEmpty) =
        path.names.map String.toList := by
      rw [List.filter_eq_self]
      intro characters member
      rcases List.mem_map.mp member with ⟨name, among, rfl⟩
      simpa using (proper name among).1
    rw [pieces_relative proper empty, kept, List.map_map]
    simp

theorem isAbsolute_join
    (absolute : isAbsolute root)
    (text : String) :
    isAbsolute (join root text) := by
  have given : root.toList ≠ [] := by
    intro empty
    simp [isAbsolute, empty] at absolute
  have begins (rest : String) : isAbsolute (root ++ rest) := by
    rw [isAbsolute, String.toList_append, List.head?_append_of_ne_nil _ given]
    exact absolute
  rw [join]
  split
  · rename_i alone
    exact alone.resolve_right
      fun empty => given (String.toList_eq_nil_iff.mpr empty)
  · split
    · exact begins text
    · rw [String.append_assoc]
      exact begins _

theorem isAbsolute_place
    (absolute : isAbsolute root)
    (path : Path) :
    isAbsolute (Devices.resolve root path) :=
  isAbsolute_join absolute _

/-- A path with one more name goes on where the path ends, if need be with a
slash. -/
theorem exists_front
    (path : Path) :
    ∃ slash : List Char, ∀ name,
      (path.child name).relative.toList =
        path.relative.toList ++ slash ++ name.toList := by
  rcases path with ⟨names⟩
  by_cases empty : names = []
  · refine ⟨[], fun name => ?_⟩
    rw [empty, toList_relative]
    rfl
  · refine ⟨['/'], fun name => ?_⟩
    rw [toList_relative, toList_relative, Path.child, List.map_append,
      List.map_singleton, Text.joined_concat (by simpa using empty),
      List.append_assoc]
    rfl

/-- A place ends in the last name of its path. -/
theorem endsInSlash_place
    {name : String}
    (absolute : isAbsolute root)
    (proper : (path.child name).Proper) :
    endsInSlash (Devices.resolve root (path.child name)) = false := by
  rcases exists_base absolute with ⟨base, -, places⟩
  rcases exists_front path with ⟨front, split⟩
  rcases proper name (List.mem_append_right _ (List.mem_singleton_self _))
    with ⟨nonempty, absent⟩
  have some := mt String.toList_eq_nil_iff.mp nonempty
  rw [endsInSlash, Devices.resolve, places _ proper, split,
    beq_eq_false_iff_ne, List.getLast?_append_of_ne_nil _ (by simp),
    ← List.cons_append, List.getLast?_append_of_ne_nil _ some]
  intro slash
  exact absent (List.mem_of_getLast? slash)

/-! ## Places that the host takes -/

theorem pathFault?_eq_none_iff
    {place : String} :
    pathFault? place = none ↔
      '\x00' ∉ place.toList ∧ place ≠ "" ∧
        place.utf8ByteSize < pathLimit := by
  simp only [pathFault?, List.contains_iff_mem]
  split
  · simp_all
  · split
    · simp_all
    · split <;> simp_all

/-- A place is not refused for being free, unless it is empty. -/
theorem pathFault?_ne_notFound
    {place : String}
    (some : place ≠ "") :
    pathFault? place ≠ .some .notFound := by
  unfold pathFault?
  rw [if_neg some]
  split
  · exact nofun
  · split <;> exact nofun

/-- What begins a place that the host takes is taken as well. -/
theorem pathFault?_of_append
    {place rest : String}
    (some : place ≠ "")
    (taken : pathFault? (place ++ rest) = none) :
    pathFault? place = none := by
  rcases pathFault?_eq_none_iff.mp taken with ⟨absent, -, short⟩
  refine pathFault?_eq_none_iff.mpr ⟨?_, some, ?_⟩
  · rw [String.toList_append, List.mem_append] at absent
    exact fun member => absent (.inl member)
  · rw [String.utf8ByteSize_append] at short
    omega

theorem place_ne_empty
    (absolute : isAbsolute root)
    (path : Path) :
    Devices.resolve root path ≠ "" := by
  intro empty
  have begins := isAbsolute_place absolute path
  rw [empty] at begins
  cases begins

/-- What is below a directory begins with the place of the directory. -/
theorem exists_place_child
    {name : String}
    (absolute : isAbsolute root)
    (proper : (path.child name).Proper) :
    ∃ rest, Devices.resolve root (path.child name) =
      Devices.resolve root path ++ rest := by
  rcases exists_base absolute with ⟨base, -, places⟩
  have above : path.Proper :=
    fun other member => proper other (List.mem_append_left _ member)
  rcases exists_front path with ⟨slash, split⟩
  refine ⟨String.ofList (slash ++ name.toList), ?_⟩
  rw [← String.toList_inj, String.toList_append, Devices.resolve,
    Devices.resolve, places _ proper, places _ above, split,
    String.toList_ofList]
  simp

/-- A name that goes on ends a place that goes on. -/
theorem place_child_append
    {name suffix : String}
    (absolute : isAbsolute root)
    (proper : (path.child name).Proper)
    (longer : (path.child (name ++ suffix)).Proper) :
    Devices.resolve root (path.child (name ++ suffix)) =
      Devices.resolve root (path.child name) ++ suffix := by
  rcases exists_base absolute with ⟨base, -, places⟩
  rcases exists_front path with ⟨slash, split⟩
  rw [← String.toList_inj, String.toList_append, Devices.resolve,
    Devices.resolve, places _ proper, places _ longer, split, split,
    String.toList_append]
  simp

end Host

end Strata
