import Strata.Proofs.ListedNames

/-!
# Confined paths

The parts of a text are what stands between its slashes.  A text is read as a
path exactly if it begins with a slash and no part of it is a dot name, and
the path has the parts that are not empty for names.  So a path that was read
is displayed as a text that is read as the same path again, and joined to the
root of a device it goes on below the root, also with what a coder appends to
its last name.
-/

namespace Strata

theorem Text.splitOn_eq_pieces
    (separator : Char)
    (characters : List Char) :
    characters.splitOn separator = pieces separator characters := by
  induction characters with
  | nil => rfl
  | cons character rest ih =>
      rw [List.splitOn_cons_eq_if_modifyHead, ih, pieces]
      by_cases same : character = separator
      · rw [if_pos (beq_iff_eq.mpr same), if_pos same]
      · rw [if_neg (mt beq_iff_eq.mp same), if_neg same]
        cases cut : pieces separator rest with
        | nil => exact absurd cut (pieces_ne_nil separator rest)
        | cons piece others => rfl

namespace Path

variable
  {text other : String}
  {path : Path}
  {names : List String}

/-- What stands between the slashes of a text. -/
def parts
    (text : String) :
    List String :=
  (text.toList.splitOn '/').map String.ofList

/-- What stands between the slashes of a text and is not empty. -/
def filledParts
    (text : String) :
    List String :=
  (parts text).filter (· ≠ "")

theorem parts_of_slash
    {rest : List Char}
    (slash : text.toList = '/' :: rest) :
    parts text = "" :: (Text.pieces '/' rest).map String.ofList := by
  rw [parts, Text.splitOn_eq_pieces, slash, Text.pieces, if_pos rfl]
  rfl

theorem filledParts_of_slash
    {rest : List Char}
    (slash : text.toList = '/' :: rest) :
    filledParts text = (namesOf rest).map String.ofList := by
  rw [filledParts, parts_of_slash slash, List.filter_cons_of_neg (by simp),
    namesOf, List.filter_map]
  congr 1
  refine List.filter_congr fun piece _ => ?_
  cases piece <;> simp

theorem isDots_iff
    {piece : List Char} :
    isDots piece ↔
      String.ofList piece = "." ∨ String.ofList piece = ".." := by
  simp only [isDots, Bool.or_eq_true, beq_iff_eq, ← String.toList_inj,
    String.toList_ofList]
  rfl

/-- No name between the slashes is a dot name exactly if no part is one. -/
theorem find?_isDots_eq_none_iff
    {rest : List Char}
    (slash : text.toList = '/' :: rest) :
    (namesOf rest).find? isDots = none ↔
      ∀ part ∈ parts text, part ≠ "." ∧ part ≠ ".." := by
  rw [List.find?_eq_none, parts_of_slash slash]
  constructor
  · intro plain part member
    rcases List.mem_cons.mp member with rfl | among
    · decide
    · rcases List.mem_map.mp among with ⟨piece, there, rfl⟩
      cases piece with
      | nil => decide
      | cons first others =>
          have named : first :: others ∈ namesOf rest :=
            List.mem_filter.mpr ⟨there, rfl⟩
          exact not_or.mp (mt isDots_iff.mpr (plain _ named))
  · intro plain name named
    have among := List.mem_map_of_mem (f := String.ofList)
      (List.mem_filter.mp named).1
    exact mt isDots_iff.mp
      (not_or.mpr (plain _ (List.mem_cons_of_mem _ among)))

/-- A text is read as a path exactly if it begins with a slash and no part of
it is a dot name, and the path has the parts that are not empty for names. -/
theorem parse_eq_ok_iff :
    parse text = .ok path ↔
      text.toList.head? = some '/' ∧
        (∀ part ∈ parts text, part ≠ "." ∧ part ≠ "..") ∧
          path.names = filledParts text := by
  by_cases absolute : text.toList.head? = some '/'
  · rcases List.head?_eq_some_iff.mp absolute with ⟨rest, slash⟩
    rw [← find?_isDots_eq_none_iff slash, filledParts_of_slash slash, parse,
      slash]
    cases found : (namesOf rest).find? isDots with
    | some name => simp [found]
    | none =>
        rcases path with ⟨names⟩
        simp [found, eq_comm]
  · have refused : parse text =
        .error (.invalidPath (text ++ ": not absolute")) := by
      unfold parse
      split
      · rename_i slash
        exact absurd (congrArg List.head? slash) absolute
      · rfl
    simp [refused, absolute]

theorem names_of_parse
    (parsed : parse text = .ok path) :
    path.names = filledParts text :=
  (parse_eq_ok_iff.mp parsed).2.2

/-- The names of a path that was read are names. -/
theorem isName_of_parse
    (parsed : parse text = .ok path) :
    ∀ name ∈ path.names, IsName name := by
  intro name member
  rcases proper_of_parse parsed name member with ⟨some, slashless⟩
  rcases parse_eq_ok_iff.mp parsed with ⟨-, plain, names⟩
  rw [names] at member
  exact ⟨some, slashless, plain name (List.mem_filter.mp member).1⟩

/-! ## Displayed forms -/

theorem parts_render
    (named : ∀ name ∈ names, IsName name) :
    parts (render ⟨names⟩) =
      "" :: if names = [] then [""] else names := by
  rw [parts, Text.splitOn_eq_pieces, toList_render]
  split
  · rfl
  · rw [pieces_slashed fun name member => (named name member).2.1]
    simp

/-- The displayed form of a path with names is read as the path. -/
theorem parse_render
    (named : ∀ name ∈ path.names, IsName name) :
    parse path.render = .ok path := by
  rcases path with ⟨names⟩
  have split := parts_render named
  refine parse_eq_ok_iff.mpr ⟨?_, ?_, ?_⟩
  · rw [toList_render]
    cases names <;> rfl
  · rw [split]
    intro part member
    by_cases empty : names = []
    · simp [empty] at member
      simp [member]
    · rw [if_neg empty] at member
      rcases List.mem_cons.mp member with rfl | among
      · decide
      · exact (named part among).2.2
  · rw [filledParts, split]
    by_cases empty : names = []
    · subst empty
      rfl
    · rw [if_neg empty, List.filter_cons_of_neg (by simp),
        List.filter_eq_self.mpr]
      exact fun name member => decide_eq_true (named name member).1

/-- Two texts that are read have one displayed form exactly if the same parts
of them are not empty. -/
theorem render_eq_iff
    {otherPath : Path}
    (parsed : parse text = .ok path)
    (parsedOther : parse other = .ok otherPath) :
    path.render = otherPath.render ↔ filledParts text = filledParts other := by
  rw [← names_of_parse parsed, ← names_of_parse parsedOther]
  constructor
  · intro same
    exact congrArg Path.names ((proper_of_parse parsed).render_injective
      (proper_of_parse parsedOther) same)
  · intro same
    rcases path with ⟨names⟩
    rcases otherPath with ⟨others⟩
    exact congrArg (fun names => render ⟨names⟩) same

end Path

/-! ## Places below a root -/

namespace Host

open Strata.Path (IsName)

variable
  {above names : List String}
  {path : Path}

theorem toList_absolute
    (names : List String) :
    (absolute names).toList = '/' :: (Path.relative ⟨names⟩).toList :=
  String.toList_append

theorem slashed_eq_absolute
    (some : names ≠ []) :
    Path.slashed names = (absolute names).toList := by
  rw [toList_absolute, toList_relative, Path.slashed_eq_cons_joined some]

theorem absolute_eq_render
    (names : List String) :
    absolute names = Path.render ⟨names⟩ := by
  rw [← String.toList_inj, Path.toList_render]
  split
  · rename_i empty
    obtain rfl : names = [] := empty
    rfl
  · rename_i some
    exact (slashed_eq_absolute some).symm

theorem proper_of_named
    (named : ∀ name ∈ path.names, IsName name) :
    path.Proper :=
  fun name member => ⟨(named name member).1, (named name member).2.1⟩

/-- Below the root of the host, the place of a path is its absolute form. -/
theorem resolve_root
    (named : ∀ name ∈ names, IsName name) :
    Devices.resolve "/" ⟨names⟩ = absolute names := by
  have relative : isAbsolute (Path.relative ⟨names⟩) = false :=
    isAbsolute_relative (proper_of_named named)
  rw [Devices.resolve, join, if_neg (by simp [relative]), if_pos (by decide)]
  rfl

theorem endsInSlash_absolute
    (named : ∀ name ∈ names, IsName name)
    (some : names ≠ []) :
    endsInSlash (absolute names) = false := by
  rcases List.eq_nil_or_concat' names with rfl | ⟨front, name, rfl⟩
  · exact absurd rfl some
  · have place := resolve_root named
    have proper : (Path.child ⟨front⟩ name).Proper := proper_of_named named
    rw [← place]
    exact endsInSlash_place rfl proper

theorem namesOf_absolute
    (named : ∀ name ∈ names, IsName name) :
    namesOf (absolute names) = names := by
  rw [← resolve_root named]
  exact namesOf_place rfl (proper_of_named named)

/-- The place of a path below a root has the names of the root and then those
of the path. -/
theorem resolve_absolute
    (namedAbove : ∀ name ∈ above, IsName name)
    (named : ∀ name ∈ path.names, IsName name)
    (some : path.names ≠ []) :
    Devices.resolve (absolute above) path = absolute (above ++ path.names) := by
  have proper := proper_of_named named
  have behind : '/' :: path.relative.toList = Path.slashed path.names :=
    (toList_absolute path.names).symm.trans (slashed_eq_absolute some).symm
  have given : absolute above ≠ "" := by
    rw [Ne, ← String.toList_eq_nil_iff, toList_absolute]
    exact List.cons_ne_nil _ _
  have joined : Devices.resolve (absolute above) path =
      if endsInSlash (absolute above) then absolute above ++ path.relative
      else absolute above ++ "/" ++ path.relative := by
    rw [Devices.resolve, join, if_neg]
    simp [isAbsolute_relative proper, given]
  rw [← String.toList_inj, ← slashed_eq_absolute (by simp [some]),
    Path.slashed_append, ← behind, joined]
  by_cases empty : above = []
  · subst empty
    rw [if_pos (by decide), String.toList_append]
    rfl
  · rw [endsInSlash_absolute namedAbove empty, if_neg Bool.false_ne_true,
      String.toList_append, String.toList_append, slashed_eq_absolute empty,
      List.append_assoc]
    rfl

/-- Whether a text is the only path of its kind to a directory: absolute,
without dot names, and with one slash before each name. -/
def IsCanonical
    (root : String) :
    Prop :=
  (∀ name ∈ namesOf root, IsName name) ∧ absolute (namesOf root) = root

instance (root : String) : Decidable (IsCanonical root) :=
  inferInstanceAs (Decidable (_ ∧ _))

theorem isCanonical_absolute
    (named : ∀ name ∈ names, IsName name) :
    IsCanonical (absolute names) := by
  rw [IsCanonical, namesOf_absolute named]
  exact ⟨named, rfl⟩

theorem Tidy.isName_of_isWay
    {host : Host}
    (tidy : host.Tidy)
    {way : List (String × NodeId)}
    (chained : host.IsWay way) :
    ∀ name ∈ trailOf way, IsName name := by
  induction way with
  | nil => exact fun _ member => nomatch member
  | cons step way ih =>
      rcases chained with ⟨held, -, chained⟩
      have split : trailOf (step :: way) = trailOf way ++ [step.1] :=
        List.reverse_cons
      rw [split]
      exact List.forall_mem_append.mpr ⟨ih chained,
        List.forall_mem_singleton.mpr (tidy.of_child held).1.1⟩

/-- What a host in order gives as the absolute path of an object is
canonical. -/
theorem Tidy.isCanonical
    {host : Host}
    (tidy : host.Tidy)
    {place root : String}
    (known : host.canonical place = .ok root) :
    IsCanonical root := by
  unfold canonical at known
  cases resolved : host.resolve place true with
  | error error =>
      rw [resolved] at known
      cases known
  | ok id =>
      cases located : host.locate place true with
      | error error =>
          rw [resolved, located] at known
          cases known
      | ok found =>
          rw [resolved, located] at known
          rcases tidy.exists_end located with ⟨last, chained, -, ends⟩
          have named := tidy.isName_of_isWay chained
          cases ends with
          | directory =>
              cases known
              exact isCanonical_absolute named
          | free =>
              cases known
              exact isCanonical_absolute named
          | entry budget slash plain held =>
              cases known
              exact isCanonical_absolute (List.forall_mem_append.mpr ⟨named,
                List.forall_mem_singleton.mpr (tidy.of_child held).1.1⟩)

/-- A device directory is opened at a canonical root. -/
theorem Tidy.openRoot
    {host final : Host}
    (tidy : host.Tidy)
    {place root : String}
    (opened : (openRoot place).execute host = (.ok root, final)) :
    final.Tidy ∧ IsCanonical root := by
  have made := tidy.makeDirectories place
  unfold Host.openRoot at opened
  rw [HostAction.execute_bind] at opened
  rcases ran : (Host.makeDirectories place).execute host with ⟨_ | _, reached⟩
  · rw [ran] at opened
    cases opened
  · rw [ran] at made opened
    rcases Prod.mk.inj opened with ⟨known, rfl⟩
    exact ⟨made, Tidy.isCanonical made known⟩

end Host

namespace Coder

open Strata.Path (IsName)

/-- What a path is stored under has names as well. -/
theorem isName_devicePath
    {path : Path}
    (named : ∀ name ∈ path.names, IsName name)
    (some : path.names ≠ [])
    (coder : Coder)
    (device : Nat) :
    (∀ name ∈ (coder.devicePath path device).names, IsName name) ∧
      (coder.devicePath path device).names ≠ [] := by
  rcases path with ⟨names⟩
  rcases List.eq_nil_or_concat' names with rfl | ⟨front, name, rfl⟩
  · exact absurd rfl some
  · have stored : coder.devicePath ⟨front ++ [name]⟩ device =
        Path.child ⟨front⟩ (name ++ coder.ending device) :=
      coder.devicePath_child ⟨front⟩ name device
    rcases List.forall_mem_append.mp named with ⟨above, last⟩
    rw [stored]
    refine ⟨List.forall_mem_append.mpr ⟨above, ?_⟩, by simp [Path.child]⟩
    rw [List.forall_mem_singleton] at last ⊢
    exact isName_ending last coder device

end Coder

/--
A text is read as a path exactly if it begins with a slash and no part of it is
a dot name.  The path then has the parts that are not empty for names, its
displayed form is read as the same path, and two texts have one displayed form
exactly if these parts agree.  Whatever coder stores the path on whatever
device, the place of the file has the names of the root and behind them at
least one more, and all of them are names.
-/
theorem Path.parse_canonical_confined
    (text : String) :
    ((∃ path, Path.parse text = .ok path) ↔
      text.toList.head? = some '/' ∧
        ∀ part ∈ Path.parts text, part ≠ "." ∧ part ≠ "..") ∧
    ∀ path, Path.parse text = .ok path →
      path.names = Path.filledParts text ∧
      Path.parse path.render = .ok path ∧
      (∀ other otherPath, Path.parse other = .ok otherPath →
        (path.render = otherPath.render ↔
          Path.filledParts text = Path.filledParts other)) ∧
      (path ≠ Path.root →
        ∀ (coder : Coder) (device : Nat) (place : String),
          Host.IsCanonical place →
            ∃ below, below ≠ [] ∧
              coder.devicePath path device = ⟨below⟩ ∧
              Path.parts (Devices.resolve place ⟨below⟩) =
                "" :: (Host.namesOf place ++ below) ∧
              ∀ name ∈ Host.namesOf place ++ below, Path.IsName name) := by
  refine ⟨?_, fun path parsed => ⟨Path.names_of_parse parsed,
    Path.parse_render (Path.isName_of_parse parsed),
    fun other otherPath parsedOther => Path.render_eq_iff parsed parsedOther,
    ?_⟩⟩
  · constructor
    · rintro ⟨path, parsed⟩
      rcases Path.parse_eq_ok_iff.mp parsed with ⟨absolute, plain, -⟩
      exact ⟨absolute, plain⟩
    · rintro ⟨absolute, plain⟩
      exact ⟨⟨Path.filledParts text⟩,
        Path.parse_eq_ok_iff.mpr ⟨absolute, plain, rfl⟩⟩
  · rintro below coder device place ⟨namedAbove, whole⟩
    have some : path.names ≠ [] := by
      rcases path with ⟨names⟩
      exact fun empty => below (congrArg Path.mk empty)
    rcases Coder.isName_devicePath (Path.isName_of_parse parsed) some coder
      device with ⟨named, stored⟩
    have all := List.forall_mem_append.mpr ⟨namedAbove, named⟩
    refine ⟨_, stored, rfl, ?_, all⟩
    have place := Host.resolve_absolute namedAbove named stored
    rw [whole] at place
    rw [place, Host.absolute_eq_render, Path.parts_render all,
      if_neg (by simp [stored])]

/-- A path with names that begin and end in dots, and what the third device of
a code stores it under. -/
theorem Path.parse_canonical_confined_of_dotted_name :
    let coder : Coder := .erasure { code := ⟨2, 1, [[3, 2]]⟩ }
    Path.parse "/docs//..report./" = .ok ⟨["docs", "..report."]⟩ ∧
      Path.parse "/docs/..report." = .ok ⟨["docs", "..report."]⟩ ∧
      ¬ (∃ path, Path.parse "/docs/../report" = .ok path) ∧
      ∃ below, below ≠ [] ∧
        coder.devicePath ⟨["docs", "..report."]⟩ 2 = ⟨below⟩ ∧
        Path.parts (Devices.resolve "/second" ⟨below⟩) =
          "" :: "second" :: below ∧
        ∀ name ∈ "second" :: below, Path.IsName name := by
  intro coder
  have parsed : Path.parse "/docs//..report./" =
      .ok ⟨["docs", "..report."]⟩ := by
    decide +kernel
  rcases (Path.parse_canonical_confined "/docs//..report./").2 _ parsed with
    ⟨-, displayed, -, confined⟩
  refine ⟨parsed, displayed, ?_, confined (by decide) coder 2 "/second"
    (by decide +kernel)⟩
  rw [(Path.parse_canonical_confined "/docs/../report").1]
  decide +kernel

end Strata
