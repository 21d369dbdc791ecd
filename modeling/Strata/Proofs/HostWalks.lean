import Mathlib.Logic.Relation
import Strata.Proofs.HostNames

/-!
# Walks on the host

A walk passes one name after the other and ends at a directory, at a name that
is taken, or at one that is free.  A walk that succeeds is one that passes
names until it ends, so that what is known of one step is known of a walk:
it goes on in the same way if there are more names behind, and the way that
was come is a chain of directories from the root.
-/

namespace Strata.Host

/-- Where a walk stands. -/
structure Walker where
  /-- How many links may still be followed. -/
  budget : Nat
  way : List (String × NodeId)
  /-- The names that are to be followed. -/
  ahead : List String
  slash : Bool

variable
  {host : Host}
  {follow : Bool}
  {walker next last : Walker}
  {found : Found}
  {name : String}
  {id : NodeId}

/-- Whether a name is followed as what it is, up or nowhere. -/
def IsPlain
    (name : String) :
    Prop :=
  name ≠ "." ∧ name ≠ ".."

instance (name : String) : Decidable (IsPlain name) :=
  inferInstanceAs (Decidable (_ ∧ _))

/-- The walk from where a walker stands. -/
def Walker.run
    (walker : Walker)
    (host : Host)
    (follow : Bool) :
    Except HostError Found :=
  walk host follow walker.budget walker.way walker.ahead walker.slash

/-- One name is passed.  A directory is entered only if there are more names,
and so is a link unless it is to be followed at the end as well. -/
inductive Passes
    (host : Host)
    (follow : Bool) :
    Walker → Walker → Prop
  | stay
      (budget : Nat)
      (way : List (String × NodeId))
      (rest : List String)
      (slash : Bool) :
      Passes host follow ⟨budget, way, "." :: rest, slash⟩
        ⟨budget, way, rest, slash⟩
  | up
      (budget : Nat)
      (way : List (String × NodeId))
      (rest : List String)
      (slash : Bool) :
      Passes host follow ⟨budget, way, ".." :: rest, slash⟩
        ⟨budget, way.tail, rest, slash⟩
  | enter
      (budget : Nat)
      {way : List (String × NodeId)}
      {rest : List String}
      {name : String}
      {id : NodeId}
      (slash : Bool)
      (plain : IsPlain name)
      (held : host.child (here way) name = .ok (some id))
      (directory : host.isDirectory id)
      (more : rest ≠ []) :
      Passes host follow ⟨budget, way, name :: rest, slash⟩
        ⟨budget, (name, id) :: way, rest, slash⟩
  | link
      (budget : Nat)
      {way : List (String × NodeId)}
      {rest : List String}
      {name target : String}
      {id : NodeId}
      (slash : Bool)
      (plain : IsPlain name)
      (held : host.child (here way) name = .ok (some id))
      (told : (host.node id).body = .symlink target)
      (more : rest ≠ [] ∨ follow) :
      Passes host follow ⟨budget + 1, way, name :: rest, slash⟩
        ⟨budget, if isAbsolute target then [] else way,
          namesOf target ++ rest,
          slash || (rest.isEmpty && endsInSlash target)⟩

/-- A walk ends where it stands. -/
inductive Ends
    (host : Host)
    (follow : Bool) :
    Walker → Found → Prop
  | directory
      (budget : Nat)
      (way : List (String × NodeId))
      (slash : Bool) :
      Ends host follow ⟨budget, way, [], slash⟩
        ⟨.directory (here way), trailOf way, slash⟩
  | free
      (budget : Nat)
      {way : List (String × NodeId)}
      {name : String}
      (slash : Bool)
      (plain : IsPlain name)
      (held : host.child (here way) name = .ok none) :
      Ends host follow ⟨budget, way, [name], slash⟩
        ⟨.free (here way) name, trailOf way, slash⟩
  | entry
      (budget : Nat)
      {way : List (String × NodeId)}
      {name : String}
      {id : NodeId}
      (slash : Bool)
      (plain : IsPlain name)
      (held : host.child (here way) name = .ok (some id))
      (kept : ∀ target, (host.node id).body = .symlink target →
        follow = false) :
      Ends host follow ⟨budget, way, [name], slash⟩
        ⟨.entry (here way) name id, trailOf way, slash⟩

/-- Some names are passed one after the other. -/
abbrev Leads
    (host : Host)
    (follow : Bool) :
    Walker → Walker → Prop :=
  Relation.ReflTransGen (Passes host follow)

theorem isDirectory_iff :
    host.isDirectory id ↔
      ∃ entries, (host.node id).body = .directory entries := by
  unfold isDirectory
  cases (host.node id).body <;> simp [Body.kind]

/-- Passing a name does not change where a walk ends. -/
theorem Passes.run_eq
    (passes : host.Passes follow walker next) :
    walker.run host follow = next.run host follow := by
  cases passes with
  | stay => rw [Walker.run, walk, if_pos rfl, Walker.run]
  | up => rw [Walker.run, walk, if_neg (by decide), if_pos rfl, Walker.run]
  | enter budget slash plain held directory more =>
      rcases isDirectory_iff.mp directory with ⟨entries, body⟩
      rw [Walker.run, walk, if_neg plain.1, if_neg plain.2, held]
      simp [body, more, Walker.run]
  | link budget slash plain held told more =>
      rw [Walker.run, walk, if_neg plain.1, if_neg plain.2, held]
      dsimp only
      rw [told]
      dsimp only
      rw [if_neg (by simpa [Decidable.imp_iff_not_or] using more), Walker.run]

theorem Ends.run_eq
    (ends : host.Ends follow walker found) :
    walker.run host follow = .ok found := by
  cases ends with
  | directory => rw [Walker.run, walk]
  | free budget slash plain held =>
      rw [Walker.run, walk, if_neg plain.1, if_neg plain.2, held]
      rfl
  | @entry budget way name id slash plain held kept =>
      rw [Walker.run, walk, if_neg plain.1, if_neg plain.2, held]
      cases body : (host.node id).body with
      | symlink target => simp [body, kept target body]
      | _ => simp [body]

theorem Leads.run_eq
    (leads : host.Leads follow walker last) :
    walker.run host follow = last.run host follow := by
  induction leads with
  | refl => rfl
  | tail _ passes ih => exact ih.trans passes.run_eq

/-- A walk that succeeds passes names until it ends. -/
theorem run_eq_ok_iff :
    walker.run host follow = .ok found ↔
      ∃ last, host.Leads follow walker last ∧ host.Ends follow last found := by
  constructor
  · intro ran
    rcases walker with ⟨budget, way, ahead, slash⟩
    unfold Walker.run at ran
    dsimp only at ran
    fun_induction walk host follow budget way ahead slash with
    | case1 budget way slash =>
        cases ran
        exact ⟨_, .refl, .directory ..⟩
    | case2 budget way slash rest ih =>
        rcases ih ran with ⟨last, leads, ends⟩
        exact ⟨last, .head (.stay ..) leads, ends⟩
    | case3 budget way slash rest _ ih =>
        rcases ih ran with ⟨last, leads, ends⟩
        exact ⟨last, .head (.up ..) leads, ends⟩
    | case4 => cases ran
    | case5 budget way slash name rest stays ups held alone =>
        cases ran
        obtain rfl := List.isEmpty_iff.mp alone
        exact ⟨_, .refl, .free _ _ ⟨stays, ups⟩ held⟩
    | case6 => cases ran
    | case7 budget way slash name rest stays ups id held target told alone =>
        cases ran
        obtain rfl := List.isEmpty_iff.mp alone.1
        exact ⟨_, .refl, .entry _ _ ⟨stays, ups⟩ held
          fun _ _ => by simpa using alone.2⟩
    | case8 => cases ran
    | case9 way slash name rest stays ups id held target told more budget
        ih =>
        rcases ih ran with ⟨last, leads, ends⟩
        exact ⟨last, .head (.link _ _ ⟨stays, ups⟩ held told
          (by simpa [Decidable.imp_iff_not_or] using more)) leads, ends⟩
    | case10 budget way slash name rest stays ups id held entries body alone =>
        cases ran
        obtain rfl := List.isEmpty_iff.mp alone
        exact ⟨_, .refl, .entry _ _ ⟨stays, ups⟩ held
          fun target told => by rw [body] at told; cases told⟩
    | case11 budget way slash name rest stays ups id held entries body more
        ih =>
        rcases ih ran with ⟨last, leads, ends⟩
        exact ⟨last, .head (.enter _ _ ⟨stays, ups⟩ held
          (isDirectory_iff.mpr ⟨entries, body⟩) (by simpa using more)) leads,
            ends⟩
    | case12 budget way slash name rest stays ups id held alone link _ =>
        cases ran
        obtain rfl := List.isEmpty_iff.mp alone
        exact ⟨_, .refl, .entry _ _ ⟨stays, ups⟩ held
          fun target told => (link target told).elim⟩
    | case13 => cases ran
  · rintro ⟨last, leads, ends⟩
    rw [leads.run_eq, ends.run_eq]

/-- What is passed without following a link at the end is passed as well if
links are to be followed there. -/
theorem Passes.following
    (passes : host.Passes false walker next)
    (follow : Bool) :
    host.Passes follow walker next := by
  cases passes with
  | stay => exact .stay ..
  | up => exact .up ..
  | enter budget slash plain held directory more =>
      exact .enter budget slash plain held directory more
  | link budget slash plain held told more =>
      exact .link budget slash plain held told
        (.inl (more.resolve_right Bool.false_ne_true))

/-! ## More names behind -/

/-- The same walk with more names behind those ahead. -/
def Walker.onto
    (walker : Walker)
    (more : List String)
    (slash : Bool) :
    Walker :=
  ⟨walker.budget, walker.way, walker.ahead ++ more, slash⟩

/-- A link at the end is followed as well if there are more names. -/
theorem Passes.onto
    {more : List String}
    (passes : host.Passes follow walker next)
    (some : more ≠ [])
    (other slash : Bool) :
    host.Passes other (walker.onto more slash) (next.onto more slash) := by
  have behind (rest : List String) : rest ++ more ≠ [] :=
    List.append_ne_nil_of_right_ne_nil _ some
  cases passes with
  | stay => exact .stay ..
  | up => exact .up ..
  | enter budget _ plain held directory _ =>
      exact .enter budget slash plain held directory (behind _)
  | @link budget way rest _ target _ _ plain held told _ =>
      have passed : host.Passes other _ _ :=
        .link budget slash plain held told (.inl (behind rest))
      have nonempty : (rest ++ more).isEmpty = false := by
        simpa using behind rest
      rw [nonempty, Bool.false_and, Bool.or_false, ← List.append_assoc]
        at passed
      exact passed

theorem Leads.onto
    {more : List String}
    (leads : host.Leads follow walker last)
    (some : more ≠ [])
    (other slash : Bool) :
    host.Leads other (walker.onto more slash) (last.onto more slash) := by
  induction leads with
  | refl => exact .refl
  | tail _ passes ih => exact ih.tail (passes.onto some other slash)

/-- The object at the end of a walk, if there is one. -/
def Place.id? :
    Place → Option NodeId
  | .directory id => some id
  | .entry _ _ id => some id
  | .free _ _ => none

/-- What is behind a directory is looked for there. -/
theorem Leads.into
    {more : List String}
    (ran : walker.run host true = .ok found)
    (reached : found.place.id? = some id)
    (directory : host.isDirectory id)
    (some : more ≠ [])
    (other slash : Bool) :
    ∃ budget way, here way = id ∧
      host.Leads other (walker.onto more slash) ⟨budget, way, more, slash⟩ := by
  rcases run_eq_ok_iff.mp ran with ⟨last, leads, ends⟩
  have onward := leads.onto some other slash
  cases ends with
  | directory budget way =>
      exact ⟨budget, way, Option.some.inj reached, onward⟩
  | free => cases reached
  | @entry budget way name child _ plain held =>
      obtain rfl := Option.some.inj reached
      exact ⟨budget, (name, child) :: way, rfl,
        onward.tail (.enter budget slash plain held directory some)⟩

/-! ## The last name -/

/-- Where a name is passed on the way to a last one, it is a name before. -/
theorem Passes.front_split
    {front : List String}
    (passes : host.Passes false walker next)
    (ahead : walker.ahead = front ++ [name])
    (plain : IsPlain name) :
    ∃ first rest, front = first :: rest ∧
      walker.ahead = first :: (rest ++ [name]) := by
  cases front with
  | cons first rest => exact ⟨first, rest, rfl, ahead⟩
  | nil =>
      exfalso
      cases passes with
      | stay => exact plain.1 (List.cons.inj ahead).1.symm
      | up => exact plain.2 (List.cons.inj ahead).1.symm
      | enter budget slash _ held directory more =>
          exact more (List.cons.inj ahead).2
      | link budget slash _ held told more =>
          exact more.elim (fun more => more (List.cons.inj ahead).2)
            Bool.false_ne_true

/-- The last name stays the last one until it is reached. -/
theorem Passes.keeps_last
    {front : List String}
    (passes : host.Passes false walker next)
    (ahead : walker.ahead = front ++ [name])
    (plain : IsPlain name) :
    next.slash = walker.slash ∧ ∃ front, next.ahead = front ++ [name] := by
  rcases passes.front_split ahead plain with ⟨first, rest, -, split⟩
  cases passes with
  | stay => exact ⟨rfl, rest, List.tail_eq_of_cons_eq split⟩
  | up => exact ⟨rfl, rest, List.tail_eq_of_cons_eq split⟩
  | enter => exact ⟨rfl, rest, List.tail_eq_of_cons_eq split⟩
  | @link _ _ others _ target _ _ _ _ _ more =>
      have behind : others = rest ++ [name] := List.tail_eq_of_cons_eq split
      refine ⟨by simp [behind], namesOf target ++ rest, ?_⟩
      dsimp only
      rw [behind, List.append_assoc]

/-- A walk to a last name ends there. -/
theorem exists_last_of_run
    {front : List String}
    (ran : walker.run host false = .ok found)
    (ahead : walker.ahead = front ++ [name])
    (plain : IsPlain name) :
    ∃ budget way,
      host.Leads false walker ⟨budget, way, [name], walker.slash⟩ ∧
        host.Ends false ⟨budget, way, [name], walker.slash⟩ found := by
  rcases run_eq_ok_iff.mp ran with ⟨last, leads, ends⟩
  have kept : last.slash = walker.slash ∧
      ∃ front, last.ahead = front ++ [name] := by
    clear ran ends
    induction leads with
    | refl => exact ⟨rfl, front, ahead⟩
    | tail _ passes ih =>
        rcases ih with ⟨slash, front, ahead⟩
        exact (passes.keeps_last ahead plain).imp_left (·.trans slash)
  rcases last with ⟨budget, way, names, slash⟩
  obtain ⟨rfl, front, rfl⟩ := kept
  have alone : front = [] := by
    cases front with
    | nil => rfl
    | cons first rest =>
        exfalso
        generalize split : first :: rest ++ [name] = names at ends
        cases ends with
        | directory => cases split
        | free => simp at split
        | entry => simp at split
  subst alone
  exact ⟨budget, way, leads, ends⟩

/-- A way to a last name is a way to the directory that holds it. -/
theorem Leads.run_front
    {front : List String}
    (leads : host.Leads false walker last)
    (ahead : walker.ahead = front ++ [name])
    (alone : last.ahead = [name])
    (plain : IsPlain name)
    (slash : Bool) :
    ∃ found,
      (Walker.mk walker.budget walker.way front slash).run host true =
          .ok found ∧
        found.place.id? = some (here last.way) := by
  induction leads using Relation.ReflTransGen.head_induction_on
    generalizing front slash with
  | refl =>
      have nothing : front = [] := by
        simpa [alone] using ahead
      subst nothing
      exact ⟨_, (Ends.directory _ _ _).run_eq, rfl⟩
  | head passes leads ih =>
      rcases passes.front_split ahead plain with ⟨first, rest, rfl, split⟩
      cases passes with
      | stay budget way others =>
          obtain ⟨rfl, behind⟩ := List.cons.inj split
          rw [(Passes.stay budget way rest slash).run_eq]
          exact ih behind slash
      | up budget way others =>
          obtain ⟨rfl, behind⟩ := List.cons.inj split
          rw [(Passes.up budget way rest slash).run_eq]
          exact ih behind slash
      | @enter budget way others entered id _ named held directory more =>
          obtain ⟨rfl, behind⟩ := List.cons.inj split
          rcases ih behind slash with ⟨found, ran, reached⟩
          by_cases empty : rest = []
          · subst empty
            have ended := (Ends.directory budget _ slash).run_eq.symm.trans ran
            obtain rfl := Except.ok.inj ended
            refine ⟨_, (Ends.entry budget slash named held ?_).run_eq,
              reached⟩
            intro target told
            rcases isDirectory_iff.mp directory with ⟨entries, body⟩
            rw [body] at told
            cases told
          · rw [(Passes.enter budget slash named held directory empty).run_eq]
            exact ⟨found, ran, reached⟩
      | @link budget way others entered target id _ named held told more =>
          obtain ⟨rfl, behind⟩ := List.cons.inj split
          subst behind
          rw [(Passes.link budget slash named held told (.inr rfl)).run_eq]
          exact ih (List.append_assoc ..).symm _

/-! ## Names in directories -/

theorem child_eq_ok_iff
    {directory : NodeId}
    {child : Option NodeId} :
    host.child directory name = .ok child ↔
      host.isDirectory directory ∧ name.utf8ByteSize ≤ nameLimit ∧
        (host.entries directory).find? name = child := by
  unfold Host.child
  cases host.isDirectory directory
  · simp
  · by_cases long : nameLimit < name.utf8ByteSize
    · simp [long, Nat.not_le_of_lt long]
    · simp [long, Nat.le_of_not_lt long]

/-- What a directory has under a name, as the end of a walk. -/
def spot
    (host : Host)
    (parent : NodeId)
    (name : String) :
    Place :=
  match (host.entries parent).find? name with
  | some id => .entry parent name id
  | none => .free parent name

/-- A walk without following a link at the end looks for the last name. -/
theorem Ends.spot
    {budget : Nat}
    {way : List (String × NodeId)}
    {slash : Bool}
    (ends : host.Ends false ⟨budget, way, [name], slash⟩ found) :
    host.isDirectory (here way) ∧ name.utf8ByteSize ≤ nameLimit ∧
      found = ⟨host.spot (here way) name, trailOf way, slash⟩ := by
  cases ends with
  | free _ _ _ held =>
      rcases child_eq_ok_iff.mp held with ⟨directory, short, absent⟩
      exact ⟨directory, short, by rw [Host.spot, absent]⟩
  | entry _ _ _ held =>
      rcases child_eq_ok_iff.mp held with ⟨directory, short, present⟩
      exact ⟨directory, short, by rw [Host.spot, present]⟩

theorem ends_spot
    {budget : Nat}
    {way : List (String × NodeId)}
    {slash : Bool}
    (directory : host.isDirectory (here way))
    (short : name.utf8ByteSize ≤ nameLimit)
    (plain : IsPlain name) :
    host.Ends false ⟨budget, way, [name], slash⟩
      ⟨host.spot (here way) name, trailOf way, slash⟩ := by
  unfold Host.spot
  cases held : (host.entries (here way)).find? name with
  | none =>
      exact .free _ _ plain (child_eq_ok_iff.mpr ⟨directory, short, held⟩)
  | some id =>
      exact .entry _ _ plain (child_eq_ok_iff.mpr ⟨directory, short, held⟩)
        fun _ _ => rfl

/-! ## Places -/

/-- The walker at the beginning of a path. -/
def start
    (host : Host)
    (place : String) :
    Walker where
  budget := linkBudget
  way := []
  ahead :=
    if isAbsolute place then namesOf place else host.home ++ namesOf place
  slash := endsInSlash place

/-- A place seeks its last name in the directory at the head of a way. -/
structure Seeks
    (host : Host)
    (place : String)
    (way : List (String × NodeId))
    (name : String) :
    Prop where
  taken : pathFault? place = none
  leads : ∃ budget, host.Leads false (host.start place)
    ⟨budget, way, [name], endsInSlash place⟩
  plain : IsPlain name
  directory : host.isDirectory (here way)
  short : name.utf8ByteSize ≤ nameLimit

variable
  {place : String}
  {way : List (String × NodeId)}

theorem locate_eq_run
    (taken : pathFault? place = none) :
    host.locate place follow = (host.start place).run host follow := by
  unfold Host.locate
  rw [taken]
  rfl

theorem locate_eq_ok_iff :
    host.locate place follow = .ok found ↔
      pathFault? place = none ∧
        (host.start place).run host follow = .ok found := by
  cases taken : pathFault? place with
  | none => simp [locate_eq_run taken]
  | some fault => simp [Host.locate, taken]

theorem Seeks.locate
    (seeks : host.Seeks place way name) :
    host.locate place false =
      .ok ⟨host.spot (here way) name, trailOf way, endsInSlash place⟩ := by
  rcases seeks.leads with ⟨budget, leads⟩
  exact locate_eq_ok_iff.mpr ⟨seeks.taken, run_eq_ok_iff.mpr
    ⟨_, leads, ends_spot seeks.directory seeks.short seeks.plain⟩⟩

/-- A name that is free is found to be free whether links are followed or
not. -/
theorem Seeks.locate_free
    (seeks : host.Seeks place way name)
    (absent : (host.entries (here way)).find? name = none)
    (follow : Bool) :
    host.locate place follow =
      .ok ⟨.free (here way) name, trailOf way, endsInSlash place⟩ := by
  rcases seeks.leads with ⟨budget, leads⟩
  refine locate_eq_ok_iff.mpr ⟨seeks.taken, run_eq_ok_iff.mpr
    ⟨_, leads.lift id fun _ _ passes => passes.following follow, ?_⟩⟩
  exact .free _ _ seeks.plain
    (child_eq_ok_iff.mpr ⟨seeks.directory, seeks.short, absent⟩)

/-- A place that is found seeks the last of its names. -/
theorem exists_seeks_of_locate
    {front : List String}
    (located : host.locate place false = .ok found)
    (names : namesOf place = front ++ [name])
    (plain : IsPlain name) :
    ∃ way, host.Seeks place way name ∧
      found = ⟨host.spot (here way) name, trailOf way, endsInSlash place⟩ := by
  rcases locate_eq_ok_iff.mp located with ⟨taken, ran⟩
  have ahead : ∃ front, (host.start place).ahead = front ++ [name] := by
    unfold Host.start
    rw [names]
    split
    · exact ⟨front, rfl⟩
    · exact ⟨host.home ++ front, (List.append_assoc ..).symm⟩
  rcases ahead with ⟨front, ahead⟩
  rcases exists_last_of_run ran ahead plain with ⟨budget, way, leads, ends⟩
  rcases ends.spot with ⟨directory, short, same⟩
  exact ⟨way, ⟨taken, ⟨budget, leads⟩, plain, directory, short⟩, same⟩

/-! ## Objects -/

theorem locate_of_resolve
    (resolved : host.resolve place follow = .ok id) :
    ∃ found, host.locate place (follow || endsInSlash place) = .ok found ∧
      found.place.id? = some id := by
  unfold Host.resolve at resolved
  cases located : host.locate place (follow || endsInSlash place) with
  | error error =>
      rw [located] at resolved
      cases resolved
  | ok found =>
      rw [located] at resolved
      refine ⟨found, rfl, ?_⟩
      rcases found with ⟨_ | _ | _, trail, slash⟩
      · cases resolved
        rfl
      · simp only [bind, Except.bind] at resolved
        split at resolved
        · cases resolved
        · cases resolved
          rfl
      · cases resolved

theorem resolve_directory
    (located : host.locate place true = .ok found)
    (reached : found.place.id? = some id)
    (directory : host.isDirectory id) :
    host.resolve place true = .ok id := by
  unfold Host.resolve
  rw [Bool.true_or, located]
  rcases found with ⟨_ | _ | _, trail, slash⟩
  · cases reached
    rfl
  · cases reached
    simp [bind, Except.bind, directory, pure, Except.pure]
  · cases reached

theorem Seeks.resolve
    (seeks : host.Seeks place way name)
    (bare : endsInSlash place = false) :
    host.resolve place false =
      match (host.entries (here way)).find? name with
      | some id => .ok id
      | none => .error .notFound := by
  unfold Host.resolve
  rw [Bool.false_or, bare, seeks.locate, bare, Host.spot]
  cases (host.entries (here way)).find? name <;> rfl

variable
  {root : String}
  {path : Path}

theorem start_place
    (absolute : isAbsolute root)
    (proper : path.Proper) :
    host.start (Devices.resolve root path) =
      ⟨linkBudget, [], namesOf root ++ path.names,
        endsInSlash (Devices.resolve root path)⟩ := by
  unfold Host.start
  rw [if_pos (isAbsolute_place absolute path),
    namesOf_place absolute proper]

/-- The way to a directory is the way to what is in it. -/
theorem exists_leads_child
    (absolute : isAbsolute root)
    (proper : (path.child name).Proper)
    (resolved : host.resolve (Devices.resolve root path) true = .ok id)
    (directory : host.isDirectory id) :
    ∃ budget way, here way = id ∧
      host.Leads false (host.start (Devices.resolve root (path.child name)))
        ⟨budget, way, [name],
          endsInSlash (Devices.resolve root (path.child name))⟩ := by
  have above : path.Proper :=
    fun other member => proper other (List.mem_append_left _ member)
  rcases locate_of_resolve resolved with ⟨found, located, reached⟩
  rcases locate_eq_ok_iff.mp located with ⟨-, ran⟩
  have same : (host.start (Devices.resolve root path)).onto [name]
      (endsInSlash (Devices.resolve root (path.child name))) =
        host.start (Devices.resolve root (path.child name)) := by
    rw [start_place absolute above, start_place absolute proper,
      Walker.onto, List.append_assoc]
    rfl
  rw [← same]
  exact Leads.into ran reached directory (List.cons_ne_nil name []) _ _

/-- A name is sought in the directory that is listed. -/
theorem exists_seeks_child
    (absolute : isAbsolute root)
    (proper : (path.child name).Proper)
    (resolved : host.resolve (Devices.resolve root path) true = .ok id)
    (directory : host.isDirectory id)
    (taken : pathFault? (Devices.resolve root (path.child name)) = none)
    (plain : IsPlain name)
    (short : name.utf8ByteSize ≤ nameLimit) :
    ∃ way, here way = id ∧
      host.Seeks (Devices.resolve root (path.child name)) way name := by
  rcases exists_leads_child absolute proper resolved directory with
    ⟨budget, way, rfl, leads⟩
  exact ⟨way, rfl, taken, ⟨budget, leads⟩, plain, directory, short⟩

/-- A name that is too long is not sought at all. -/
theorem resolve_child_of_long
    (absolute : isAbsolute root)
    (proper : (path.child name).Proper)
    (resolved : host.resolve (Devices.resolve root path) true = .ok id)
    (directory : host.isDirectory id)
    (taken : pathFault? (Devices.resolve root (path.child name)) = none)
    (plain : IsPlain name)
    (long : nameLimit < name.utf8ByteSize) :
    host.resolve (Devices.resolve root (path.child name)) false =
      .error .nameTooLong := by
  rcases exists_leads_child absolute proper resolved directory with
    ⟨budget, way, rfl, leads⟩
  have refused : host.child (here way) name = .error .nameTooLong := by
    rw [Host.child, directory, if_pos long]
    rfl
  have located : host.locate (Devices.resolve root (path.child name)) false =
      .error .nameTooLong := by
    rw [locate_eq_run taken, leads.run_eq, Walker.run, walk,
      if_neg plain.1, if_neg plain.2, refused]
  unfold Host.resolve
  rw [Bool.false_or, endsInSlash_place absolute proper, located]
  rfl

/-- The directory that a name is sought in can be listed. -/
theorem Seeks.resolve_parent
    (absolute : isAbsolute root)
    (proper : (path.child name).Proper)
    (seeks : host.Seeks (Devices.resolve root (path.child name)) way name) :
    host.resolve (Devices.resolve root path) true = .ok (here way) := by
  have above : path.Proper :=
    fun other member => proper other (List.mem_append_left _ member)
  rcases seeks.leads with ⟨budget, leads⟩
  have ahead : host.start _ = _ := start_place absolute proper
  rw [ahead] at leads
  rcases leads.run_front (List.append_assoc ..).symm rfl seeks.plain
      (endsInSlash (Devices.resolve root path)) with ⟨found, ran, reached⟩
  refine resolve_directory (locate_eq_ok_iff.mpr ⟨?_, ?_⟩) reached
    seeks.directory
  · rcases exists_place_child absolute proper with ⟨rest, split⟩
    have taken := seeks.taken
    rw [split] at taken
    exact pathFault?_of_append (place_ne_empty absolute path) taken
  · rw [start_place absolute above]
    exact ran

end Strata.Host
