import Mathlib.Algebra.Order.BigOperators.Group.List
import Mathlib.Algebra.Order.Group.Nat
import Strata.Proofs.ConfinedPaths

/-!
# Settled paths

A path is settled without asking the host: each name leads into a directory,
two dots lead out of it again, and at the root they lead nowhere.  A path that
never has more two dots than names behind it settles below whatever directory
it is joined to, and one that has settles elsewhere from some directory.

What is left of a path behind a directory has the names that follow those of
the directory, however many slashes and single dots stand between them.
-/

namespace Strata.Host

open Strata.Path (IsName)

variable
  {above names ahead : List String}
  {root place text : String}

/-! ## Steps of texts -/

/-- The names of a text without single dots. -/
def stepsOf
    (text : List Char) :
    List (List Char) :=
  (Path.namesOf text).filter (· != ['.'])

theorem steps_eq
    (place : String) :
    steps place = (stepsOf place.toList).map String.ofList := by
  rw [steps, namesOf, stepsOf, Path.namesOf, List.filter_map]
  congr 1
  refine List.filter_congr fun piece _ => ?_
  rw [Function.comp_apply, Bool.eq_iff_iff, bne_iff_ne, bne_iff_ne, Ne, Ne,
    ← String.toList_inj, String.toList_ofList]
  rfl

theorem stepsOf_append
    (text rest : List Char) :
    stepsOf (text ++ '/' :: rest) = stepsOf text ++ stepsOf rest := by
  rw [stepsOf, Path.namesOf, Text.pieces_append, List.filter_append,
    List.filter_append]
  rfl

theorem stepsOf_slash
    (rest : List Char) :
    stepsOf ('/' :: rest) = stepsOf rest :=
  stepsOf_append [] rest

theorem stepsOf_dot
    (rest : List Char) :
    stepsOf ('.' :: '/' :: rest) = stepsOf rest :=
  stepsOf_append ['.'] rest

theorem stepsOf_trimFront
    (text : List Char) :
    stepsOf (trimFront text) = stepsOf text := by
  fun_induction trimFront text with
  | case1 rest ih => rw [ih, stepsOf_slash]
  | case2 rest ih => rw [ih, stepsOf_dot]
  | case3 => rfl
  | case4 => rfl

theorem stepsOf_trimBack
    (text : List Char) :
    stepsOf (trimBack text) = stepsOf text := by
  have trimmed (reversed : List Char) :
      stepsOf (trimFront reversed).reverse = stepsOf reversed.reverse := by
    fun_induction trimFront reversed with
    | case1 rest ih =>
        rw [ih, List.reverse_cons, stepsOf_append]
        exact (List.append_nil _).symm
    | case2 rest ih =>
        rw [ih, List.reverse_cons, List.reverse_cons, List.append_assoc,
          List.singleton_append, stepsOf_append]
        exact (List.append_nil _).symm
    | case3 => rfl
    | case4 => rfl
  rw [trimBack, trimmed, List.reverse_reverse]

/-- A text that was trimmed is empty or begins with a name. -/
theorem trimFront_cases
    (text : List Char) :
    trimFront text = [] ∨
      (trimFront text).takeWhile (· != '/') ≠ [] ∧
        (trimFront text).takeWhile (· != '/') ≠ ['.'] := by
  fun_induction trimFront text with
  | case1 rest ih => exact ih
  | case2 rest ih => exact ih
  | case3 => exact .inl rfl
  | case4 text slash dot alone =>
      cases text with
      | nil => exact .inl rfl
      | cons first rest =>
          have named : first ≠ '/' := fun same => slash rest (by rw [same])
          rw [List.takeWhile_cons_of_pos (by simpa using named)]
          refine .inr ⟨List.cons_ne_nil _ _, fun same => ?_⟩
          obtain ⟨rfl, nothing⟩ := List.cons.inj same
          cases rest with
          | nil => exact alone rfl
          | cons second others =>
              rw [List.takeWhile_eq_nil_iff] at nothing
              have closed : second = '/' := by
                simpa using nothing (Nat.zero_lt_succ _)
              exact dot others (by rw [closed])

/-- A text that begins with a name has this for its first step. -/
theorem stepsOf_takeWhile
    {text : List Char}
    (some : text.takeWhile (· != '/') ≠ [])
    (plain : text.takeWhile (· != '/') ≠ ['.']) :
    stepsOf text =
      text.takeWhile (· != '/') :: stepsOf (text.dropWhile (· != '/')) := by
  have absent : '/' ∉ text.takeWhile (· != '/') := fun member => by
    simpa using List.mem_takeWhile_imp member
  have alone : stepsOf (text.takeWhile (· != '/')) =
      [text.takeWhile (· != '/')] := by
    rw [stepsOf, Path.namesOf, Text.pieces_of_not_mem absent,
      List.filter_cons_of_pos (by simpa using some), List.filter_nil,
      List.filter_cons_of_pos (by simpa using plain), List.filter_nil]
  have whole := List.takeWhile_append_dropWhile (p := (· != '/')) (l := text)
  cases behind : text.dropWhile (· != '/') with
  | nil =>
      rw [behind, List.append_nil] at whole
      rw [whole] at alone
      rw [alone, whole]
      rfl
  | cons next rest =>
      have slash : next = '/' := by
        have first := List.head?_dropWhile_not (· != '/') text
        simpa [behind] using first
      subst slash
      rw [behind] at whole
      rw [stepsOf_slash, ← whole, stepsOf_append, whole, alone]
      rfl

/-- What is left of a text behind some names has the steps that follow them,
and nothing is left only if the text does not begin with these steps. -/
theorem behindNames?_cases
    {names : List (List Char)}
    (named : ∀ name ∈ names, name ≠ [] ∧ name ≠ ['.'])
    (text : List Char) :
    (∃ rest, behindNames? names text = some rest ∧
      stepsOf text = names ++ stepsOf rest) ∨
    (behindNames? names text = none ∧ ¬ names <+: stepsOf text) := by
  induction names generalizing text with
  | nil =>
      refine .inl ⟨_, rfl, ?_⟩
      rw [stepsOf_trimBack, stepsOf_trimFront]
      rfl
  | cons name names ih =>
      rcases List.forall_mem_cons.mp named with ⟨⟨some, plain⟩, others⟩
      rw [behindNames?, ← stepsOf_trimFront text]
      split
      · rename_i same
        subst same
        rw [stepsOf_takeWhile some plain]
        rcases ih others ((trimFront text).dropWhile (· != '/')) with
          ⟨rest, left, split⟩ | ⟨none, apart⟩
        · exact .inl ⟨rest, left, by rw [split, List.cons_append]⟩
        · exact .inr ⟨none, fun begins =>
            apart ((List.prefix_cons_inj _).mp begins)⟩
      · rename_i differs
        refine .inr ⟨rfl, fun begins => ?_⟩
        rcases trimFront_cases text with empty | ⟨some, plain⟩
        · rw [empty] at begins
          exact List.cons_ne_nil _ _ (List.prefix_nil.mp begins)
        · rw [stepsOf_takeWhile some plain] at begins
          exact differs (List.cons_prefix_cons.mp begins).1.symm

/-! ## Steps of paths -/

theorem steps_of_slash
    {rest : List Char}
    (slash : text.toList = '/' :: rest) :
    steps text = steps (String.ofList rest) := by
  rw [steps_eq, steps_eq, slash, stepsOf_slash, String.toList_ofList]

/-- The steps of a path that is joined to another one follow those of that
one. -/
theorem steps_join
    (absolute : isAbsolute root)
    (relative : isAbsolute text = false) :
    steps (join root text) = steps root ++ steps text := by
  rcases exists_joined absolute with ⟨base, names, joins⟩
  have begins : steps root = (stepsOf base).map String.ofList := by
    rw [steps, names, ← String.toList_ofList (l := base)]
    exact steps_eq (String.ofList base)
  rw [steps_eq, joins text relative, stepsOf_append, List.map_append, begins,
    steps_eq text]

theorem steps_of_canonical
    (canonical : IsCanonical root) :
    steps root = namesOf root :=
  List.filter_eq_self.mpr fun name member =>
    bne_iff_ne.mpr (canonical.1 name member).2.2.1

theorem isAbsolute_of_canonical
    (canonical : IsCanonical root) :
    isAbsolute root := by
  rw [← canonical.2, isAbsolute, toList_absolute]
  rfl

/-- What is left of a path behind a directory has the steps that follow those
of the directory, and nothing is left only if the path does not begin with
these. -/
theorem relativeTo?_cases
    (canonical : IsCanonical root)
    (absolute : isAbsolute place) :
    (∃ rest, relativeTo? root place = some rest ∧
      steps place = namesOf root ++ steps rest) ∨
    (relativeTo? root place = none ∧ ¬ namesOf root <+: steps place) := by
  have named : ∀ name ∈ (namesOf root).map String.toList,
      name ≠ [] ∧ name ≠ ['.'] := by
    intro characters member
    rcases List.mem_map.mp member with ⟨name, among, rfl⟩
    rcases canonical.1 name among with ⟨some, -, dot, -⟩
    exact ⟨mt String.toList_eq_nil_iff.mp some,
      fun same => dot (String.toList_inj.mp same)⟩
  have back : ((namesOf root).map String.toList).map String.ofList =
      namesOf root := by
    simp
  rw [relativeTo?, if_pos absolute]
  rcases behindNames?_cases named place.toList with
    ⟨rest, left, split⟩ | ⟨none, apart⟩
  · refine .inl ⟨String.ofList rest, by rw [left]; rfl, ?_⟩
    rw [steps_eq, split, List.map_append, back, steps_eq,
      String.toList_ofList]
  · refine .inr ⟨by rw [none]; rfl, fun begins => apart ?_⟩
    have characters := begins.map String.toList
    rw [steps_eq, List.map_map] at characters
    simpa using characters

/-! ## Settling -/

/-- The names from the root to where steps lead from a directory, when two
dots lead back to the name before. -/
def settle
    (above ahead : List String) :
    List String :=
  ahead.foldl
    (fun names step => if step = ".." then names.dropLast else names ++ [step])
    above

/-- The names from the root to where a path leads. -/
def settled
    (place : String) :
    List String :=
  settle [] (steps place)

/-- Whether a path is that of a directory or leads below it, whatever the host
has there. -/
def LiesBelow
    (root place : String) :
    Prop :=
  isAbsolute place ∧ settled root <+: settled place

instance (root place : String) : Decidable (LiesBelow root place) :=
  inferInstanceAs (Decidable (_ ∧ _))

theorem settle_append
    (above first second : List String) :
    settle above (first ++ second) = settle (settle above first) second :=
  List.foldl_append

theorem settle_up
    (above ahead : List String) :
    settle above (ahead ++ [".."]) = (settle above ahead).dropLast := by
  rw [settle_append]
  rfl

theorem settle_concat
    {step : String}
    (plain : step ≠ "..")
    (above ahead : List String) :
    settle above (ahead ++ [step]) = settle above ahead ++ [step] := by
  rw [settle_append]
  exact if_neg plain

theorem settle_of_named
    (named : ∀ name ∈ names, IsName name) :
    settle above names = above ++ names := by
  induction names using List.reverseRecOn with
  | nil => exact (List.append_nil _).symm
  | append_singleton names name ih =>
      rcases List.forall_mem_append.mp named with ⟨before, last⟩
      have plain := (List.forall_mem_singleton.mp last).2.2.2
      rw [settle_concat plain, ih before, List.append_assoc]

theorem settled_of_canonical
    (canonical : IsCanonical root) :
    settled root = namesOf root := by
  rw [settled, steps_of_canonical canonical, settle_of_named canonical.1]
  rfl

theorem mem_of_mem_settle
    {name : String}
    (member : name ∈ settle above ahead) :
    name ∈ above ∨ name ∈ ahead := by
  induction ahead using List.reverseRecOn with
  | nil => exact .inl member
  | append_singleton ahead step ih =>
      have kept (earlier : name ∈ settle above ahead) :
          name ∈ above ∨ name ∈ ahead ++ [step] :=
        (ih earlier).imp_right (List.mem_append_left _)
      by_cases up : step = ".."
      · rw [up, settle_up] at member
        exact kept (List.dropLast_subset _ member)
      · rw [settle_concat up] at member
        rcases List.mem_append.mp member with earlier | last
        · exact kept earlier
        · exact .inr (List.mem_append_right _ last)

/-- Whether no first steps have more two dots than names. -/
def NeverAbove
    (ahead : List String) :
    Prop :=
  ∀ front, front <+: ahead → 2 * front.count ".." ≤ front.length

theorem NeverAbove.of_concat
    {step : String}
    (never : NeverAbove (ahead ++ [step])) :
    NeverAbove ahead :=
  fun front before => never front (before.trans (List.prefix_append _ _))

/-- Steps that never lead above a directory lead below it, as far as there are
more names than two dots. -/
theorem NeverAbove.exists_tail
    (never : NeverAbove ahead)
    (above : List String) :
    ∃ tail, settle above ahead = above ++ tail ∧
      tail.length + 2 * ahead.count ".." = ahead.length := by
  induction ahead using List.reverseRecOn with
  | nil => exact ⟨[], (List.append_nil _).symm, rfl⟩
  | append_singleton ahead step ih =>
      rcases ih never.of_concat with ⟨tail, settles, length⟩
      by_cases up : step = ".."
      · subst up
        have enough := never _ (List.prefix_refl _)
        rw [List.count_append, List.length_append, List.count_singleton_self,
          List.length_singleton] at enough
        have some : tail ≠ [] := by
          rintro rfl
          rw [List.length_nil] at length
          omega
        refine ⟨tail.dropLast, ?_, ?_⟩
        · rw [settle_up, settles, List.dropLast_append_of_ne_nil some]
        · have positive := List.length_pos_iff.mpr some
          rw [List.length_dropLast, List.count_append, List.length_append,
            List.count_singleton_self, List.length_singleton]
          omega
      · refine ⟨tail ++ [step], ?_, ?_⟩
        · rw [settle_concat up, settles, List.append_assoc]
        · rw [List.length_append, List.count_append, List.length_append,
            List.count_singleton, if_neg (by simpa using up),
            List.length_singleton]
          omega

/-- Steps that lead below a directory whose name is not among them never lead
above it on the way. -/
theorem neverAbove_of_settle
    {name : String}
    {tail : List String}
    (fresh : name ∉ ahead)
    (settles : settle [name] ahead = name :: tail) :
    NeverAbove ahead ∧ tail.length + 2 * ahead.count ".." = ahead.length := by
  induction ahead using List.reverseRecOn generalizing tail with
  | nil =>
      cases settles
      refine ⟨fun front before => ?_, rfl⟩
      rw [List.prefix_nil.mp before]
      exact Nat.le_refl _
  | append_singleton ahead step ih =>
      rw [List.mem_append, not_or, List.mem_singleton] at fresh
      -- Before the last step the directory was not left either.
      have before : ∃ earlier, settle [name] ahead = name :: earlier ∧
          tail.length + 2 * [step].count ".." = earlier.length + 1 := by
        by_cases up : step = ".."
        · subst up
          rw [settle_up] at settles
          cases settled : settle [name] ahead with
          | nil =>
              rw [settled] at settles
              cases settles
          | cons first earlier =>
              rw [settled] at settles
              cases earlier with
              | nil => cases settles
              | cons second others =>
                  rw [List.dropLast_cons_cons] at settles
                  obtain ⟨rfl, rfl⟩ := List.cons.inj settles
                  refine ⟨_, rfl, ?_⟩
                  rw [List.length_dropLast, List.count_singleton_self,
                    List.length_cons]
                  omega
        · rw [settle_concat up] at settles
          cases settled : settle [name] ahead with
          | nil =>
              rw [settled] at settles
              exact absurd (List.cons.inj settles).1.symm fresh.2
          | cons first earlier =>
              rw [settled, List.cons_append] at settles
              obtain ⟨rfl, rfl⟩ := List.cons.inj settles
              refine ⟨_, rfl, ?_⟩
              rw [List.length_append, List.count_singleton,
                if_neg (by simpa using up), List.length_singleton]
      rcases before with ⟨earlier, settled, last⟩
      rcases ih fresh.1 settled with ⟨never, length⟩
      have total : tail.length + 2 * (ahead ++ [step]).count ".." =
          (ahead ++ [step]).length := by
        rw [List.count_append, List.length_append, List.length_singleton]
        omega
      refine ⟨fun front within => ?_, total⟩
      rcases List.prefix_concat_iff.mp within with rfl | shorter
      · omega
      · exact never front shorter

/-- There is a name that none of some texts is: a longer one. -/
theorem exists_fresh_name
    (texts : List String) :
    ∃ name, IsName name ∧ name ∉ texts := by
  have differs (other : String)
      (short : other.length ≤ (texts.map String.length).sum + 2) :
      String.ofList (List.replicate ((texts.map String.length).sum + 3) 'x') ≠
        other := by
    rintro rfl
    rw [String.length_ofList, List.length_replicate] at short
    omega
  refine ⟨String.ofList
      (List.replicate ((texts.map String.length).sum + 3) 'x'),
    ⟨differs "" (Nat.zero_le _), ?_, differs "." ?_,
      differs ".." (Nat.le_add_left _ _)⟩, fun member => ?_⟩
  · rw [String.toList_ofList, List.mem_replicate]
    exact fun member => absurd member.2 (by decide)
  · exact Nat.le_trans (by decide) (Nat.le_add_left 2 _)
  · have short := List.le_sum_of_mem (List.mem_map_of_mem (f := String.length)
      member)
    exact differs _ (Nat.le_trans short (Nat.le_add_right _ _)) rfl

end Strata.Host
