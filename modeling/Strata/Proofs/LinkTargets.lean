import Strata.Pipeline
import Strata.Proofs.SettledPaths
import Strata.Proofs.SymbolicLinks

/-!
# Targets of links

An absolute target of a link is seen from the root of the device that has the
link.  The slash that it begins with is taken away and the rest is joined to
the root, so a target with two dots too many leads above the root, and one with
a second slash is not joined at all and stays a path of the host.  What is said
here of a target is what follows from its text, whatever the host has where it
leads to.
-/

namespace Strata

open Fanout (Served reported)
open Strata.Path (IsName)

/-! ## What is stored and told -/

namespace Devices

open Host (IsCanonical isAbsolute namesOf steps settle settled)

variable
  {root target : String}
  {rest : List Char}

/-- The names of the directory that an absolute target is seen from: the root
of the device, unless a second slash makes it the root of the host. -/
def targetBase
    (root target : String) :
    List String :=
  if target.toList.tail.head? = some '/' then [] else namesOf root

theorem linkTarget_eq
    (slash : target.toList = '/' :: rest) :
    linkTarget root target = Host.join root (String.ofList rest) := by
  unfold linkTarget
  rw [slash]
  rfl

theorem targetBase_eq
    (slash : target.toList = '/' :: rest) :
    targetBase root target =
      if isAbsolute (String.ofList rest) then [] else namesOf root := by
  simp only [targetBase, slash, List.tail_cons, isAbsolute,
    String.toList_ofList, beq_iff_eq]

theorem isAbsolute_linkTarget
    (canonical : IsCanonical root)
    (slash : target.toList = '/' :: rest) :
    isAbsolute (linkTarget root target) := by
  rw [linkTarget_eq slash]
  exact Host.isAbsolute_join (Host.isAbsolute_of_canonical canonical) _

/-- The steps of what is stored are those of the target behind those of the
directory that it is seen from. -/
theorem steps_linkTarget
    (canonical : IsCanonical root)
    (slash : target.toList = '/' :: rest) :
    steps (linkTarget root target) =
      targetBase root target ++ steps target := by
  rw [linkTarget_eq slash, targetBase_eq slash, Host.steps_of_slash slash]
  by_cases whole : isAbsolute (String.ofList rest)
  · rw [if_pos whole, Host.join, if_pos (.inl whole)]
    rfl
  · rw [if_neg whole, Host.steps_join
        (Host.isAbsolute_of_canonical canonical) (by simpa using whole),
      Host.steps_of_canonical canonical]

theorem settled_linkTarget
    (canonical : IsCanonical root)
    (slash : target.toList = '/' :: rest) :
    settled (linkTarget root target) =
      settle (targetBase root target) (steps target) := by
  have named : ∀ name ∈ targetBase root target, IsName name := by
    unfold targetBase
    split
    · exact fun _ member => nomatch member
    · exact canonical.1
  rw [settled, steps_linkTarget canonical slash, Host.settle_append,
    Host.settle_of_named named]
  rfl

/-- What is told of a link begins with a slash and has the steps of the target,
unless these begin with the names of the root and were not seen from there. -/
theorem told_linkTarget
    (canonical : IsCanonical root)
    (slash : target.toList = '/' :: rest)
    {told : String}
    (tells : told = (unresolve? root (linkTarget root target)).getD
      (linkTarget root target)) :
    isAbsolute told ∧
      (steps told = steps target ↔
        targetBase root target = namesOf root ∨
          ¬ namesOf root <+: steps target) := by
  have absolute := isAbsolute_linkTarget canonical slash
  have stored := steps_linkTarget canonical slash
  have base : targetBase root target = namesOf root ∨
      targetBase root target = [] := by
    unfold targetBase
    split
    · exact .inr rfl
    · exact .inl rfl
  rw [unresolve?] at tells
  rcases Host.relativeTo?_cases canonical absolute with
    ⟨behind, left, split⟩ | ⟨none, apart⟩
  · rw [left] at tells
    have begins : told.toList = '/' :: behind.toList := by
      rw [tells]
      exact String.toList_append
    refine ⟨by rw [isAbsolute, begins]; rfl, ?_⟩
    have shown : steps told = steps behind := by
      rw [Host.steps_of_slash begins, String.ofList_toList]
    rw [stored] at split
    rw [shown]
    rcases base with fromRoot | fromHost
    · rw [fromRoot] at split
      exact ⟨fun _ => .inl fromRoot,
        fun _ => (List.append_cancel_left split).symm⟩
    · rw [fromHost, List.nil_append] at split
      rw [fromHost, split]
      constructor
      · intro same
        have length := congrArg List.length same
        rw [List.length_append] at length
        exact .inl (List.length_eq_zero_iff.mp (by omega)).symm
      · rintro (empty | apart)
        · rw [← empty]
          rfl
        · exact absurd (List.prefix_append _ _) apart
  · rw [none] at tells
    obtain rfl : told = linkTarget root target := tells
    refine ⟨absolute, ?_⟩
    rw [stored] at apart ⊢
    rcases base with fromRoot | fromHost
    · rw [fromRoot] at apart
      exact absurd (List.prefix_append _ _) apart
    · rw [fromHost, List.nil_append] at apart ⊢
      exact ⟨fun _ => .inr apart, fun _ => rfl⟩

end Devices

/-! ## Links that are made -/

namespace Host

variable
  {base host later : Host}
  {place text root : String}
  {path : Path}

/-- A place is that of a link, found without following it. -/
def Tells
    (host : Host)
    (place text : String) :
    Prop :=
  ∃ way name id,
    host.Seeks place way name ∧ endsInSlash place = false ∧
      (host.entries (here way)).find? name = some id ∧
        (host.node id).body = .symlink text

theorem Tells.extended
    (tells : base.Tells place text)
    (extended : base.Extends host) :
    host.Tells place text := by
  rcases tells with ⟨way, name, id, seeks, bare, held, told⟩
  exact ⟨way, name, id, seeks.extended extended, bare,
    extended.names _ _ _ held, extended.links _ _ told⟩

theorem Tells.readLink
    (tells : host.Tells place text) :
    backend.readLink place host = .ok text := by
  rcases tells with ⟨way, name, id, seeks, bare, held, told⟩
  have resolved : host.resolve place false = .ok id := by
    rw [seeks.resolve bare, held]
  change ((Host.readLink place).execute host).1 = _
  rw [Host.readLink, HostAction.execute_ask]
  simp only [resolved, bind, Except.bind, told]
  rfl

/-- A slash at the end of a path is one at the end of its walk. -/
theorem slash_of_locate
    {follow : Bool}
    {found : Found}
    (located : host.locate place follow = .ok found)
    (slash : endsInSlash place) :
    found.slash = true := by
  rcases locate_eq_ok_iff.mp located with ⟨-, ran⟩
  rcases run_eq_ok_iff.mp ran with ⟨last, leads, ends⟩
  have kept : last.slash = true := by
    clear ran ends
    induction leads with
    | refl => exact slash
    | tail _ passes ih =>
        cases passes with
        | stay | up | enter => exact ih
        | link => exact Bool.or_eq_true_iff.mpr (.inl ih)
  cases ends <;> exact kept

/-- The place of the path without names ends in a slash. -/
theorem endsInSlash_root
    (absolute : isAbsolute root) :
    endsInSlash (Devices.resolve root ⟨[]⟩) := by
  have proper : Path.Proper ⟨[]⟩ := fun _ member => nomatch member
  rcases exists_base absolute with ⟨base, -, places⟩
  rw [endsInSlash, Devices.resolve, places _ proper]
  exact beq_iff_eq.mpr List.getLast?_concat

/-- A link that is made is told of where it was made. -/
theorem tells_of_symlink
    (absolute : isAbsolute root)
    (named : ∀ name ∈ path.names, IsName name)
    {outcome : Outcome}
    (done : backend.perform (.symlink text (Devices.resolve root path)) host =
      (reported outcome, later)) :
    host.Extends later ∧ later.Tells (Devices.resolve root path) text := by
  rcases symlink_of_perform done with ⟨parent, last, vacant, -⟩
  rcases vacancy_eq_ok_iff.mp vacant with ⟨found, located, free, bare⟩
  rcases path with ⟨names⟩
  rcases List.eq_nil_or_concat' names with rfl | ⟨front, name, rfl⟩
  · rw [slash_of_locate located (endsInSlash_root absolute)] at bare
    cases bare
  · have plain : IsPlain name := (named name (by simp)).2.2
    have names := namesOf_place absolute (proper_of_named named)
    rw [← List.append_assoc] at names
    rcases exists_seeks_of_locate located names plain with ⟨way, seeks, rfl⟩
    rcases seeks.symlink_of_perform bare done with ⟨-, grown, held, told⟩
    exact ⟨grown, way, name, _, seeks.extended grown, bare, held, told⟩

/-- Links that are made in turn are all told of in the end. -/
theorem tells_of_served
    {roots : List String}
    {outcomes : List Outcome}
    {final : Host}
    (absolute : ∀ root ∈ roots, isAbsolute root)
    (named : ∀ name ∈ path.names, IsName name)
    {texts : String → String}
    (served : Served backend
      (roots.map fun root => .symlink (texts root) (Devices.resolve root path))
      outcomes host final) :
    host.Extends final ∧
      ∀ root ∈ roots, final.Tells (Devices.resolve root path) (texts root) := by
  induction roots generalizing host outcomes with
  | nil =>
      cases served
      exact ⟨.refl _, fun _ member => nomatch member⟩
  | cons root others ih =>
      rcases List.forall_mem_cons.mp absolute with ⟨first, absolute⟩
      cases served with
      | next done served =>
          rcases tells_of_symlink first named done with ⟨grown, tells⟩
          rcases ih absolute served with ⟨more, links⟩
          exact ⟨grown.trans more,
            List.forall_mem_cons.mpr ⟨tells.extended more, links⟩⟩

end Host

/-! ## Roots of devices -/

/-- The roots that devices are opened at are canonical. -/
theorem Pipeline.isCanonical_of_openRoots
    {device : Nat}
    {paths roots : List String}
    {start final : Host}
    (tidy : start.Tidy)
    (opened : (openRoots Host.backend device paths).execute start =
      (.ok roots, final)) :
    ∀ root ∈ roots, Host.IsCanonical root := by
  induction paths generalizing device roots start with
  | nil =>
      cases opened
      exact fun _ member => nomatch member
  | cons path paths ih =>
      rcases Action.execute_bind_eq_ok opened with ⟨root, middle, made, rest⟩
      rcases Action.execute_bind_eq_ok rest with ⟨others, last, below, ends⟩
      cases ends
      rw [Action.execute_ofRun] at made
      dsimp only [Host.backend] at made
      rcases ran : (Host.openRoot path).execute start with ⟨_ | _, reached⟩
      · rw [ran] at made
        cases made
      · rw [ran] at made
        cases made
        rcases tidy.openRoot ran with ⟨ordered, canonical⟩
        exact List.forall_mem_cons.mpr ⟨canonical, ih ordered below⟩

/-! ## Links that stay -/

namespace Devices

open Host (namesOf steps settle)

/-- Whether a target leads to no place above the root of any device, and what
is told of it on the first one are its own names. -/
def KeepsTarget
    (roots : List String)
    (target : String) :
    Prop :=
  (∀ root ∈ roots,
    namesOf root <+: settle (targetBase root target) (steps target)) ∧
  ∀ root ∈ roots.head?,
    targetBase root target = namesOf root ∨ ¬ namesOf root <+: steps target

/-- Every device keeps a target exactly if it has no second slash and none of
its first names have more two dots than names. -/
theorem keepsTarget_all_iff
    {target : String} :
    (∀ roots, (∀ root ∈ roots, Host.IsCanonical root) →
      KeepsTarget roots target) ↔
        target.toList.tail.head? ≠ some '/' ∧
          Host.NeverAbove (steps target) := by
  constructor
  · intro keeps
    -- A root that is not named in the target cannot be found again.
    rcases Host.exists_fresh_name (steps target) with ⟨name, named, fresh⟩
    have single : ∀ other ∈ [name], IsName other :=
      List.forall_mem_singleton.mpr named
    have names := Host.namesOf_absolute single
    have below := (keeps [Host.absolute [name]]
      (List.forall_mem_singleton.mpr (Host.isCanonical_absolute single))).1 _
        List.mem_cons_self
    rw [names] at below
    rcases below with ⟨tail, settles⟩
    have seen : target.toList.tail.head? ≠ some '/' := by
      intro doubled
      rw [targetBase, if_pos doubled] at settles
      have member : name ∈ settle [] (steps target) :=
        settles ▸ List.mem_cons_self
      exact fresh ((Host.mem_of_mem_settle member).resolve_left
        List.not_mem_nil)
    rw [targetBase, if_neg seen, names] at settles
    exact ⟨seen, (Host.neverAbove_of_settle fresh settles.symm).1⟩
  · rintro ⟨seen, never⟩ roots -
    have base (root : String) : targetBase root target = namesOf root :=
      if_neg seen
    refine ⟨fun root _ => ?_, fun root _ => .inl (base root)⟩
    rcases never.exists_tail (namesOf root) with ⟨tail, settles, -⟩
    rw [base, settles]
    exact List.prefix_append _ _

variable
  {κ : Type}
  {backend : Backend κ}
  {fleet : Fleet κ}
  {root text : String}
  {others : List String}
  {path : Path}

theorem readLink_answers
    (read : backend.readLink (resolve root path) fleet.host = .ok text) :
    (readLink ⟨backend, root :: others⟩ path).Answers fleet
      ((unresolve? root text).getD text) (· = fleet) := by
  have first : (Action.ofExcept
      (primary (⟨backend, root :: others⟩ : Devices κ))).Answers fleet root
        (· = fleet) :=
    .ofExcept rfl
  refine first.bind fun reached kept => ?_
  subst kept
  refine (Fleet.askHost_answers read).bind fun reached kept => ?_
  exact .pure kept

end Devices

namespace Layer

/-- What has to hold of a link with an absolute target: on every device it says
a path of the host at or below the root of the device, and what is told of it
is an absolute path with the names of the target. -/
structure LinkStays
    (layer : Layer (Session (Fleet Host)))
    (roots : List String)
    (path : Path)
    (target : String)
    (after : Session (Fleet Host)) :
    Prop where
  stored : ∀ root ∈ roots, ∃ text,
    Host.backend.readLink (Devices.resolve root path) after.storage.host =
        .ok text ∧
      Host.LiesBelow root text
  told : ∃ text, ((layer.readLink path).execute after).1 = .ok text ∧
    Host.isAbsolute text ∧ Host.steps text = Host.steps target

/-- A link that was made says on each device what was to be stored there. -/
theorem readLink_of_made
    {root : String}
    {others : List String}
    {meter : Meter (Session (Fleet Host))}
    (absolute : ∀ device ∈ root :: others, Host.isAbsolute device)
    {path : Path}
    (named : ∀ name ∈ path.names, IsName name)
    {target : String}
    {before after : Session (Fleet Host)}
    (made : ((Layer.ofDevices ⟨Host.backend, root :: others⟩ meter).symlink
      target path).execute before = (.ok (), after)) :
    ∀ device ∈ root :: others,
      Host.backend.readLink (Devices.resolve device path) after.storage.host =
        .ok (Devices.linkTarget device target) := by
  have asked : ((Layer.ofDevices ⟨Host.backend, root :: others⟩ meter).symlink
      target path) = Session.onStorage
        (Devices.symlink ⟨Host.backend, root :: others⟩ target path) :=
    rfl
  rw [asked] at made
  rcases Action.execute_bind_eq_ok (Session.execute_onStorage made) with
    ⟨outcomes, reached, ran, ends⟩
  obtain rfl := (Prod.mk.inj ends).2
  rcases (Devices.fanOut_eq_ok_iff (by simp [DeviceRequest.isTransfer])).mp
    ran with ⟨-, served⟩
  exact fun device member =>
    ((Host.tells_of_served absolute named served).2 device member).readLink

/-- A link that was made stays on its devices exactly if these keep its
target. -/
theorem linkStays_iff_keepsTarget
    {root : String}
    {others : List String}
    {meter : Meter (Session (Fleet Host))}
    (canonical : ∀ device ∈ root :: others, Host.IsCanonical device)
    {path : Path}
    (named : ∀ name ∈ path.names, IsName name)
    {target : String}
    (slash : target.toList.head? = some '/')
    {before after : Session (Fleet Host)} :
    let layer := Layer.ofDevices ⟨Host.backend, root :: others⟩ meter
    (layer.symlink target path).execute before = (.ok (), after) →
      (layer.LinkStays (root :: others) path target after ↔
        Devices.KeepsTarget (root :: others) target) := by
  intro layer made
  rcases List.head?_eq_some_iff.mp slash with ⟨rest, slash⟩
  have stores := readLink_of_made (fun device member =>
    Host.isAbsolute_of_canonical (canonical device member)) named made
  have below (device : String) (member : device ∈ root :: others) :
      Host.LiesBelow device (Devices.linkTarget device target) ↔
        Host.namesOf device <+: Host.settle
          (Devices.targetBase device target) (Host.steps target) := by
    have there := canonical device member
    rw [Host.LiesBelow, Host.settled_of_canonical there,
      Devices.settled_linkTarget there slash]
    exact and_iff_right (Devices.isAbsolute_linkTarget there slash)
  have answered : ((layer.readLink path).execute after).1 = .ok
      ((Devices.unresolve? root (Devices.linkTarget root target)).getD
        (Devices.linkTarget root target)) :=
    (Session.onStorage_answers (Devices.readLink_answers
      (stores root List.mem_cons_self))).answer_eq
  rcases Devices.told_linkTarget (canonical root List.mem_cons_self) slash rfl
    with ⟨absolute, same⟩
  constructor
  · rintro ⟨stored, text, told, -, names⟩
    refine ⟨fun device member => ?_, ?_⟩
    · rcases stored device member with ⟨text, read, lies⟩
      obtain rfl := Except.ok.inj (read.symm.trans (stores device member))
      exact (below device member).mp lies
    · obtain rfl := Except.ok.inj (told.symm.trans answered)
      rintro device ⟨⟩
      exact same.mp names
  · rintro ⟨kept, first⟩
    exact ⟨fun device member => ⟨_, stores device member,
        (below device member).mpr (kept device member)⟩,
      _, answered, absolute, same.mpr (first root rfl)⟩

/--
Whenever a link with an absolute target was made on some devices, it stays on
them exactly if each of them keeps the target.  And there are no devices that
do not keep it exactly if the target has no second slash at its beginning and
none of its first names have more two dots than names.  The roots that devices
of a host in order are opened at are canonical, as is asked of them here.
-/
theorem link_stays_iff
    {target : String}
    (slash : target.toList.head? = some '/') :
    (∀ (root : String) (others : List String)
        (meter : Meter (Session (Fleet Host))) (path : Path)
        (before after : Session (Fleet Host)),
      let layer := Layer.ofDevices ⟨Host.backend, root :: others⟩ meter
      (∀ device ∈ root :: others, Host.IsCanonical device) →
      (∀ name ∈ path.names, IsName name) →
      (layer.symlink target path).execute before = (.ok (), after) →
        (layer.LinkStays (root :: others) path target after ↔
          Devices.KeepsTarget (root :: others) target)) ∧
    ((∀ roots, (∀ root ∈ roots, Host.IsCanonical root) →
        Devices.KeepsTarget roots target) ↔
      target.toList.tail.head? ≠ some '/' ∧
        Host.NeverAbove (Host.steps target)) ∧
    ∀ (paths roots : List String) (start final : Host),
      start.Tidy →
      (Pipeline.openRoots Host.backend 0 paths).execute start =
          (.ok roots, final) →
        ∀ root ∈ roots, Host.IsCanonical root :=
  ⟨fun _ _ _ _ _ _ canonical named made =>
      linkStays_iff_keepsTarget canonical named slash made,
    Devices.keepsTarget_all_iff,
    fun _ _ _ _ tidy opened => Pipeline.isCanonical_of_openRoots tidy opened⟩

end Layer

/-! ## Links in two directories -/

namespace Host

/-- A link is made in each of two directories below the root. -/
theorem exists_served_links
    {first second : String}
    (firstTaken : pathFault? first = none)
    (secondTaken : pathFault? second = none) :
    ∃ final,
      Served backend
        [.symlink first "/first/l", .symlink second "/second/l"]
        [.done, .done] twoDirectories final := by
  have seeks := @seeks_below_root
    (addNode 1 "l" (.symlink first) 0o777 twoDirectories).2 "/second/l"
    "second" "l" 2 rfl rfl rfl (by decide) rfl rfl (by decide)
  have vacant := vacancy_eq_ok_iff.mpr
    ⟨_, seeks.locate_free rfl false, rfl, rfl⟩
  exact ⟨_, .next (perform_symlink (by decide) firstTaken vacancy_of_two.1)
    (.next (perform_symlink (by decide) secondTaken vacant) (.nothing _))⟩

end Host

namespace Layer

open Host (twoDirectories)

theorem exists_made_of_two
    {target : String}
    (firstTaken : Host.pathFault? (Devices.linkTarget "/first" target) = none)
    (secondTaken :
      Host.pathFault? (Devices.linkTarget "/second" target) = none) :
    ∃ made, (ofTwoDirectories.symlink target ⟨["l"]⟩).execute
      { storage := ⟨.replicate, twoDirectories⟩ } = (.ok (), made) := by
  rcases Host.exists_served_links firstTaken secondTaken with ⟨final, served⟩
  rcases @symlink_answers Host ⟨Host.backend, ["/first", "/second"]⟩ .silent
    { storage := ⟨.replicate, twoDirectories⟩ } ⟨["l"]⟩ final target _ served
    with ⟨made, ran, -⟩
  exact ⟨made, ran⟩

/-- A link to what is above the root is made on both devices, and on the first
it leads out of the device.  One with two slashes leads out of both of them. -/
theorem link_leads_outside :
    (∃ made,
      (ofTwoDirectories.symlink "/../secret" ⟨["l"]⟩).execute
          { storage := ⟨.replicate, twoDirectories⟩ } = (.ok (), made) ∧
        Host.backend.readLink "/first/l" made.storage.host =
          .ok "/first/../secret" ∧
        ¬ Host.LiesBelow "/first" "/first/../secret") ∧
    ∃ made,
      (ofTwoDirectories.symlink "//f" ⟨["l"]⟩).execute
          { storage := ⟨.replicate, twoDirectories⟩ } = (.ok (), made) ∧
        Host.backend.readLink "/first/l" made.storage.host = .ok "/f" ∧
        ¬ Host.LiesBelow "/first" "/f" := by
  have absolute : ∀ device ∈ ["/first", "/second"],
      Host.isAbsolute device := by
    decide
  have named : ∀ name ∈ ["l"], IsName name := by decide
  constructor
  · rcases @exists_made_of_two "/../secret" (by decide +kernel)
      (by decide +kernel) with ⟨made, ran⟩
    exact ⟨made, ran,
      readLink_of_made absolute named ran "/first" List.mem_cons_self,
      by decide +kernel⟩
  · rcases @exists_made_of_two "//f" (by decide +kernel) (by decide +kernel)
      with ⟨made, ran⟩
    exact ⟨made, ran,
      readLink_of_made absolute named ran "/first" List.mem_cons_self,
      by decide +kernel⟩

/-- A link to a path with two dots stays on both devices, and one with two
slashes does not. -/
theorem link_stays_iff_of_two :
    (∃ made,
      (ofTwoDirectories.symlink "/d/../b" ⟨["l"]⟩).execute
          { storage := ⟨.replicate, twoDirectories⟩ } = (.ok (), made) ∧
        ofTwoDirectories.LinkStays ["/first", "/second"] ⟨["l"]⟩ "/d/../b"
          made) ∧
    ∃ made,
      (ofTwoDirectories.symlink "//f" ⟨["l"]⟩).execute
          { storage := ⟨.replicate, twoDirectories⟩ } = (.ok (), made) ∧
        ¬ ofTwoDirectories.LinkStays ["/first", "/second"] ⟨["l"]⟩ "//f"
          made := by
  have canonical : ∀ device ∈ ["/first", "/second"],
      Host.IsCanonical device := by
    decide +kernel
  have named : ∀ name ∈ ["l"], IsName name := by decide
  constructor
  · rcases @exists_made_of_two "/d/../b" (by decide +kernel)
      (by decide +kernel) with ⟨made, ran⟩
    rcases @link_stays_iff "/d/../b" (by decide) with ⟨stays, -⟩
    refine ⟨made, ran, (stays _ _ _ _ _ _ canonical named ran).mpr ?_⟩
    exact ⟨by decide +kernel, fun root member => .inl (if_neg (by decide))⟩
  · rcases @exists_made_of_two "//f" (by decide +kernel) (by decide +kernel)
      with ⟨made, ran⟩
    rcases @link_stays_iff "//f" (by decide) with ⟨stays, -⟩
    refine ⟨made, ran, fun still => ?_⟩
    have kept := ((stays _ _ _ _ _ _ canonical named ran).mp still).1
    exact absurd (kept "/first" List.mem_cons_self) (by decide +kernel)

end Layer

end Strata
