import Strata.Proofs.ListedNames

/-!
# Symbolic links

A link is made under its own name on every device, and it is renamed and
removed under the name of a file.  Where files keep their names these are the
same, and every link that is made is listed, moved and removed on all devices.
A coder that gives files names of their own never removes a link: whatever is
taken away has another name.
-/

namespace Strata

open Fanout (Served reported)

/-! ## Free names and links -/

namespace Host

variable
  {base host later : Host}
  {place name : String}
  {way other : List (String × NodeId)}
  {id parent : NodeId}

/-- A place seeks a name that its directory does not have. -/
structure Lacks
    (host : Host)
    (place : String)
    (way : List (String × NodeId))
    (name : String) :
    Prop where
  seeks : host.Seeks place way name
  absent : (host.entries (here way)).find? name = none
  bare : endsInSlash place = false

/-- A directory has a link under a name. -/
structure HasLink
    (host : Host)
    (parent : NodeId)
    (name : String)
    (id : NodeId) :
    Prop where
  held : (host.entries parent).find? name = some id
  told : ∃ target, (host.node id).body = .symlink target

theorem HasLink.extended
    (link : base.HasLink parent name id)
    (extended : base.Extends host) :
    host.HasLink parent name id := by
  rcases link.told with ⟨target, told⟩
  exact ⟨extended.names _ _ _ link.held, target,
    extended.links _ _ told⟩

/-- Whatever was a link still is the same link. -/
def KeepsLinks
    (host later : Host) :
    Prop :=
  ∀ id target, (host.node id).body = .symlink target →
    (later.node id).body = .symlink target

theorem keepsLinks_dropLink
    (id : NodeId) :
    host.KeepsLinks (host.dropLink id) := by
  intro other target told
  rw [body_dropLink, told]

theorem keepsLinks_changeEntries
    (change : Table String NodeId → Table String NodeId) :
    host.KeepsLinks (host.changeEntries parent change) :=
  fun _ _ told => body_changeEntries_of_link told change

theorem KeepsLinks.trans
    (first : base.KeepsLinks host)
    (second : host.KeepsLinks later) :
    base.KeepsLinks later :=
  fun id target told => second id target (first id target told)

theorem KeepsLinks.hasLink
    (keeps : host.KeepsLinks later)
    (link : host.HasLink parent name id)
    (same : (later.entries parent).find? name =
      (host.entries parent).find? name) :
    later.HasLink parent name id := by
  rcases link.told with ⟨target, told⟩
  exact ⟨same.trans link.held, target, keeps id target told⟩

theorem HasLink.isDirectory
    (link : host.HasLink parent name id) :
    host.isDirectory id = false := by
  rcases link.told with ⟨target, told⟩
  rw [Host.isDirectory, told]
  rfl

/-- A name that a host with more does not have is not there with less. -/
theorem Extends.absent
    (extended : base.Extends host)
    (absent : (host.entries parent).find? name = none) :
    (base.entries parent).find? name = none := by
  cases held : (base.entries parent).find? name with
  | none => rfl
  | some id =>
      rw [extended.names _ _ _ held] at absent
      cases absent

theorem Seeks.locate_entry
    (seeks : host.Seeks place way name)
    (held : (host.entries (here way)).find? name = some id) :
    host.locate place false =
      .ok ⟨.entry (here way) name id, trailOf way, endsInSlash place⟩ := by
  rw [seeks.locate, Host.spot, held]

/-- Where a name is vacant, it is the name that is sought. -/
theorem Seeks.vacancy_eq_ok_iff
    (seeks : host.Seeks place way name)
    (bare : endsInSlash place = false)
    {slot : NodeId × String} :
    host.vacancy place = .ok slot ↔
      (host.entries (here way)).find? name = none ∧
        slot = (here way, name) := by
  rcases slot with ⟨parent, last⟩
  rw [Host.vacancy_eq_ok_iff]
  constructor
  · rintro ⟨found, located, free, -⟩
    rw [seeks.locate] at located
    cases located
    cases absent : (host.entries (here way)).find? name with
    | none =>
        rw [Host.spot, absent] at free
        cases free
        exact ⟨rfl, rfl⟩
    | some id =>
        rw [Host.spot, absent] at free
        cases free
  · rintro ⟨absent, same⟩
    cases same
    exact ⟨_, seeks.locate_free absent false, rfl, bare⟩

/-! ## Ways and links -/

theorem Seeks.isWay
    (seeks : host.Seeks place way name) :
    host.IsWay way := by
  rcases seeks.leads with ⟨budget, leads⟩
  exact leads.isWay trivial

/-- The names of a way tell the way. -/
theorem IsWay.eq_of_names
    (chained : host.IsWay way)
    (also : host.IsWay other)
    (same : way.map (·.1) = other.map (·.1)) :
    way = other := by
  induction way generalizing other with
  | nil =>
      cases other with
      | nil => rfl
      | cons => cases same
  | cons step way ih =>
      cases other with
      | nil => cases same
      | cons last rest =>
          rcases step with ⟨name, id⟩
          rcases last with ⟨_, child⟩
          obtain ⟨rfl, behind⟩ := List.cons.inj same
          obtain rfl := ih chained.2.2 also.2.2 behind
          have same := chained.1.symm.trans also.1
          cases same
          rfl

/-- No way leads through what is no directory. -/
theorem not_prefix_of_not_directory
    (chained : host.IsWay way)
    (held : (host.entries (here way)).find? name = some id)
    (file : host.isDirectory id = false)
    (also : host.IsWay other) :
    ¬ trailOf way ++ [name] <+: trailOf other := by
  induction other with
  | nil => simp [trailOf]
  | cons step rest ih =>
      rcases step with ⟨last, child⟩
      have split : trailOf ((last, child) :: rest) = trailOf rest ++ [last] :=
        List.reverse_cons
      rw [split, List.prefix_concat_iff]
      rintro (whole | before)
      · rcases List.append_inj' whole rfl with ⟨names, alone⟩
        obtain rfl := List.singleton_inj.mp alone
        obtain rfl := chained.eq_of_names also.2.2
          (List.reverse_injective names)
        have found := (child_eq_ok_iff.mp also.1).2.2
        rw [held] at found
        cases found
        exact Bool.false_ne_true (file.symm.trans also.2.1)
      · exact ih also.2.2 before

/-! ## Links that are made -/

/-- A link that is made where a name is sought is there, and the name was
free. -/
theorem Seeks.symlink_of_perform
    {target : String}
    {outcome : Outcome}
    (seeks : host.Seeks place way name)
    (bare : endsInSlash place = false)
    (done : backend.perform (.symlink target place) host =
      (reported outcome, later)) :
    (host.entries (here way)).find? name = none ∧ host.Extends later ∧
      (later.entries (here way)).find? name = some host.nodes.size ∧
        (later.node host.nodes.size).body = .symlink target := by
  rcases Host.symlink_of_perform done with ⟨parent, last, vacant, rfl⟩
  rcases (seeks.vacancy_eq_ok_iff bare).mp vacant with ⟨absent, same⟩
  cases same
  refine ⟨absent, (Extends.refl host).addNode seeks.directory absent, ?_, ?_⟩
  · rw [find?_addNode seeks.directory seeks.directory, if_pos ⟨rfl, rfl⟩]
  · rw [body_addNode seeks.directory, if_pos rfl]

/-- A link that is made is there, under a name that was free. -/
theorem Lacks.symlink_of_perform
    {target : String}
    {outcome : Outcome}
    (lacks : base.Lacks place way name)
    (extended : base.Extends host)
    (done : backend.perform (.symlink target place) host =
      (reported outcome, later)) :
    (host.entries (here way)).find? name = none ∧ host.Extends later ∧
      later.HasLink (here way) name host.nodes.size := by
  rcases (lacks.seeks.extended extended).symlink_of_perform lacks.bare done with
    ⟨absent, grown, held, told⟩
  exact ⟨absent, grown, held, target, told⟩

section Turns

variable
  {roots : List String}
  {places : String → String}
  {ways : String → List (String × NodeId)}
  {outcomes : List Outcome}
  {final : Host}

/-- Links that are made in turn are there in the end, under names that were
free. -/
theorem links_of_served
    {text : String → String}
    (extended : base.Extends host)
    (free : ∀ root ∈ roots, base.Lacks (places root) (ways root) name)
    (served : Served backend
      (roots.map fun root => .symlink (text root) (places root)) outcomes host
      final) :
    host.Extends final ∧
      (∀ root ∈ roots,
        (host.entries (here (ways root))).find? name = none ∧
          ∃ id, final.HasLink (here (ways root)) name id) ∧
      (roots.map fun root => here (ways root)).Nodup := by
  induction roots generalizing host outcomes with
  | nil =>
      cases served
      exact ⟨.refl _, (fun _ member => nomatch member), List.nodup_nil⟩
  | cons root rest ih =>
      rcases List.forall_mem_cons.mp free with ⟨lacks, free⟩
      cases served with
      | next done served =>
          rcases lacks.symlink_of_perform extended done with
            ⟨absent, grown, link⟩
          rcases ih (extended.trans grown) free served with
            ⟨more, links, distinct⟩
          refine ⟨grown.trans more, List.forall_mem_cons.mpr
            ⟨⟨absent, _, link.extended more⟩, fun other member =>
              (links other member).imp_left grown.absent⟩, ?_⟩
          rw [List.map_cons, List.nodup_cons]
          refine ⟨fun among => ?_, distinct⟩
          rcases List.mem_map.mp among with ⟨other, member, same⟩
          have none := (links other member).1
          rw [same, link.held] at none
          cases none

/-- A link that is unlinked is gone, and nothing else has come. -/
theorem Lacks.exists_unlinked
    (lacks : base.Lacks place way name)
    (extended : base.Extends host)
    (link : host.HasLink (here way) name id) :
    ∃ later, backend.perform (.unlink place) host = (reported .done, later) ∧
      base.Extends later ∧ later.Extends host ∧ host.KeepsLinks later ∧
      ∀ parent other,
        (later.entries parent).find? other =
          if parent = here way ∧ name = other then none
          else (host.entries parent).find? other := by
  have seeks := lacks.seeks.extended extended
  have located := seeks.locate_entry link.held
  rw [lacks.bare] at located
  refine ⟨_, perform_unlink located link.isDirectory, ?_, ?_, ?_, ?_⟩
  · exact (extended.eraseName seeks.directory lacks.absent).dropLink id
  · exact (dropLink_extends id).trans (eraseName_extends seeks.directory)
  · exact (keepsLinks_changeEntries _).trans (keepsLinks_dropLink id)
  · intro parent other
    rw [entries_dropLink, find?_eraseName seeks.directory]

/-- Links that are unlinked in turn are gone in the end. -/
theorem exists_served_unlinks
    (extended : base.Extends host)
    (free : ∀ root ∈ roots, base.Lacks (places root) (ways root) name)
    (links : ∀ root ∈ roots, ∃ id, host.HasLink (here (ways root)) name id)
    (distinct : (roots.map fun root => here (ways root)).Nodup) :
    ∃ outcomes final,
      Served backend (roots.map fun root => .unlink (places root)) outcomes
        host final ∧
      base.Extends final ∧ final.Extends host ∧
      ∀ root ∈ roots, (final.entries (here (ways root))).find? name = none := by
  induction roots generalizing host with
  | nil =>
      exact ⟨[], host, .nothing host, extended, .refl host,
        fun _ member => nomatch member⟩
  | cons root rest ih =>
      rw [List.map_cons, List.nodup_cons] at distinct
      rcases List.forall_mem_cons.mp free with ⟨lacks, free⟩
      rcases List.forall_mem_cons.mp links with ⟨⟨id, link⟩, links⟩
      rcases lacks.exists_unlinked extended link with
        ⟨middle, done, grown, shrunk, keeps, names⟩
      have still : ∀ other ∈ rest, ∃ id,
          middle.HasLink (here (ways other)) name id := by
        intro other member
        have apart : here (ways other) ≠ here (ways root) := fun same =>
          distinct.1 (List.mem_map.mpr ⟨other, member, same⟩)
        refine (links other member).imp fun id link => keeps.hasLink link ?_
        rw [names, if_neg fun both => apart both.1]
      rcases ih grown free still distinct.2 with
        ⟨outcomes, final, served, more, less, gone⟩
      refine ⟨.done :: outcomes, final, .next done served, more,
        less.trans shrunk, List.forall_mem_cons.mpr ⟨less.absent ?_, gone⟩⟩
      rw [names, if_pos ⟨rfl, rfl⟩]

/-- A link that is renamed to a name that is free is moved there, and nothing
else has changed. -/
theorem Lacks.exists_renamed
    {target newName : String}
    {newWay : List (String × NodeId)}
    (lacks : base.Lacks place way name)
    (newLacks : base.Lacks target newWay newName)
    (extended : base.Extends host)
    (link : host.HasLink (here way) name id)
    (absent : (host.entries (here newWay)).find? newName = none) :
    ∃ later,
      backend.perform (.rename place target) host = (reported .done, later) ∧
      base.Extends later ∧ host.KeepsLinks later ∧
      ∀ parent other,
        (later.entries parent).find? other =
          if parent = here newWay ∧ newName = other then some id
          else if parent = here way ∧ name = other then none
          else (host.entries parent).find? other := by
  have seeks := lacks.seeks.extended extended
  have newSeeks := newLacks.seeks.extended extended
  have leaves := seeks.locate_entry link.held
  have arrives := newSeeks.locate_free absent false
  rw [lacks.bare] at leaves
  rw [newLacks.bare] at arrives
  have erased : (host.eraseName (here way) name).isDirectory (here newWay) := by
    rw [isDirectory_eraseName]
    exact newSeeks.directory
  refine ⟨_, perform_rename ⟨(pathFault?_eq_none_iff.mp seeks.taken).1,
    (pathFault?_eq_none_iff.mp newSeeks.taken).1⟩ leaves arrives
      (not_prefix_of_not_directory seeks.isWay link.held link.isDirectory
        newSeeks.isWay), ?_, ?_, ?_⟩
  · exact (extended.eraseName seeks.directory lacks.absent).setName erased
      newLacks.absent
  · exact (keepsLinks_changeEntries _).trans (keepsLinks_changeEntries _)
  · intro parent other
    rw [find?_setName erased, find?_eraseName seeks.directory]

/-- Links that are renamed in turn to names that are free are moved there. -/
theorem exists_served_renames
    {targets : String → String}
    {newWays : String → List (String × NodeId)}
    {newName : String}
    (extended : base.Extends host)
    (free : ∀ root ∈ roots, base.Lacks (places root) (ways root) name)
    (newFree : ∀ root ∈ roots,
      base.Lacks (targets root) (newWays root) newName)
    (links : ∀ root ∈ roots, ∃ id, host.HasLink (here (ways root)) name id)
    (absent : ∀ root ∈ roots,
      (host.entries (here (newWays root))).find? newName = none)
    (distinct : (roots.map fun root => here (ways root)).Nodup)
    (newDistinct : (roots.map fun root => here (newWays root)).Nodup) :
    ∃ outcomes final,
      Served backend
        (roots.map fun root => .rename (places root) (targets root)) outcomes
        host final ∧
      base.Extends final ∧ host.KeepsLinks final ∧
      (∀ root ∈ roots,
        (final.entries (here (ways root))).find? name = none ∧
          (final.entries (here (newWays root))).find? newName =
            (host.entries (here (ways root))).find? name) ∧
      ∀ parent other,
        (∀ root ∈ roots, ¬ (parent = here (ways root) ∧ name = other) ∧
          ¬ (parent = here (newWays root) ∧ newName = other)) →
        (final.entries parent).find? other =
          (host.entries parent).find? other := by
  induction roots generalizing host with
  | nil =>
      exact ⟨[], host, .nothing host, extended, fun _ _ told => told,
        (fun _ member => nomatch member), fun _ _ _ => rfl⟩
  | cons root rest ih =>
      rw [List.map_cons, List.nodup_cons] at distinct newDistinct
      rcases List.forall_mem_cons.mp free with ⟨lacks, free⟩
      rcases List.forall_mem_cons.mp newFree with ⟨newLacks, newFree⟩
      rcases links root List.mem_cons_self with ⟨id, link⟩
      rcases lacks.exists_renamed newLacks extended link
        (absent root List.mem_cons_self) with
          ⟨middle, done, grown, keeps, names⟩
      -- No other link lies at either name that is changed.
      have apart : ∀ other ∈ rest,
          here (ways other) ≠ here (ways root) ∧
            here (newWays other) ≠ here (newWays root) :=
        fun other member =>
          ⟨fun same => distinct.1 (List.mem_map.mpr ⟨other, member, same⟩),
            fun same =>
              newDistinct.1 (List.mem_map.mpr ⟨other, member, same⟩)⟩
      have taken : ∀ other ∈ root :: rest, ∀ free ∈ root :: rest,
          ¬ (here (ways other) = here (newWays free) ∧ name = newName) := by
        rintro other member free among ⟨same, rfl⟩
        rcases links other member with ⟨child, held⟩
        have none := absent free among
        rw [← same, held.held] at none
        cases none
      have still : ∀ other ∈ rest,
          (middle.entries (here (ways other))).find? name =
            (host.entries (here (ways other))).find? name := by
        intro other member
        rw [names, if_neg fun both => taken other
          (List.mem_cons_of_mem _ member) root List.mem_cons_self
            ⟨both.1, both.2.symm⟩,
          if_neg fun both => (apart other member).1 both.1]
      have linked : ∀ other ∈ rest, ∃ id,
          middle.HasLink (here (ways other)) name id :=
        fun other member =>
          (links other (List.mem_cons_of_mem _ member)).imp
            fun id link => keeps.hasLink link (still other member)
      have vacant : ∀ other ∈ rest,
          (middle.entries (here (newWays other))).find? newName = none := by
        intro other member
        rw [names, if_neg fun both => (apart other member).2 both.1,
          absent other (List.mem_cons_of_mem _ member), ite_self]
      rcases ih grown free newFree linked vacant distinct.2 newDistinct.2 with
        ⟨outcomes, final, served, more, kept, moved, frame⟩
      have left : (final.entries (here (ways root))).find? name = none := by
        rw [frame _ _ fun device among =>
            ⟨fun both => (apart device among).1 both.1.symm,
              fun both => taken root List.mem_cons_self device
                (List.mem_cons_of_mem _ among) ⟨both.1, both.2.symm⟩⟩,
          names, if_neg fun both => taken root List.mem_cons_self root
            List.mem_cons_self ⟨both.1, both.2.symm⟩, if_pos ⟨rfl, rfl⟩]
      have arrived : (final.entries (here (newWays root))).find? newName =
          some id := by
        rw [frame _ _ fun device among =>
            ⟨fun both => taken device (List.mem_cons_of_mem _ among) root
                List.mem_cons_self ⟨both.1.symm, both.2⟩,
              fun both => (apart device among).2 both.1.symm⟩,
          names, if_pos ⟨rfl, rfl⟩]
      refine ⟨.done :: outcomes, final, .next done served, more,
        keeps.trans kept, List.forall_mem_cons.mpr
          ⟨⟨left, arrived.trans link.held.symm⟩, fun other member =>
            (moved other member).imp_right (·.trans (still other member))⟩,
        fun parent other others => ?_⟩
      rcases List.forall_mem_cons.mp others with ⟨own, others⟩
      rw [frame parent other others, names, if_neg own.2, if_neg own.1]

end Turns

end Host

/-! ## Calls of the stage -/

theorem Coder.devicePath_of_plain
    {coder : Coder}
    (plain : coder.mode ≠ .erasure)
    (path : Path)
    (device : Nat) :
    coder.devicePath path device = path := by
  cases coder with
  | erasure => exact absurd rfl plain
  | replicate => rfl
  | xor => rfl

theorem Coder.update_of_plain
    {coder : Coder}
    (plain : coder.mode ≠ .erasure)
    (change : ErasureCoder → ErasureCoder) :
    coder.update change = coder := by
  cases coder with
  | erasure => exact absurd rfl plain
  | replicate => rfl
  | xor => rfl

namespace Devices

section Plain

variable
  {κ : Type}
  {devices : Devices κ}
  {fleet : Fleet κ}
  {path target : Path}
  {outcomes : List Outcome}
  {final : κ}
  (plain : fleet.coder.mode ≠ .erasure)

include plain

/-- Where files keep their names, a file is where its path is. -/
theorem execute_files_of_plain
    (path : Path) :
    (devices.files path).execute fleet =
      (.ok (devices.barePlaces path), fleet) := by
  have same : devices.filePlaces fleet.coder path =
      devices.barePlaces path := by
    refine List.ext_getElem? fun device => ?_
    simp only [filePlaces, barePlaces, Coder.devicePath_of_plain plain,
      List.getElem?_mapIdx, List.getElem?_map]
  rw [files, Fleet.askCoder, Action.execute_ofRun, same]

theorem unlink_answers
    (served : Served devices.backend
      (devices.roots.map fun root => .unlink (resolve root path)) outcomes
      fleet.host final) :
    (devices.unlink path).Answers fleet ()
      fun left => left = ⟨fleet.coder, final⟩ := by
  have requests : (devices.barePlaces path).map DeviceRequest.unlink =
      devices.roots.map fun root => .unlink (resolve root path) :=
    List.map_map
  rw [← requests] at served
  refine .bind ⟨fleet, execute_files_of_plain plain path, rfl⟩ ?_
  rintro _ rfl
  refine (fanOutDone_answers (by simp [DeviceRequest.isTransfer]) served).bind
    fun left held => ⟨_, rfl, ?_⟩
  subst held
  exact congrArg (Fleet.mk · final) (Coder.update_of_plain plain _)

/-- What is no directory is renamed under its own names. -/
theorem rename_answers
    {attributes : Attributes}
    (known : (devices.primaryAttributes path).execute fleet =
      (.ok attributes, fleet))
    (file : attributes.isDirectory = false)
    (served : Served devices.backend
      (devices.roots.map fun root =>
        .rename (resolve root path) (resolve root target)) outcomes
      fleet.host final) :
    (devices.rename path target).Answers fleet ()
      fun left => left = ⟨fleet.coder, final⟩ := by
  have requests : List.zipWith DeviceRequest.rename
      (devices.barePlaces path) (devices.barePlaces target) =
      devices.roots.map fun root =>
        .rename (resolve root path) (resolve root target) := by
    rw [barePlaces, barePlaces, List.zipWith_map, List.zipWith_self]
  rw [← requests] at served
  refine .bind ⟨fleet, known, rfl⟩ ?_
  rintro _ rfl
  rw [if_neg (by simp [file])]
  refine .bind ⟨_, execute_files_of_plain plain path, rfl⟩ ?_
  rintro _ rfl
  refine .bind ⟨_, execute_files_of_plain plain target, rfl⟩ ?_
  rintro _ rfl
  refine (fanOutDone_answers ?_ served).bind fun left held => ⟨_, rfl, ?_⟩
  · rw [requests]
    simp [DeviceRequest.isTransfer]
  · subst held
    exact congrArg (Fleet.mk · final) (Coder.update_of_plain plain _)

end Plain

section Known

variable
  {root : String}
  {others : List String}
  {fleet : Fleet Host}
  {path : Path}

/-- Where files keep their names, what is known about a path is what the first
device has there. -/
theorem known_of_plain
    (plain : fleet.coder.mode ≠ .erasure) :
    known root path fleet =
      (fleet.host.resolve (resolve root path) false).map
        fun id => (fleet.host.node id).attributes := by
  have asked : Host.backend.attributes (resolve root path) fleet.host =
      (fleet.host.resolve (resolve root path) false).map
        fun id => (fleet.host.node id).attributes :=
    rfl
  unfold known
  rw [Coder.devicePath_of_plain plain, asked]
  cases fleet.host.resolve (resolve root path) false with
  | ok id => rfl
  | error error => simp [Except.map, plain]

end Known

end Devices

/-! ## The life of a link -/

/-- The entry that a place led to is gone from its directory. -/
def Host.Loses
    (before after : Host)
    (place : String) :
    Prop :=
  ∃ found parent name id, before.locate place false = .ok found ∧
    found.place = .entry parent name id ∧
      (after.entries parent).find? name = none

/-- What was at one place is at another one, as it was, and the entry that it
had is gone. -/
structure Host.Moves
    (before after : Host)
    (source target : String) :
    Prop where
  loses : before.Loses after source
  finds : ∃ id, before.resolve source false = .ok id ∧
    after.resolve target false = .ok id ∧
      (after.node id).body = (before.node id).body

/-- Every device has a directory of its own for the last name of a path, and
the name is free there. -/
def Devices.Vacant
    (roots : List String)
    (path : Path)
    (host : Host) :
    Prop :=
  ∃ slot : String → NodeId × String,
    (∀ root ∈ roots, host.vacancy (resolve root path) = .ok (slot root)) ∧
      (roots.map slot).Nodup

theorem Devices.Vacant.exists_ways
    {roots : List String}
    {directory : Path}
    {name : String}
    {host : Host}
    (absolute : ∀ root ∈ roots, Host.isAbsolute root)
    (proper : directory.Proper)
    (named : Path.IsName name)
    (vacant : Vacant roots (directory.child name) host) :
    ∃ ways : String → List (String × NodeId),
      (∀ root ∈ roots,
        host.Lacks (resolve root (directory.child name)) (ways root) name) ∧
      (roots.map fun root => Host.here (ways root)).Nodup := by
  rcases vacant with ⟨slot, free, distinct⟩
  have found : ∀ root, ∃ way, root ∈ roots →
      host.Lacks (resolve root (directory.child name)) way name ∧
        slot root = (Host.here way, name) := by
    intro root
    by_cases member : root ∈ roots
    · have names := Host.namesOf_place (absolute root member)
        (proper.child named)
      have bare := Host.endsInSlash_place (absolute root member)
        (proper.child named)
      rcases Host.vacancy_eq_ok_iff.mp (free root member) with
        ⟨found, located, -⟩
      rw [Path.child, ← List.append_assoc] at names
      rcases Host.exists_seeks_of_locate located names named.2.2 with
        ⟨way, seeks, -⟩
      rcases (seeks.vacancy_eq_ok_iff bare).mp (free root member) with
        ⟨absent, same⟩
      exact ⟨way, fun _ => ⟨⟨seeks, absent, bare⟩, same⟩⟩
    · exact ⟨[], fun among => absurd among member⟩
  choose ways lacks using found
  refine ⟨ways, fun root member => (lacks root member).1, ?_⟩
  have same : roots.map slot =
      (roots.map fun root => Host.here (ways root)).map (·, name) := by
    rw [List.map_map]
    exact List.map_congr_left fun root member => (lacks root member).2
  rw [same] at distinct
  exact distinct.of_map _

namespace Layer

/--
The life of a link that was just made: it is listed as what it is, it moves on
every device to any path that is free and does not lead through the link, and
it is removed from every device, so that it is not found any more.
-/
structure LinkLives
    (layer : Layer (Session (Fleet Host)))
    (roots : List String)
    (directory : Path)
    (name : String)
    (before after : Session (Fleet Host)) :
    Prop where
  listed : ∃ handle opened entries read,
    (layer.openDirectory directory).execute after = (.ok handle, opened) ∧
    (layer.readDirectory directory handle).execute opened =
      (.ok entries, read) ∧
    ⟨name, .symlink⟩ ∈ entries
  renamed : ∀ (folder : Path) (other : String), folder.Proper →
    Path.IsName other →
    Devices.Vacant roots (folder.child other) before.storage.host →
    Devices.Vacant roots (folder.child other) after.storage.host →
    ∃ left,
      (layer.rename (directory.child name) (folder.child other)).execute
        after = (.ok (), left) ∧
      ∀ root ∈ roots, after.storage.host.Moves left.storage.host
        (Devices.resolve root (directory.child name))
        (Devices.resolve root (folder.child other))
  unlinked : ∃ left,
    (layer.unlink (directory.child name)).execute after = (.ok (), left) ∧
    (∀ root ∈ roots, after.storage.host.Loses left.storage.host
      (Devices.resolve root (directory.child name))) ∧
    ((layer.attributes (directory.child name) none).execute left).1 =
      .error (.host .notFound)

/-- What the first device does not have is not found. -/
theorem attributes_of_missing
    {root : String}
    {others : List String}
    {meter : Meter (Session (Fleet Host))}
    {path : Path}
    {session : Session (Fleet Host)}
    (missing : Devices.known root path session.storage = .error .notFound) :
    (((Layer.ofDevices ⟨Host.backend, root :: others⟩ meter).attributes path
      none).execute session).1 = .error (.host .notFound) := by
  have asked := Devices.execute_primaryAttributes root others path
    session.storage
  rw [missing] at asked
  have answered : ((Devices.attributes ⟨Host.backend, root :: others⟩ path
      none).execute session.storage).1 = .error (.host .notFound) := by
    rw [Devices.attributes_eq_bind, Action.execute_bind, asked]
    rfl
  exact answered

section Plain

variable
  {root : String}
  {others : List String}
  {meter : Meter (Session (Fleet Host))}
  {directory : Path}
  {name : String}
  {base : Host}
  {after : Session (Fleet Host)}
  {ways : String → List (String × NodeId)}
  (plain : after.storage.coder.mode ≠ .erasure)
  (grown : base.Extends after.storage.host)
  (free : ∀ device ∈ root :: others,
    base.Lacks (Devices.resolve device (directory.child name)) (ways device)
      name)
  (links : ∀ device ∈ root :: others, ∃ id,
    after.storage.host.HasLink (Host.here (ways device)) name id)

include plain grown free links

/-- A link that is there is listed. -/
theorem listed_of_links
    (absolute : ∀ device ∈ root :: others, Host.isAbsolute device)
    (proper : directory.Proper)
    (named : Path.IsName name) :
    let layer := Layer.ofDevices ⟨Host.backend, root :: others⟩ meter
    ∃ handle opened entries read,
      (layer.openDirectory directory).execute after = (.ok handle, opened) ∧
      (layer.readDirectory directory handle).execute opened =
        (.ok entries, read) ∧
      ⟨name, .symlink⟩ ∈ entries := by
  intro layer
  have parent (device : String) (member : device ∈ root :: others) :=
    ((free device member).seeks.extended grown).resolve_parent
      (absolute device member) (proper.child named)
  rcases lists_of_directories (parent root List.mem_cons_self)
    fun device member => ⟨_, parent device member,
      ((free device member).seeks.extended grown).directory⟩ with
    ⟨handle, opened, read, stored, opens, lists, same⟩
  refine ⟨handle, opened, _, read, opens, lists,
    (mem_listed_iff same).mpr ?_⟩
  rcases links root List.mem_cons_self with ⟨id, held, target, told⟩
  refine ⟨id, ?_, by rw [told]; rfl⟩
  rw [Coder.storedName, if_neg (by simp), Coder.ending_of_plain plain,
    String.append_empty]
  exact Table.mem_of_find? held

variable
  (distinct : ((root :: others).map fun device =>
    Host.here (ways device)).Nodup)

include distinct

/-- Links that are there are removed. -/
theorem unlinked_of_links :
    let layer := Layer.ofDevices ⟨Host.backend, root :: others⟩ meter
    ∃ left,
      (layer.unlink (directory.child name)).execute after = (.ok (), left) ∧
      (∀ device ∈ root :: others,
        after.storage.host.Loses left.storage.host
          (Devices.resolve device (directory.child name))) ∧
      ((layer.attributes (directory.child name) none).execute left).1 =
        .error (.host .notFound) := by
  intro layer
  rcases Host.exists_served_unlinks grown free links distinct with
    ⟨outcomes, final, served, more, -, gone⟩
  have unlinks : ((⟨Host.backend, root :: others⟩ : Devices Host).unlink
      (directory.child name)).Answers after.storage () _ :=
    Devices.unlink_answers plain served
  rcases Session.onStorage_answers unlinks with ⟨left, ran, held⟩
  have host : left.storage.host = final := congrArg Fleet.host held
  have coder : left.storage.coder = after.storage.coder := by rw [held]
  refine ⟨left, ran, fun device member => ?_, ?_⟩
  · rcases links device member with ⟨id, link⟩
    have seeks := (free device member).seeks.extended grown
    refine ⟨_, _, _, _, seeks.locate_entry link.held, rfl, ?_⟩
    rw [host]
    exact gone device member
  · have seeks := (free root List.mem_cons_self).seeks.extended more
    refine attributes_of_missing ?_
    rw [Devices.known_of_plain (coder ▸ plain), host,
      seeks.resolve (free root List.mem_cons_self).bare,
      gone root List.mem_cons_self]
    rfl

/-- Links that are there are moved to a path that is free. -/
theorem renamed_of_links
    {folder : Path}
    {other : String}
    (absolute : ∀ device ∈ root :: others, Host.isAbsolute device)
    (newProper : folder.Proper)
    (newNamed : Path.IsName other)
    (before : Devices.Vacant (root :: others) (folder.child other) base)
    (vacant : Devices.Vacant (root :: others) (folder.child other)
      after.storage.host) :
    let layer := Layer.ofDevices ⟨Host.backend, root :: others⟩ meter
    ∃ left,
      (layer.rename (directory.child name) (folder.child other)).execute
        after = (.ok (), left) ∧
      ∀ device ∈ root :: others, after.storage.host.Moves left.storage.host
        (Devices.resolve device (directory.child name))
        (Devices.resolve device (folder.child other)) := by
  intro layer
  rcases before.exists_ways absolute newProper newNamed with
    ⟨newWays, newFree, newDistinct⟩
  rcases vacant with ⟨slot, slots, -⟩
  have absent (device : String) (member : device ∈ root :: others) :
      (after.storage.host.entries (Host.here (newWays device))).find? other =
        none :=
    ((((newFree device member).seeks.extended grown).vacancy_eq_ok_iff
      (newFree device member).bare).mp (slots device member)).1
  rcases Host.exists_served_renames grown free newFree links absent distinct
    newDistinct with ⟨outcomes, final, served, more, keeps, moved, -⟩
  -- What is renamed is a link, and so it is renamed as a file.
  rcases links root List.mem_cons_self with ⟨id, link⟩
  have known : Devices.known root (directory.child name) after.storage =
      .ok (after.storage.host.node id).attributes := by
    have seeks := (free root List.mem_cons_self).seeks.extended grown
    rw [Devices.known_of_plain plain,
      seeks.resolve (free root List.mem_cons_self).bare, link.held]
    rfl
  have asked := Devices.execute_primaryAttributes root others
    (directory.child name) after.storage
  rw [known] at asked
  have file : (after.storage.host.node id).attributes.isDirectory = false := by
    rcases link.told with ⟨target, told⟩
    rw [Node.attributes, told]
    rfl
  have renames : ((⟨Host.backend, root :: others⟩ : Devices Host).rename
      (directory.child name) (folder.child other)).Answers after.storage ()
        _ :=
    Devices.rename_answers plain asked file served
  rcases Session.onStorage_answers renames with ⟨left, ran, held⟩
  have host : left.storage.host = final := congrArg Fleet.host held
  refine ⟨left, ran, fun device member => ?_⟩
  rcases links device member with ⟨child, there, target, told⟩
  have seeks := (free device member).seeks.extended grown
  have newSeeks := (newFree device member).seeks.extended more
  rw [host]
  refine ⟨⟨_, _, _, _, seeks.locate_entry there, rfl,
    (moved device member).1⟩, child, ?_, ?_, ?_⟩
  · rw [seeks.resolve (free device member).bare, there]
  · rw [newSeeks.resolve (newFree device member).bare,
      (moved device member).2, there]
  · rw [keeps child target told, told]

end Plain

/-- What is removed where files have names of their own is never the link. -/
theorem unlink_keeps_of_erasure
    {root : String}
    {others : List String}
    {meter : Meter (Session (Fleet Host))}
    {directory : Path}
    {name : String}
    {after left : Session (Fleet Host)}
    (absolute : ∀ device ∈ root :: others, Host.isAbsolute device)
    (proper : directory.Proper)
    (named : Path.IsName name)
    (books : after.storage.coder.mode = .erasure)
    (ran : ((Layer.ofDevices ⟨Host.backend, root :: others⟩ meter).unlink
      (directory.child name)).execute after = (.ok (), left))
    {parent id : NodeId}
    (held : (after.storage.host.entries parent).find? name = some id) :
    (left.storage.host.entries parent).find? name = some id := by
  have unlinks : (Session.onStorage (Devices.unlink
      ⟨Host.backend, root :: others⟩ (directory.child name))).execute after =
        (.ok (), left) :=
    ran
  have kept (request : DeviceRequest)
      (among : request ∈ (Devices.filePlaces ⟨Host.backend, root :: others⟩
        after.storage.coder (directory.child name)).map .unlink)
      (host : Host)
      (held : (host.entries parent).find? name = some id) :
      ((Host.backend.perform request host).2.entries parent).find? name =
        some id := by
    rcases List.mem_map.mp among with ⟨place, member, rfl⟩
    rcases List.mem_mapIdx.mp member with ⟨device, inside, rfl⟩
    have longer :=
      Coder.isName_ending named after.storage.coder device
    have names := Host.namesOf_place
      (absolute _ (List.getElem_mem inside)) (proper.child longer)
    rw [Path.child, ← List.append_assoc] at names
    rw [Coder.devicePath_child]
    rcases Host.unlink_cases _ host with
      same | ⟨found, other, last, child, located, entry, same⟩
    · rw [same]
      exact held
    · rcases Host.exists_seeks_of_locate located names longer.2.2 with
        ⟨way, seeks, rfl⟩
      have taken : other = Host.here way ∧
          last = name ++ after.storage.coder.ending device := by
        unfold Host.spot at entry
        split at entry
        · cases entry
          exact ⟨rfl, rfl⟩
        · cases entry
      rcases taken with ⟨rfl, rfl⟩
      rw [same, Host.entries_dropLink, Host.find?_eraseName seeks.directory,
        if_neg, held]
      rintro ⟨-, alike⟩
      have long := Coder.ending_long_of_erasure books device
      have length := congrArg String.length alike
      rw [String.length_append] at length
      omega
  rcases Action.execute_bind_eq_ok (Session.execute_onStorage unlinks) with
    ⟨places, fleet, asked, ran⟩
  rcases Prod.mk.inj asked with ⟨answered, rfl⟩
  obtain rfl := Except.ok.inj answered
  rcases Action.execute_bind_eq_ok ran with ⟨_, reached, done, told⟩
  have preserved := @Devices.fanOutDone_preserves Host
    (fun host => (host.entries parent).find? name = some id)
    ⟨Host.backend, root :: others⟩ _ kept after.storage held
  rw [done] at preserved
  rw [← congrArg Fleet.host (Prod.mk.inj told).2]
  exact preserved

/--
Whenever a link was made under a name that was free, its life is what it has
to be exactly if files keep their names on the devices.
-/
theorem linkLives_iff
    {root : String}
    {others : List String}
    {meter : Meter (Session (Fleet Host))}
    (absolute : ∀ device ∈ root :: others, Host.isAbsolute device)
    {directory : Path}
    (proper : directory.Proper)
    {name : String}
    (named : Path.IsName name)
    (target : String)
    {before after : Session (Fleet Host)}
    (vacant : Devices.Vacant (root :: others) (directory.child name)
      before.storage.host) :
    let layer := Layer.ofDevices ⟨Host.backend, root :: others⟩ meter
    (layer.symlink target (directory.child name)).execute before =
      (.ok (), after) →
    (layer.LinkLives (root :: others) directory name before after ↔
      before.storage.coder.mode ≠ .erasure) := by
  intro layer made
  rcases vacant.exists_ways absolute proper named with ⟨ways, free, -⟩
  have asked : (layer.symlink target (directory.child name)) =
      Session.onStorage (Devices.symlink ⟨Host.backend, root :: others⟩ target
        (directory.child name)) :=
    rfl
  rw [asked] at made
  rcases Action.execute_bind_eq_ok (Session.execute_onStorage made) with
    ⟨outcomes, reached, ran, ends⟩
  have same := (Prod.mk.inj ends).2
  subst same
  rcases (Devices.fanOut_eq_ok_iff (by simp [DeviceRequest.isTransfer])).mp
    ran with ⟨coder, served⟩
  rcases Host.links_of_served (.refl _) free served with
    ⟨grown, made, distinct⟩
  have links (device : String) (member : device ∈ root :: others) :=
    (made device member).2
  constructor
  · rintro ⟨-, -, left, unlinks, loses, -⟩ books
    rcases links root List.mem_cons_self with ⟨id, link⟩
    rcases loses root List.mem_cons_self with
      ⟨found, parent, last, child, located, entry, gone⟩
    have seeks := (free root List.mem_cons_self).seeks.extended grown
    rw [seeks.locate_entry link.held] at located
    cases located
    cases entry
    have kept := unlink_keeps_of_erasure absolute proper named
      ((congrArg Coder.mode coder).trans books) unlinks link.held
    rw [gone] at kept
    cases kept
  · intro plain
    rw [← coder] at plain
    refine ⟨listed_of_links plain grown free links absolute proper named, ?_,
      unlinked_of_links plain grown free links distinct⟩
    intro folder other newProper newNamed old new
    exact renamed_of_links plain grown free links distinct absolute newProper
      newNamed old new

end Layer

/-! ## Two devices -/

namespace Host

/-- A link in each of two directories below the root. -/
def twoLinks :
    Host :=
  (addNode 2 "l" (.symlink "t") 0o777
    (addNode 1 "l" (.symlink "t") 0o777 twoDirectories).2).2

theorem vacancy_of_two :
    twoDirectories.vacancy "/first/l" = .ok (1, "l") ∧
      twoDirectories.vacancy "/second/l" = .ok (2, "l") := by
  constructor
  · have seeks := @seeks_below_root twoDirectories "/first/l" "first" "l" 1 rfl
      rfl rfl (by decide) rfl rfl (by decide)
    exact vacancy_eq_ok_iff.mpr ⟨_, seeks.locate_free rfl false, rfl, rfl⟩
  · have seeks := @seeks_below_root twoDirectories "/second/l" "second" "l" 2
      rfl rfl rfl (by decide) rfl rfl (by decide)
    exact vacancy_eq_ok_iff.mpr ⟨_, seeks.locate_free rfl false, rfl, rfl⟩

theorem served_two_links :
    Served backend [.symlink "t" "/first/l", .symlink "t" "/second/l"]
      [.done, .done] twoDirectories twoLinks := by
  have seeks := @seeks_below_root
    (addNode 1 "l" (.symlink "t") 0o777 twoDirectories).2 "/second/l" "second"
    "l" 2 rfl rfl rfl (by decide) rfl rfl (by decide)
  have vacant := vacancy_eq_ok_iff.mpr
    ⟨_, seeks.locate_free rfl false, rfl, rfl⟩
  exact .next (perform_symlink (by decide) rfl vacancy_of_two.1)
    (.next (perform_symlink (by decide) rfl vacant) (.nothing _))

end Host

namespace Layer

open Host (twoDirectories twoLinks)

/-- A link that is made in both directories. -/
theorem symlink_answers_of_two
    (coder : Coder) :
    (ofTwoDirectories.symlink "t" ⟨["l"]⟩).Answers
      { storage := ⟨coder, twoDirectories⟩ } ()
      fun left => left.storage = ⟨coder, twoLinks⟩ :=
  @symlink_answers Host ⟨Host.backend, ["/first", "/second"]⟩ .silent
    { storage := ⟨coder, twoDirectories⟩ } ⟨["l"]⟩ twoLinks "t" _
    Host.served_two_links

/-- A link that is made by a code is not listed and not removed, and it is
still there. -/
theorem link_neither_listed_nor_removed :
    ∃ (coder : ErasureCoder) (made : Session (Fleet Host)),
      ErasureCoder.ofShape 1 1 = .ok coder ∧
      (ofTwoDirectories.symlink "t" ⟨["l"]⟩).execute
        { storage := ⟨.erasure coder, twoDirectories⟩ } = (.ok (), made) ∧
      (∃ handle opened read,
        (ofTwoDirectories.openDirectory ⟨[]⟩).execute made =
          (.ok handle, opened) ∧
        (ofTwoDirectories.readDirectory ⟨[]⟩ handle).execute opened =
          (.ok [], read)) ∧
      ((ofTwoDirectories.unlink ⟨["l"]⟩).execute made).1 =
        .error (.device 0 .notFound) ∧
      ofTwoDirectories.Reports ⟨["l"]⟩ .symlink made := by
  obtain ⟨coder, shape, data, parity⟩ : ∃ coder : ErasureCoder,
      ErasureCoder.ofShape 1 1 = .ok coder ∧
        coder.suffix 0 = "-00000.data" ∧ coder.suffix 1 = "-00000.parity" :=
    ⟨_, rfl, rfl, rfl⟩
  rcases symlink_answers_of_two (.erasure coder) with ⟨made, ran, storage⟩
  have host : made.storage.host = twoLinks := congrArg Fleet.host storage
  have first := @Host.seeks_below_root twoLinks "/first/l-00000.data" "first"
    "l-00000.data" 1 rfl rfl rfl (by decide) rfl rfl (by decide)
  have second := @Host.seeks_below_root twoLinks "/second/l-00000.parity"
    "second" "l-00000.parity" 2 rfl rfl rfl (by decide) rfl rfl (by decide)
  have link := @Host.seeks_below_root twoLinks "/first/l" "first" "l" 1 rfl
    rfl rfl (by decide) rfl rfl (by decide)
  refine ⟨coder, made, shape, ran, ?_, ?_, ?_⟩
  · rcases @directories_of_two twoLinks rfl rfl rfl rfl with
      ⟨resolved, there⟩
    rw [← host] at resolved there
    rcases @lists_of_directories "/first" ["/second"] .silent ⟨[]⟩ _ made
      resolved there with ⟨handle, opened, read, stored, opens, lists, same⟩
    have hidden : made.storage.coder.listed stored = [] := by
      refine List.eq_nil_iff_forall_not_mem.mpr fun entry member => ?_
      rcases (mem_listed_iff same).mp member with ⟨child, held, kind⟩
      rw [host] at held kind
      obtain ⟨named, rfl⟩ := Prod.mk.inj (List.mem_singleton.mp held)
      have link : entry.kind = .symlink := kind.symm
      rw [Coder.storedName, if_neg (by rw [link]; decide), storage] at named
      have long := @Coder.ending_long_of_erasure (.erasure coder) rfl 0
      have length := congrArg String.length named
      dsimp only at length
      rw [String.length_append] at length
      have short : "l".length = 1 := rfl
      omega
    rw [hidden] at lists
    exact ⟨handle, opened, read, opens, lists⟩
  · have firstAsked := Host.perform_unlink_of_free
      (first.locate_free rfl false)
    have secondAsked := Host.perform_unlink_of_free
      (second.locate_free rfl false)
    have places : Devices.filePlaces ⟨Host.backend, ["/first", "/second"]⟩
        (.erasure coder) ⟨["l"]⟩ =
          ["/first/l-00000.data", "/second/l-00000.parity"] := by
      simp only [Devices.filePlaces, Coder.devicePath, List.mapIdx_cons,
        List.mapIdx_nil, data, parity]
      rfl
    have asked : ofTwoDirectories.unlink ⟨["l"]⟩ =
        Session.onStorage (Devices.unlink
          ⟨Host.backend, ["/first", "/second"]⟩ ⟨["l"]⟩) :=
      rfl
    have refused : ((Devices.unlink ⟨Host.backend, ["/first", "/second"]⟩
        ⟨["l"]⟩).execute ⟨.erasure coder, twoLinks⟩).1 =
          .error (.device 0 .notFound) := by
      simp only [Devices.unlink, Devices.files, Fleet.askCoder,
        Action.execute_bind, Action.execute_ofRun, places, Devices.fanOutDone,
        Devices.fanOut, Fleet.onHost, Fanout.execute_dispatch, List.map_cons,
        List.map_nil, Fanout.inTurn, firstAsked, secondAsked]
      rfl
    rcases left : (ofTwoDirectories.unlink ⟨["l"]⟩).execute made with
      ⟨answer, later⟩
    rw [asked] at left
    have answered := Session.execute_onStorage left
    rw [storage] at answered
    rw [answered] at refused
    exact refused
  · have missing : Host.backend.attributes "/first/l-00000.data" twoLinks =
        .error .notFound := by
      change (Host.resolve _ _ _).map _ = _
      rw [first.resolve rfl]
      rfl
    have present : Host.backend.attributes "/first/l" twoLinks =
        .ok (twoLinks.node 3).attributes := by
      change (Host.resolve _ _ _).map _ = _
      rw [link.resolve rfl]
      rfl
    have place : Devices.resolve "/first"
        (Coder.devicePath (.erasure coder) ⟨["l"]⟩ 0) =
          "/first/l-00000.data" := by
      rw [Coder.devicePath, data]
      rfl
    have known : Devices.known "/first" ⟨["l"]⟩ made.storage =
        .ok (twoLinks.node 3).attributes := by
      rw [storage]
      unfold Devices.known
      rw [place, missing]
      dsimp only
      rw [if_pos ⟨rfl, rfl⟩]
      exact present
    exact (@reports_iff "/first" ["/second"] .silent ⟨["l"]⟩ .symlink
      made).mpr ⟨_, known, rfl⟩

/-- A link lives on two copies of a directory, and not in a code. -/
theorem linkLives_iff_of_two :
    (∃ made,
      (ofTwoDirectories.symlink "t" ⟨["l"]⟩).execute
        { storage := ⟨.replicate, twoDirectories⟩ } = (.ok (), made) ∧
      ofTwoDirectories.LinkLives ["/first", "/second"] ⟨[]⟩ "l"
        { storage := ⟨.replicate, twoDirectories⟩ } made) ∧
    ∃ (coder : ErasureCoder) (made : Session (Fleet Host)),
      ErasureCoder.ofShape 1 1 = .ok coder ∧
      (ofTwoDirectories.symlink "t" ⟨["l"]⟩).execute
        { storage := ⟨.erasure coder, twoDirectories⟩ } = (.ok (), made) ∧
      ¬ ofTwoDirectories.LinkLives ["/first", "/second"] ⟨[]⟩ "l"
        { storage := ⟨.erasure coder, twoDirectories⟩ } made := by
  have absolute : ∀ device ∈ ["/first", "/second"],
      Host.isAbsolute device := by
    decide
  have proper : Path.Proper ⟨[]⟩ := fun _ member => nomatch member
  have named : Path.IsName "l" := by decide
  have vacant : Devices.Vacant ["/first", "/second"] (Path.child ⟨[]⟩ "l")
      twoDirectories := by
    refine ⟨fun root => (if root = "/first" then 1 else 2, "l"),
      fun root member => ?_, by decide⟩
    rcases List.mem_cons.mp member with rfl | member
    · exact Host.vacancy_of_two.1
    · obtain rfl := List.mem_singleton.mp member
      exact Host.vacancy_of_two.2
  constructor
  · rcases symlink_answers_of_two .replicate with ⟨made, ran, -⟩
    exact ⟨made, ran, (linkLives_iff absolute proper named "t" vacant
      ran).mpr nofun⟩
  · rcases symlink_answers_of_two (.erasure _) with ⟨made, ran, -⟩
    refine ⟨_, made, rfl, ran, fun lives => ?_⟩
    exact (linkLives_iff absolute proper named "t" vacant ran).mp lives rfl

end Layer

end Strata
