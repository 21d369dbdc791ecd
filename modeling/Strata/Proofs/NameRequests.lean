import Strata.Proofs.DevicesInTurn
import Strata.Proofs.TidyHosts

/-!
# Requests on names

What the host does when it is asked to make, move or remove a name, said for
the end of the walk of the place.  A host that can still pass whatever another
one passes seeks the same names in the same directories, so that what is done
to names which one host did not have leaves its places where they are.
-/

namespace Strata.Host

open Fanout (reported)

variable
  {host later base : Host}
  {id parent directory child : NodeId}
  {name other place target : String}
  {way : List (String × NodeId)}

/-! ## What changes -/

theorem isDirectory_of_find?
    (held : (host.entries directory).find? name = some id) :
    host.isDirectory directory := by
  unfold Host.entries at held
  split at held
  · rename_i entries body
    exact isDirectory_iff.mpr ⟨entries, body⟩
  · cases held

/-- What is missing is no link. -/
theorem lt_size_of_link
    (told : (host.node id).body = .symlink target) :
    id < host.nodes.size := by
  by_contra outside
  unfold node at told
  rw [Array.getD_eq_getD_getElem?,
    Array.getElem?_eq_none (Nat.le_of_not_lt outside)] at told
  cases told

theorem body_changeEntries
    (host : Host)
    (id other : NodeId)
    (change : Table String NodeId → Table String NodeId) :
    ((host.changeEntries id change).node other).body =
      match (host.node other).body with
      | .directory entries =>
        .directory (if other = id then change entries else entries)
      | body => body := by
  rw [changeEntries, node_changeNode]
  by_cases same : other = id
  · subst same
    by_cases inside : other < host.nodes.size
    · rw [if_pos ⟨rfl, inside⟩]
      cases body : (host.node other).body <;> simp [body]
    · rw [if_neg (fun both => inside both.2)]
      cases body : (host.node other).body with
      | directory entries =>
          exact absurd (lt_size_of_isDirectory
            (isDirectory_iff.mpr ⟨entries, body⟩)) inside
      | _ => rfl
  · rw [if_neg (fun both => same both.1)]
    cases (host.node other).body <;> simp [same]

@[simp]
theorem isDirectory_changeEntries
    (change : Table String NodeId → Table String NodeId) :
    (host.changeEntries id change).isDirectory directory =
      host.isDirectory directory := by
  unfold isDirectory
  rw [body_changeEntries]
  cases (host.node directory).body <;> rfl

theorem entries_changeEntries
    (isDirectory : host.isDirectory id)
    (change : Table String NodeId → Table String NodeId)
    (directory : NodeId) :
    (host.changeEntries id change).entries directory =
      if directory = id then change (host.entries id)
      else host.entries directory := by
  unfold Host.entries
  rw [body_changeEntries]
  by_cases same : directory = id
  · subst same
    rcases isDirectory_iff.mp isDirectory with ⟨entries, body⟩
    simp [body]
  · cases (host.node directory).body <;> simp [same]

@[simp]
theorem find?_setName
    (isDirectory : host.isDirectory parent) :
    ((host.setName parent name id).entries directory).find? other =
      if directory = parent ∧ name = other then
        some id
      else
        (host.entries directory).find? other := by
  rw [setName, entries_changeEntries isDirectory]
  by_cases same : directory = parent
  · simp [same]
  · simp [same]

@[simp]
theorem find?_eraseName
    (isDirectory : host.isDirectory parent) :
    ((host.eraseName parent name).entries directory).find? other =
      if directory = parent ∧ name = other then
        none
      else
        (host.entries directory).find? other := by
  rw [eraseName, entries_changeEntries isDirectory]
  by_cases same : directory = parent
  · simp [same]
  · simp [same]

@[simp]
theorem isDirectory_eraseName :
    (host.eraseName parent name).isDirectory directory =
      host.isDirectory directory :=
  isDirectory_changeEntries _

theorem body_dropLink
    (host : Host)
    (id other : NodeId) :
    ((host.dropLink id).node other).body = (host.node other).body := by
  rw [dropLink, node_changeNode]
  split <;> rfl

@[simp]
theorem isDirectory_dropLink :
    (host.dropLink id).isDirectory directory =
      host.isDirectory directory := by
  unfold isDirectory
  rw [body_dropLink]

@[simp]
theorem entries_dropLink :
    (host.dropLink id).entries directory = host.entries directory := by
  unfold Host.entries
  rw [body_dropLink]

/-- A link says what it said, whatever is changed in directories. -/
theorem body_changeEntries_of_link
    (told : (host.node child).body = .symlink target)
    (change : Table String NodeId → Table String NodeId) :
    ((host.changeEntries id change).node child).body = .symlink target := by
  rw [body_changeEntries, told]

section Added

variable
  {body : Body}
  {permissions : Nat}

/-- The host with one more object, before it has a name. -/
theorem body_addNode
    (isDirectory : host.isDirectory parent)
    (child : NodeId) :
    ((host.addNode parent name body permissions).2.node child).body =
      if child = host.nodes.size then
        body
      else
        match (host.node child).body with
        | .directory entries =>
          .directory (if child = parent then
            entries.set name host.nodes.size else entries)
        | body => body := by
  have old := (lt_size_of_isDirectory isDirectory).ne
  rw [addNode, body_changeEntries, node_push]
  by_cases added : child = host.nodes.size
  · rw [if_pos added, if_pos added, body_newNode]
    cases body <;> simp [added, old.symm]
  · rw [if_neg added, if_neg added]

theorem isDirectory_addNode
    (isDirectory : host.isDirectory parent)
    (before : host.isDirectory directory) :
    (host.addNode parent name body permissions).2.isDirectory directory := by
  rcases isDirectory_iff.mp before with ⟨entries, held⟩
  have old := (lt_size_of_isDirectory before).ne
  refine isDirectory_iff.mpr ⟨if directory = parent then
    entries.set name host.nodes.size else entries, ?_⟩
  rw [body_addNode isDirectory, if_neg old, held]

theorem find?_addNode
    (isDirectory : host.isDirectory parent)
    (before : host.isDirectory directory) :
    ((host.addNode parent name body permissions).2.entries directory).find?
        other =
      if directory = parent ∧ name = other then
        some host.nodes.size
      else
        (host.entries directory).find? other := by
  rcases isDirectory_iff.mp before with ⟨entries, held⟩
  have old := (lt_size_of_isDirectory before).ne
  unfold Host.entries
  rw [body_addNode isDirectory, if_neg old, held]
  by_cases same : directory = parent
  · simp [same]
  · simp [same]

end Added

/-! ## Hosts that have more -/

/-- Whatever one host has, another one has as well. -/
structure Extends
    (base host : Host) :
    Prop where
  home : host.home = base.home
  directories : ∀ id, base.isDirectory id → host.isDirectory id
  links : ∀ id target,
    (base.node id).body = .symlink target →
      (host.node id).body = .symlink target
  names : ∀ directory name id,
    (base.entries directory).find? name = some id →
      (host.entries directory).find? name = some id

namespace Extends

theorem refl
    (host : Host) :
    host.Extends host :=
  ⟨rfl, fun _ => id, fun _ _ => id, fun _ _ _ => id⟩

theorem trans
    (first : base.Extends host)
    (second : host.Extends later) :
    base.Extends later :=
  ⟨second.home.trans first.home,
    fun id held => second.directories id (first.directories id held),
    fun id target told => second.links id target (first.links id target told),
    fun directory name id held =>
      second.names directory name id (first.names directory name id held)⟩

variable (extended : base.Extends host)

include extended

theorem changeEntries
    {change : Table String NodeId → Table String NodeId}
    (isDirectory : host.isDirectory parent)
    (kept : ∀ name id, (base.entries parent).find? name = some id →
      (change (host.entries parent)).find? name = some id) :
    base.Extends (host.changeEntries parent change) := by
  refine ⟨extended.home, fun id held => ?_, fun id target told => ?_,
    fun directory name id held => ?_⟩
  · rw [isDirectory_changeEntries]
    exact extended.directories id held
  · exact body_changeEntries_of_link (extended.links id target told) change
  · rw [entries_changeEntries isDirectory]
    split
    · rename_i same
      subst same
      exact kept name id held
    · exact extended.names directory name id held

/-- A name that one host does not have can be given on the other. -/
theorem setName
    (isDirectory : host.isDirectory parent)
    (absent : (base.entries parent).find? name = none) :
    base.Extends (host.setName parent name id) := by
  refine extended.changeEntries isDirectory fun other child held => ?_
  rw [Table.find?_set, if_neg]
  · exact extended.names parent other child held
  · rintro rfl
    rw [absent] at held
    cases held

/-- A name that one host does not have can be taken from the other. -/
theorem eraseName
    (isDirectory : host.isDirectory parent)
    (absent : (base.entries parent).find? name = none) :
    base.Extends (host.eraseName parent name) := by
  refine extended.changeEntries isDirectory fun other child held => ?_
  rw [Table.find?_erase, if_neg]
  · exact extended.names parent other child held
  · rintro rfl
    rw [absent] at held
    cases held

theorem dropLink
    (id : NodeId) :
    base.Extends (host.dropLink id) := by
  refine ⟨extended.home, fun other held => ?_, fun other target told => ?_,
    fun directory name other held => ?_⟩
  · rw [isDirectory_dropLink]
    exact extended.directories other held
  · rw [body_dropLink]
    exact extended.links other target told
  · rw [entries_dropLink]
    exact extended.names directory name other held

/-- An object can be added under a name that one host does not have. -/
theorem addNode
    {body : Body}
    {permissions : Nat}
    (isDirectory : host.isDirectory parent)
    (absent : (base.entries parent).find? name = none) :
    base.Extends (host.addNode parent name body permissions).2 := by
  refine ⟨extended.home, fun id held => ?_, fun id target told => ?_,
    fun directory other id held => ?_⟩
  · exact isDirectory_addNode isDirectory (extended.directories id held)
  · have present := extended.links id target told
    rw [body_addNode isDirectory, if_neg (lt_size_of_link present).ne, present]
  · have present := extended.names directory other id held
    rw [find?_addNode isDirectory (isDirectory_of_find? present), if_neg,
      present]
    rintro ⟨rfl, rfl⟩
    rw [absent] at held
    cases held

end Extends

/-- A host has more than what is left when a name is taken away. -/
theorem eraseName_extends
    (isDirectory : host.isDirectory parent) :
    (host.eraseName parent name).Extends host := by
  refine ⟨rfl, fun id held => ?_, fun id target told => ?_,
    fun directory other id held => ?_⟩
  · rwa [isDirectory_eraseName] at held
  · rw [eraseName, body_changeEntries] at told
    split at told
    · cases told
    · exact told
  · rw [find?_eraseName isDirectory] at held
    split at held
    · cases held
    · exact held

theorem dropLink_extends
    (id : NodeId) :
    (host.dropLink id).Extends host := by
  refine ⟨rfl, fun other held => ?_, fun other target told => ?_,
    fun directory name other held => ?_⟩
  · rwa [isDirectory_dropLink] at held
  · rwa [body_dropLink] at told
  · rwa [entries_dropLink] at held

section Seeks

variable
  {follow : Bool}
  {walker next : Walker}

/-- What one host passes, a host that has more passes as well. -/
theorem Passes.extended
    (passes : base.Passes follow walker next)
    (extended : base.Extends host) :
    host.Passes follow walker next := by
  have held {way : List (String × NodeId)} {name : String} {id : NodeId}
      (found : base.child (here way) name = .ok (some id)) :
      host.child (here way) name = .ok (some id) := by
    rcases child_eq_ok_iff.mp found with ⟨directory, short, present⟩
    exact child_eq_ok_iff.mpr ⟨extended.directories _ directory, short,
      extended.names _ _ _ present⟩
  cases passes with
  | stay => exact .stay ..
  | up => exact .up ..
  | enter budget slash plain found directory more =>
      exact .enter budget slash plain (held found)
        (extended.directories _ directory) more
  | link budget slash plain found told more =>
      exact .link budget slash plain (held found)
        (extended.links _ _ told) more

/-- A name that is sought on one host is sought in the same directory on a
host that has more. -/
theorem Seeks.extended
    (seeks : base.Seeks place way name)
    (extended : base.Extends host) :
    host.Seeks place way name := by
  rcases seeks.leads with ⟨budget, leads⟩
  refine ⟨seeks.taken, ⟨budget, ?_⟩, seeks.plain,
    extended.directories _ seeks.directory, seeks.short⟩
  have same : host.start place = base.start place := by
    unfold Host.start
    rw [extended.home]
  rw [same]
  exact leads.lift id fun _ _ passes => passes.extended extended

end Seeks

/-! ## Requests -/

section Requests

variable
  {trail : List String}
  {slash : Bool}
  {permissions mode : Nat}

theorem perform_eq
    (request : DeviceRequest)
    (host : Host) :
    backend.perform request host =
      (some ((serve request).execute host).1,
        ((serve request).execute host).2) :=
  rfl

/-- A request that has nothing to report does what its action does. -/
theorem perform_of_action
    {request : DeviceRequest}
    {action : HostAction Unit}
    (serves : serve request = do
      action
      return .done)
    (host : Host) :
    backend.perform request host =
      (some ((action.execute host).1.map fun _ => .done),
        (action.execute host).2) := by
  rw [perform_eq, serves, HostAction.execute_bind]
  rcases action.execute host with ⟨_ | _, _⟩ <;> rfl

theorem action_of_perform
    {request : DeviceRequest}
    {action : HostAction Unit}
    {outcome : Outcome}
    (serves : serve request = do
      action
      return .done)
    (done : backend.perform request host = (reported outcome, later)) :
    action.execute host = (.ok (), later) := by
  rw [perform_of_action serves] at done
  rcases ran : action.execute host with ⟨_ | value, after⟩
  · rw [ran] at done
    cases done
  · rw [ran] at done
    cases done
    rfl

theorem perform_makeDirectory
    (located : host.locate place false =
      .ok ⟨.free parent name, trail, slash⟩) :
    backend.perform (.makeDirectory place mode) host =
      (reported .done, (host.addNode parent name (.directory [])
        (host.granted mode 0o1777)).2) := by
  rw [perform_of_action rfl, makeDirectory, HostAction.execute_bind,
    HostAction.execute_ask, located]
  rfl

theorem perform_create
    (located : host.locate place true =
      .ok ⟨.free parent name, trail, false⟩) :
    backend.perform (.create place mode) host =
      (reported (.opened host.nextDescriptor),
        ((host.addNode parent name (.file .empty)
          (host.granted mode 0o7777)).2.openNode host.nodes.size
            .readWrite).2) := by
  rw [perform_eq, serve, HostAction.execute_bind, createFile,
    HostAction.execute_bind, HostAction.execute_ask, located]
  rfl

/-- A link that is made has a name that was free. -/
theorem symlink_of_perform
    {outcome : Outcome}
    (done : backend.perform (.symlink target place) host =
      (reported outcome, later)) :
    ∃ parent name, host.vacancy place = .ok (parent, name) ∧
      later = (host.addNode parent name (.symlink target) 0o777).2 := by
  have ran := action_of_perform rfl done
  rcases HostAction.execute_ask_bind_eq_ok ran with ⟨_, -, ran⟩
  rcases HostAction.execute_ask_bind_eq_ok ran with ⟨_, -, ran⟩
  rcases HostAction.execute_ask_bind_eq_ok ran with
    ⟨⟨parent, name⟩, vacant, ran⟩
  cases ran
  exact ⟨parent, name, vacant, rfl⟩

theorem perform_symlink
    (taken : '\x00' ∉ place.toList)
    (told : pathFault? target = none)
    (vacant : host.vacancy place = .ok (parent, name)) :
    backend.perform (.symlink target place) host =
      (reported .done,
        (host.addNode parent name (.symlink target) 0o777).2) := by
  have accepted : (do
      refusal target
      refusal place) = .ok () := by
    simp [refusal, taken, (pathFault?_eq_none_iff.mp told).1, bind,
      Except.bind]
  rw [perform_of_action rfl, symlink]
  simp only [HostAction.execute_bind, HostAction.execute_ask, accepted, told,
    Option.elim_none, vacant]
  rfl

/-- What is free is not unlinked. -/
theorem perform_unlink_of_free
    (located : host.locate place false =
      .ok ⟨.free parent name, trail, slash⟩) :
    backend.perform (.unlink place) host =
      (some (.error .notFound), host) := by
  rw [perform_of_action rfl, unlink, HostAction.execute_bind,
    HostAction.execute_ask, located]
  rfl

theorem perform_unlink
    (located : host.locate place false =
      .ok ⟨.entry parent name id, trail, false⟩)
    (file : host.isDirectory id = false) :
    backend.perform (.unlink place) host =
      (reported .done, (host.eraseName parent name).dropLink id) := by
  rw [perform_of_action rfl, unlink, HostAction.execute_bind,
    HostAction.execute_ask, located]
  dsimp only
  rw [HostAction.execute_get_bind, file]
  rfl

/-- Unlinking takes away at most the name at the end of the place. -/
theorem unlink_cases
    (place : String)
    (host : Host) :
    (backend.perform (.unlink place) host).2 = host ∨
      ∃ found parent name id, host.locate place false = .ok found ∧
        found.place = .entry parent name id ∧
          (backend.perform (.unlink place) host).2 =
            (host.eraseName parent name).dropLink id := by
  rw [perform_of_action rfl, unlink, HostAction.execute_bind]
  dsimp only [HostAction.execute_ask]
  cases located : host.locate place false with
  | error error => exact .inl rfl
  | ok found =>
      dsimp only
      split
      · exact .inl rfl
      · exact .inl rfl
      · rename_i parent name id taken
        rw [HostAction.execute_get_bind]
        split
        · exact .inl rfl
        · split
          · exact .inl rfl
          · exact .inr ⟨found, parent, name, id, rfl, taken, rfl⟩

/-- What is no directory is moved to a name that is free, if it is not a part
of the way there. -/
theorem perform_rename
    {source : String}
    {newParent : NodeId}
    {newName : String}
    {newTrail : List String}
    (taken : '\x00' ∉ source.toList ∧ '\x00' ∉ target.toList)
    (leaves : host.locate source false =
      .ok ⟨.entry parent name id, trail, false⟩)
    (arrives : host.locate target false =
      .ok ⟨.free newParent newName, newTrail, false⟩)
    (apart : ¬ trail ++ [name] <+: newTrail) :
    backend.perform (.rename source target) host =
      (reported .done,
        (host.eraseName parent name).setName newParent newName id) := by
  have accepted : (do
      refusal source
      refusal target) = .ok () := by
    simp [refusal, taken, bind, Except.bind]
  rw [perform_of_action rfl, rename]
  simp only [HostAction.execute_bind, HostAction.execute_ask, accepted,
    leaves, arrives]
  simp [apart]
  rfl

end Requests

end Strata.Host
