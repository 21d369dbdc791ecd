import Strata.Host.Backend
import Strata.Proofs.HostWalks
import Strata.Proofs.Tables

/-!
# Hosts in order

On a host in order every directory has one entry for a name, the names can be
parts of paths, and the numbers stand for objects.  Whatever is done to the
names of such a host leaves it in order, because names are only ever given
where a walk found that they can be, and only to objects that a walk found.
-/

namespace Strata

/-! ## Steps on the host -/

namespace HostAction

variable
  {α β : Type}
  {host : Host}

@[simp]
theorem execute_pure
    (value : α)
    (host : Host) :
    (pure value : HostAction α).execute host = (.ok value, host) :=
  rfl

@[simp]
theorem execute_throw
    (error : HostError)
    (host : Host) :
    (throw error : HostAction α).execute host = (.error error, host) :=
  rfl

@[simp]
theorem execute_ask
    (question : Host → Except HostError α)
    (host : Host) :
    (ask question).execute host = (question host, host) :=
  rfl

@[simp]
theorem execute_ofRun
    (step : Host → Except HostError α × Host)
    (host : Host) :
    (ofRun step).execute host = step host :=
  rfl

@[simp]
theorem execute_get
    (host : Host) :
    (get : HostAction Host).execute host = (.ok host, host) :=
  rfl

@[simp]
theorem execute_modify
    (step : Host → Host)
    (host : Host) :
    (modify step : HostAction Unit).execute host = (.ok (), step host) :=
  rfl

theorem execute_bind
    (action : HostAction α)
    (next : α → HostAction β)
    (host : Host) :
    (action >>= next).execute host =
      match action.execute host with
      | (.ok value, reached) => (next value).execute reached
      | (.error error, reached) => (.error error, reached) := by
  simp only [execute, bind, ExceptT.bind, ExceptT.run, ExceptT.mk,
    StateT.run, StateT.bind, ExceptT.bindCont]
  cases action host with
  | mk answer reached =>
      cases answer <;> rfl

theorem execute_ask_bind_eq_ok
    {question : Host → Except HostError α}
    {next : α → HostAction β}
    {after : Host}
    {answer : β}
    (ran : (ask question >>= next).execute host = (.ok answer, after)) :
    ∃ value, question host = .ok value ∧
      (next value).execute host = (.ok answer, after) := by
  rw [execute_bind, execute_ask] at ran
  cases answered : question host with
  | error error =>
      rw [answered] at ran
      cases ran
  | ok value =>
      rw [answered] at ran
      exact ⟨value, rfl, ran⟩

/-- What holds after a question holds whether it was answered or not. -/
theorem holds_ask_bind
    {holds : Host → Prop}
    {question : Host → Except HostError α}
    {next : α → HostAction β}
    (held : holds host)
    (kept : ∀ value, question host = .ok value →
      holds ((next value).execute host).2) :
    holds ((ask question >>= next).execute host).2 := by
  rw [execute_bind, execute_ask]
  cases answered : question host with
  | error error => exact held
  | ok value => exact kept value answered

@[simp]
theorem execute_get_bind
    (next : Host → HostAction β)
    (host : Host) :
    ((get : HostAction Host) >>= next).execute host =
      (next host).execute host :=
  rfl

@[simp]
theorem execute_attempt_bind
    (action : HostAction α)
    (next : Except HostError α → HostAction β)
    (host : Host) :
    ((attempt action >>= next).execute host) =
      (next (action.execute host).1).execute (action.execute host).2 :=
  rfl

/-- What becomes of an answer does not matter to the host. -/
@[simp]
theorem execute_bind_pure_snd
    (action : HostAction α)
    (answer : α → β)
    (host : Host) :
    ((action >>= fun value => pure (answer value)).execute host).2 =
      (action.execute host).2 := by
  rw [execute_bind]
  rcases action.execute host with ⟨_ | _, _⟩ <;> rfl

theorem holds_bind
    {holds : Host → Prop}
    {action : HostAction α}
    {next : α → HostAction β}
    (first : holds (action.execute host).2)
    (second : ∀ value reached, holds reached →
      holds ((next value).execute reached).2) :
    holds ((action >>= next).execute host).2 := by
  rw [execute_bind]
  rcases ran : action.execute host with ⟨_ | value, reached⟩
  · rw [ran] at first
    exact first
  · rw [ran] at first
    exact second value reached first

end HostAction

/-! ## Objects in order -/

/-- Whether a text can be what stands between the slashes of a path. -/
def Host.IsStep
    (name : String) :
    Prop :=
  name ≠ "" ∧ '/' ∉ name.toList ∧ '\x00' ∉ name.toList

/-- Whether a text can be a name of a directory entry. -/
def Host.IsEntryName
    (name : String) :
    Prop :=
  Path.IsName name ∧ '\x00' ∉ name.toList ∧
    name.utf8ByteSize ≤ Host.nameLimit

/-- Whether an object is in order on a host with so many objects. -/
def Body.Tidy
    (count : Nat) :
    Body → Prop
  | .directory entries =>
    entries.Unique ∧
      ∀ entry ∈ entries, Host.IsEntryName entry.1 ∧ entry.2 < count
  | .symlink target => '\x00' ∉ target.toList
  | _ => True

theorem Body.Tidy.mono
    {body : Body}
    {count more : Nat}
    (tidy : body.Tidy count)
    (most : count ≤ more) :
    body.Tidy more := by
  cases body with
  | directory entries =>
      exact ⟨tidy.1, fun entry member =>
        (tidy.2 entry member).imp_right (Nat.lt_of_lt_of_le · most)⟩
  | symlink target => exact tidy
  | file => trivial
  | fifo => trivial

namespace Host

/-- A host whose root is a directory and whose objects are in order. -/
structure Tidy
    (host : Host) :
    Prop where
  root : host.isDirectory 0
  home : ∀ name ∈ host.home, IsStep name
  bodies : ∀ id, (host.node id).body.Tidy host.nodes.size

variable
  {host : Host}
  {follow : Bool}
  {id parent : NodeId}
  {name : String}

theorem node_changeNode
    (host : Host)
    (id other : NodeId)
    (change : Node → Node) :
    (host.changeNode id change).node other =
      if other = id ∧ other < host.nodes.size then
        change (host.node other)
      else
        host.node other := by
  unfold changeNode node
  simp only [Array.getD_eq_getD_getElem?, Array.getElem?_modify]
  by_cases same : other = id
  · subst same
    by_cases inside : other < host.nodes.size
    · simp [inside]
    · simp [inside]
  · simp [same, Ne.symm same]

theorem node_push
    (host : Host)
    (node : Node)
    (other : NodeId) :
    Host.node { host with nodes := host.nodes.push node } other =
      if other = host.nodes.size then node else host.node other := by
  unfold Host.node
  simp only [Array.getD_eq_getD_getElem?, Array.getElem?_push]
  split <;> rfl

/-- What is missing is no directory. -/
theorem lt_size_of_isDirectory
    (directory : host.isDirectory id) :
    id < host.nodes.size := by
  by_contra outside
  unfold isDirectory node at directory
  rw [Array.getD_eq_getD_getElem?,
    Array.getElem?_eq_none (Nat.le_of_not_lt outside)] at directory
  cases directory

/-- Where an object is taken for one that is in order as well and of the same
kind, the host stays in order. -/
theorem Tidy.changeNode
    (tidy : host.Tidy)
    {change : Node → Node}
    (kind : ∀ node, (change node).body.kind = node.body.kind)
    (kept : ∀ node : Node, node.body.Tidy host.nodes.size →
      (change node).body.Tidy host.nodes.size) :
    (host.changeNode id change).Tidy := by
  have count : (host.changeNode id change).nodes.size = host.nodes.size :=
    Array.size_modify
  refine ⟨?_, tidy.home, fun other => ?_⟩
  · unfold isDirectory
    rw [node_changeNode]
    split
    · rw [kind]
      exact tidy.root
    · exact tidy.root
  · rw [node_changeNode, count]
    split
    · exact kept _ (tidy.bodies other)
    · exact tidy.bodies other

theorem Tidy.changeEntries
    (tidy : host.Tidy)
    {change : Table String NodeId → Table String NodeId}
    (kept : ∀ entries,
      Body.Tidy host.nodes.size (.directory entries) →
        Body.Tidy host.nodes.size (.directory (change entries))) :
    (host.changeEntries id change).Tidy := by
  refine tidy.changeNode (fun node => ?_) fun node held => ?_
  · split
    · rename_i body
      rw [body]
      rfl
    · rfl
  · split
    · rename_i body
      rw [body] at held
      exact kept _ held
    · exact held

theorem Tidy.setName
    (tidy : host.Tidy)
    (named : IsEntryName name)
    (present : id < host.nodes.size) :
    (host.setName parent name id).Tidy := by
  refine tidy.changeEntries fun entries held => ⟨held.1.set name id, ?_⟩
  intro entry member
  rcases Table.mem_of_mem_set member with rfl | before
  · exact ⟨named, present⟩
  · exact held.2 entry before

theorem Tidy.eraseName
    (tidy : host.Tidy)
    (parent : NodeId)
    (name : String) :
    (host.eraseName parent name).Tidy :=
  tidy.changeEntries fun _ held => ⟨held.1.keep _,
    fun entry member => held.2 entry (Table.mem_of_mem_erase member)⟩

theorem Tidy.addLink
    (tidy : host.Tidy)
    (id : NodeId) :
    (host.addLink id).Tidy :=
  tidy.changeNode (fun _ => rfl) fun _ held => held

theorem Tidy.dropLink
    (tidy : host.Tidy)
    (id : NodeId) :
    (host.dropLink id).Tidy :=
  tidy.changeNode (fun _ => rfl) fun _ held => held

theorem Tidy.changeContents
    (tidy : host.Tidy)
    (id : NodeId)
    (change : Contents → Contents) :
    (host.changeContents id change).Tidy := by
  refine tidy.changeNode (fun node => ?_) fun node held => ?_
  · rcases node with ⟨_ | _ | _ | _, _, _, _, _, _⟩ <;> rfl
  · rcases node with ⟨_ | _ | _ | _, _, _, _, _, _⟩
    · trivial
    · exact held
    · exact held
    · trivial

theorem body_newNode
    (host : Host)
    (directory : NodeId)
    (body : Body)
    (permissions : Nat) :
    (host.newNode directory body permissions).body = body := by
  unfold newNode
  split <;> rfl

/-- An object that is added is in order if its body is, and its name can be
one. -/
theorem Tidy.addNode
    (tidy : host.Tidy)
    (named : IsEntryName name)
    {body : Body}
    (ordered : body.Tidy host.nodes.size)
    (permissions : Nat) :
    (host.addNode parent name body permissions).2.Tidy := by
  have grown : Host.Tidy
      { host with
        nodes := host.nodes.push (host.newNode parent body permissions) } := by
    have count : (host.nodes.push
        (host.newNode parent body permissions)).size =
          host.nodes.size + 1 :=
      Array.size_push _
    refine ⟨?_, tidy.home, fun other => ?_⟩
    · unfold isDirectory
      rw [node_push, if_neg (lt_size_of_isDirectory tidy.root).ne]
      exact tidy.root
    · rw [node_push]
      refine Body.Tidy.mono ?_ ((Nat.le_succ _).trans_eq count.symm)
      split
      · rw [body_newNode]
        exact ordered
      · exact tidy.bodies other
  exact grown.setName named (by simp)

/-! ## What walks find -/

variable
  {walker next last : Walker}
  {found : Found}
  {place : String}

theorem isStep_of_mem_namesOf
    {text : String}
    (endless : '\x00' ∉ text.toList) :
    ∀ name ∈ namesOf text, IsStep name := by
  intro name member
  rcases List.mem_map.mp member with ⟨characters, among, rfl⟩
  rcases List.mem_filter.mp among with ⟨piece, nonempty⟩
  refine ⟨?_, ?_, ?_⟩
  · intro empty
    rw [← String.toList_eq_nil_iff, String.toList_ofList] at empty
    simp [empty] at nonempty
  · rw [String.toList_ofList]
    exact Text.not_mem_of_mem_pieces piece
  · rw [String.toList_ofList]
    exact fun inside => endless (Text.mem_of_mem_pieces piece inside)

theorem Tidy.isStep_of_passes
    (tidy : host.Tidy)
    (passes : host.Passes follow walker next)
    (steps : ∀ name ∈ walker.ahead, IsStep name) :
    ∀ name ∈ next.ahead, IsStep name := by
  have behind {first : String} {rest : List String}
      (steps : ∀ name ∈ first :: rest, IsStep name) :
      ∀ name ∈ rest, IsStep name :=
    fun name member => steps name (List.mem_cons_of_mem _ member)
  cases passes with
  | stay => exact behind steps
  | up => exact behind steps
  | enter => exact behind steps
  | @link _ _ _ _ target id _ _ _ told =>
      have ordered := tidy.bodies id
      rw [told] at ordered
      intro name member
      rcases List.mem_append.mp member with target | rest
      · exact isStep_of_mem_namesOf ordered name target
      · exact behind steps name rest

/-- The way that was come is a chain of directories from the root. -/
def IsWay
    (host : Host) :
    List (String × NodeId) → Prop
  | [] => True
  | (name, id) :: way =>
    host.child (here way) name = .ok (some id) ∧ host.isDirectory id ∧
      IsWay host way

theorem IsWay.tail
    {way : List (String × NodeId)}
    (chained : host.IsWay way) :
    host.IsWay way.tail := by
  cases way with
  | nil => trivial
  | cons step way => exact chained.2.2

theorem Passes.isWay
    (passes : host.Passes follow walker next)
    (chained : host.IsWay walker.way) :
    host.IsWay next.way := by
  cases passes with
  | stay => exact chained
  | up => exact chained.tail
  | enter _ _ _ held directory _ => exact ⟨held, directory, chained⟩
  | link =>
      dsimp only
      split
      · trivial
      · exact chained

theorem Leads.isWay
    (leads : host.Leads follow walker last)
    (chained : host.IsWay walker.way) :
    host.IsWay last.way := by
  induction leads with
  | refl => exact chained
  | tail _ passes ih => exact passes.isWay ih

theorem Tidy.isDirectory_here
    (tidy : host.Tidy)
    {way : List (String × NodeId)}
    (chained : host.IsWay way) :
    host.isDirectory (here way) := by
  cases way with
  | nil => exact tidy.root
  | cons step way => exact chained.2.1

/-- The names in a directory are different, and stand for objects. -/
theorem Tidy.entries
    (tidy : host.Tidy)
    (id : NodeId) :
    (host.entries id).Unique ∧
      ∀ entry ∈ host.entries id,
        IsEntryName entry.1 ∧ entry.2 < host.nodes.size := by
  have ordered := tidy.bodies id
  unfold Host.entries
  split
  · rename_i body
    rw [body] at ordered
    exact ordered
  · exact ⟨Table.unique_nil, fun _ member => nomatch member⟩

theorem Tidy.of_child
    (tidy : host.Tidy)
    (held : host.child parent name = .ok (some id)) :
    IsEntryName name ∧ id < host.nodes.size := by
  rcases child_eq_ok_iff.mp held with ⟨-, -, present⟩
  exact (tidy.entries parent).2 _ (Table.mem_of_find? present)

/-- What a walk of a host in order ends at. -/
theorem Tidy.exists_end
    (tidy : host.Tidy)
    (located : host.locate place follow = .ok found) :
    ∃ last, host.IsWay last.way ∧ (∀ name ∈ last.ahead, IsStep name) ∧
      host.Ends follow last found := by
  rcases locate_eq_ok_iff.mp located with ⟨taken, ran⟩
  rcases run_eq_ok_iff.mp ran with ⟨last, leads, ends⟩
  refine ⟨last, leads.isWay trivial, ?_, ends⟩
  have first : ∀ name ∈ (host.start place).ahead, IsStep name := by
    have given := isStep_of_mem_namesOf (pathFault?_eq_none_iff.mp taken).1
    unfold Host.start
    dsimp only
    split
    · exact given
    · intro name member
      exact (List.mem_append.mp member).elim (tidy.home name) (given name)
  clear located taken ran ends
  induction leads with
  | refl => exact first
  | tail _ passes ih => exact tidy.isStep_of_passes passes ih

/-- A name that is free can be given. -/
theorem Tidy.isEntryName_of_free
    (tidy : host.Tidy)
    (located : host.locate place follow = .ok found)
    (free : found.place = .free parent name) :
    host.isDirectory parent ∧ IsEntryName name := by
  rcases tidy.exists_end located with ⟨last, -, steps, ends⟩
  cases ends with
  | directory => cases free
  | entry => cases free
  | free budget slash plain held =>
      cases free
      rcases child_eq_ok_iff.mp held with ⟨directory, short, -⟩
      rcases steps _ (List.mem_singleton_self _) with
        ⟨nonempty, slashless, endless⟩
      exact ⟨directory, ⟨nonempty, slashless, plain⟩, endless, short⟩

/-- A name that is taken can be given, and stands for an object. -/
theorem Tidy.of_entry
    (tidy : host.Tidy)
    (located : host.locate place follow = .ok found)
    (taken : found.place = .entry parent name id) :
    IsEntryName name ∧ id < host.nodes.size := by
  rcases tidy.exists_end located with ⟨last, -, -, ends⟩
  cases ends with
  | directory => cases taken
  | free => cases taken
  | entry budget slash plain held =>
      cases taken
      exact tidy.of_child held

/-- What a place leads to is an object. -/
theorem Tidy.lt_size_of_resolve
    (tidy : host.Tidy)
    (resolved : host.resolve place follow = .ok id) :
    id < host.nodes.size := by
  rcases locate_of_resolve resolved with ⟨found, located, reached⟩
  rcases kind : found.place with _ | ⟨parent, name, child⟩ | _
  · rcases tidy.exists_end located with ⟨last, chained, -, ends⟩
    rw [kind] at reached
    obtain rfl := Option.some.inj reached
    cases ends with
    | directory =>
        cases kind
        exact lt_size_of_isDirectory (tidy.isDirectory_here chained)
    | free => cases kind
    | entry => cases kind
  · rw [kind] at reached
    obtain rfl := Option.some.inj reached
    exact (tidy.of_entry located kind).2
  · rw [kind] at reached
    cases reached

/-! ## Requests -/

open HostAction

theorem Tidy.makeDirectory
    (tidy : host.Tidy)
    (place : String)
    (mode : Nat) :
    ((makeDirectory place mode).execute host).2.Tidy := by
  unfold Host.makeDirectory
  refine holds_ask_bind tidy fun found located => ?_
  split
  · rename_i parent name free
    have ordered : Body.Tidy host.nodes.size (.directory []) :=
      ⟨Table.unique_nil, fun _ member => nomatch member⟩
    exact tidy.addNode (tidy.isEntryName_of_free located free).2 ordered _
  · exact tidy

theorem Tidy.ensureDirectory
    (tidy : host.Tidy)
    (place : String) :
    ((ensureDirectory place).execute host).2.Tidy := by
  unfold Host.ensureDirectory
  have made := tidy.makeDirectory place directoryMode
  rw [execute_attempt_bind]
  split
  · exact made
  · rw [execute_get_bind]
    split <;> exact made

/-- The directories above are made first, the farthest of them before all. -/
theorem Tidy.ensureAll
    (above : List String)
    (spell : List String → String)
    (tidy : host.Tidy)
    (place : String) :
    ((ensureAll place above spell).execute host).2.Tidy := by
  induction above generalizing host place with
  | nil =>
      unfold Host.ensureAll
      have made := tidy.ensureDirectory place
      rw [execute_attempt_bind]
      dsimp only
      split
      · exact made
      · split <;> exact made
  | cons name further ih =>
      unfold Host.ensureAll
      have made := tidy.ensureDirectory place
      rw [execute_attempt_bind]
      dsimp only
      split
      · exact made
      · split
        · exact made
        · exact holds_bind (ih made _) fun _ _ ordered =>
            Tidy.ensureDirectory ordered place

theorem Tidy.makeDirectories
    (tidy : host.Tidy)
    (place : String) :
    ((makeDirectories place).execute host).2.Tidy := by
  unfold Host.makeDirectories
  dsimp only
  split
  · exact tidy
  · exact Tidy.ensureAll _ _ tidy place

theorem Tidy.removeDirectory
    (tidy : host.Tidy)
    (place : String) :
    ((removeDirectory place).execute host).2.Tidy := by
  unfold Host.removeDirectory
  refine holds_ask_bind tidy fun found located => ?_
  split
  · exact tidy
  · exact tidy
  · rename_i parent name id taken
    rw [execute_get_bind]
    dsimp only
    split
    · exact tidy
    · split
      · exact tidy
      · exact (tidy.eraseName parent name).dropLink id

theorem Tidy.unlink
    (tidy : host.Tidy)
    (place : String) :
    ((unlink place).execute host).2.Tidy := by
  unfold Host.unlink
  refine holds_ask_bind tidy fun found located => ?_
  split
  · exact tidy
  · exact tidy
  · rename_i parent name id taken
    rw [execute_get_bind]
    dsimp only
    split
    · exact tidy
    · split
      · exact tidy
      · exact (tidy.eraseName parent name).dropLink id

theorem Tidy.rename
    (tidy : host.Tidy)
    (source target : String) :
    ((rename source target).execute host).2.Tidy := by
  unfold Host.rename
  refine holds_ask_bind tidy fun _ _ => ?_
  refine holds_ask_bind tidy fun old leaves => ?_
  refine holds_ask_bind tidy fun new arrives => ?_
  split
  · exact tidy
  · exact tidy
  · exact tidy
  · rename_i parent name id taken _
    have present := (tidy.of_entry leaves taken).2
    rw [execute_get_bind]
    dsimp only
    split
    · exact tidy
    · split
      · exact tidy
      · split
        · exact tidy
        · rename_i newParent newName free
          exact (tidy.eraseName parent name).setName
            (tidy.isEntryName_of_free arrives free).2
            (present.trans_eq Array.size_modify.symm)
        · rename_i newParent newName displaced held
          split
          · exact tidy
          · split
            · refine holds_ask_bind tidy fun _ _ => ?_
              exact ((tidy.eraseName parent name).setName
                (tidy.of_entry arrives held).1
                (present.trans_eq Array.size_modify.symm)).dropLink displaced
            · exact tidy

theorem vacancy_eq_ok_iff :
    host.vacancy place = .ok (parent, name) ↔
      ∃ found, host.locate place false = .ok found ∧
        found.place = .free parent name ∧ found.slash = false := by
  unfold vacancy
  cases located : host.locate place false with
  | error => simp [bind, Except.bind]
  | ok found =>
      rcases found with ⟨_ | _ | _, trail, _ | _⟩ <;>
        simp [bind, Except.bind, pure, Except.pure, throw, throwThe,
          MonadExceptOf.throw]

theorem Tidy.isEntryName_of_vacancy
    (tidy : host.Tidy)
    (vacant : host.vacancy place = .ok (parent, name)) :
    IsEntryName name := by
  rcases vacancy_eq_ok_iff.mp vacant with ⟨found, located, free, -⟩
  exact (tidy.isEntryName_of_free located free).2

theorem Tidy.symlink
    (tidy : host.Tidy)
    (target link : String) :
    ((symlink target link).execute host).2.Tidy := by
  unfold Host.symlink
  refine holds_ask_bind tidy fun _ _ => ?_
  refine holds_ask_bind tidy fun _ told => ?_
  refine holds_ask_bind tidy fun place vacant => ?_
  have endless : '\x00' ∉ target.toList := by
    cases fault : pathFault? target with
    | some fault =>
        rw [fault] at told
        cases told
    | none => exact (pathFault?_eq_none_iff.mp fault).1
  have ordered : Body.Tidy host.nodes.size (.symlink target) := endless
  exact tidy.addNode (tidy.isEntryName_of_vacancy vacant) ordered _

theorem Tidy.link
    (tidy : host.Tidy)
    (existing added : String) :
    ((link existing added).execute host).2.Tidy := by
  unfold Host.link
  refine holds_ask_bind tidy fun _ _ => ?_
  refine holds_ask_bind tidy fun id resolved => ?_
  refine holds_ask_bind tidy fun place vacant => ?_
  rw [execute_get_bind]
  dsimp only
  split
  · exact tidy
  · exact (tidy.setName (tidy.isEntryName_of_vacancy vacant)
      (tidy.lt_size_of_resolve resolved)).addLink id

theorem Tidy.openNode
    (tidy : host.Tidy)
    (id : NodeId)
    (access : Access) :
    (host.openNode id access).2.Tidy :=
  ⟨tidy.root, tidy.home, tidy.bodies⟩

theorem Tidy.createFile
    (tidy : host.Tidy)
    (place : String)
    (mode : Nat)
    (access : Access) :
    ((createFile place mode access).execute host).2.Tidy := by
  unfold Host.createFile
  refine holds_ask_bind tidy fun found located => ?_
  dsimp only
  split
  · exact tidy
  · split
    · exact tidy
    · rw [execute_get_bind]
      split
      · exact tidy
      · exact (tidy.changeContents _ _).openNode _ _
    · rename_i parent name free
      have ordered : Body.Tidy host.nodes.size (.file .empty) := trivial
      exact (tidy.addNode (tidy.isEntryName_of_free located free).2 ordered
        _).openNode _ _

theorem Tidy.openFile
    (tidy : host.Tidy)
    (place : String)
    (access : Access) :
    ((openFile place access).execute host).2.Tidy := by
  unfold Host.openFile
  refine holds_ask_bind tidy fun id _ => ?_
  rw [execute_get_bind]
  dsimp only
  split
  · exact tidy
  · exact tidy.openNode id access

theorem Tidy.close
    (tidy : host.Tidy)
    (descriptor : Descriptor) :
    ((close descriptor).execute host).2.Tidy :=
  ⟨tidy.root, tidy.home, tidy.bodies⟩

theorem Tidy.writeAt
    (tidy : host.Tidy)
    (descriptor : Descriptor)
    (offset : Nat)
    (data : Bytes) :
    ((writeAt descriptor offset data).execute host).2.Tidy := by
  unfold Host.writeAt
  split
  · exact tidy
  · rw [execute_ofRun]
    split
    · exact tidy
    · split
      · exact tidy
      · exact tidy.changeContents _ _

theorem Tidy.setSize
    (tidy : host.Tidy)
    (descriptor : Descriptor)
    (size : Nat) :
    ((setSize descriptor size).execute host).2.Tidy := by
  unfold Host.setSize
  rw [execute_ofRun]
  split
  · exact tidy
  · split
    · exact tidy
    · split
      · exact tidy
      · split
        · exact tidy
        · exact tidy.changeContents _ _

theorem Tidy.setSizeOf
    (tidy : host.Tidy)
    (place : String)
    (size : Nat) :
    ((setSizeOf place size).execute host).2.Tidy := by
  refine holds_bind (tidy.openFile place .writeOnly)
    fun descriptor _ opened => ?_
  refine holds_bind (opened.setSize descriptor size) fun _ _ cut => ?_
  exact holds_bind (cut.close descriptor) fun _ _ closed => closed

theorem Tidy.changeMode
    (tidy : host.Tidy)
    (place : String)
    (mode : Nat) :
    ((changeMode place mode).execute host).2.Tidy :=
  holds_ask_bind tidy fun _ _ =>
    tidy.changeNode (fun _ => rfl) fun _ held => held

theorem Tidy.changeOwner
    (tidy : host.Tidy)
    (place : String)
    (owner group : Option Nat) :
    ((changeOwner place owner group).execute host).2.Tidy :=
  holds_ask_bind tidy fun _ _ =>
    tidy.changeNode (fun _ => rfl) fun _ held => held

/-- Whatever is asked of a host in order leaves it in order. -/
theorem Tidy.serve
    (tidy : host.Tidy)
    (request : DeviceRequest) :
    ((serve request).execute host).2.Tidy := by
  cases request <;> unfold Host.serve <;>
    try rw [execute_bind_pure_snd]
  case openFile place access => exact tidy.openFile place access
  case create place mode => exact tidy.createFile place mode _
  case release file => exact tidy.close file
  case read file offset length =>
    unfold Host.readAt
    split <;> exact tidy
  case write file offset data => exact tidy.writeAt file offset data
  case flush file => exact tidy
  case sync file dataOnly => exact tidy
  case truncate place size => exact tidy.setSizeOf place size
  case truncateOpened file size => exact tidy.setSize file size
  case makeDirectory place mode => exact tidy.makeDirectory place mode
  case removeDirectory place => exact tidy.removeDirectory place
  case unlink place => exact tidy.unlink place
  case rename source target => exact tidy.rename source target
  case symlink target place => exact tidy.symlink target place
  case link existing added => exact tidy.link existing added
  case changeMode place mode => exact tidy.changeMode place mode
  case changeOwner place owner group =>
    exact tidy.changeOwner place owner group
  case list place => exact tidy

end Host

end Strata
