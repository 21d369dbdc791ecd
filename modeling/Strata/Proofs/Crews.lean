import Mathlib.Algebra.Ring.Nat
import Mathlib.Data.List.Count
import Mathlib.Data.List.Nodup
import Mathlib.Data.List.Perm.Basic
import Strata.Device.Dispatcher

/-!
# Crews

What the queue and the workers of a dispatcher say about its jobs.  The queue
holds the jobs that are queued, each job between its start and its end is in
the hands of one worker (`Staffed`), and a fan-out has one job for each device
whose job it sent (`Placed`).

That a request is performed once is a matter of these books.  A job starts
over whenever a worker takes it, and only the queue sees to it that this
happens once.
-/

namespace Strata

/-! ## Points -/

namespace Point

/-- Whether the request was performed. -/
def hasRun :
    Point → Bool
  | .queued => false
  | .started => false
  | _ => true

/-- Whether a report that there is lies in its slot. -/
def hasReported :
    Point → Bool
  | .stored => true
  | .released => true
  | .done => true
  | _ => false

/-- Whether the job still has its share in the barrier. -/
def holdsShare :
    Point → Bool
  | .released => false
  | .done => false
  | _ => true

/-- Whether a worker has the job in hand. -/
def isHeld :
    Point → Bool
  | .queued => false
  | .done => false
  | _ => true

theorem ne_queued_of_isHeld
    {point : Point}
    (held : point.isHeld = true) :
    point ≠ .queued := by
  rintro rfl
  exact nomatch held

theorem hasReported_of_released
    {point : Point}
    (released : point.holdsShare = false) :
    point.hasReported = true := by
  cases point <;> simp_all [holdsShare, hasReported]

theorem hasRun_of_released
    {point : Point}
    (released : point.holdsShare = false) :
    point.hasRun = true := by
  cases point <;> simp_all [holdsShare, hasRun]

end Point

/-! ## Workers that are granted -/

namespace Workers

variable
  {size : Nat}
  {grants : Grants}
  {workers : Workers}

theorem forM_start_eq_ok_iff
    (crew : List Nat) :
    crew.forM grants.start = .ok () ↔
      ∀ worker ∈ crew, grants.start worker = .ok () := by
  induction crew with
  | nil => simp [pure, Except.pure]
  | cons worker rest ih =>
      rw [List.forall_mem_cons, ← ih, List.forM]
      cases grants.start worker <;> simp [bind, Except.bind]

/-- There are workers if there is room for their handles and each of them
starts. -/
theorem ofSize_eq_ok_iff :
    ofSize size grants = .ok workers ↔
      0 < size ∧
        grants.room size = .ok () ∧
        (∀ worker < size, grants.start worker = .ok ()) ∧
        workers = { crew := List.replicate size .idle } := by
  have started := @forM_start_eq_ok_iff grants (List.range size)
  simp only [List.mem_range] at started
  rw [← started]
  unfold ofSize
  split
  · rename_i zero
    simp [zero]
  rename_i some
  cases grants.room size with
  | error fault => simp [bind, Except.bind]
  | ok =>
      cases (List.range size).forM grants.start with
      | error fault => simp [bind, Except.bind]
      | ok =>
          simp [bind, Except.bind, pure, Except.pure,
            Nat.pos_of_ne_zero some, eq_comm]

end Workers

/-- The fan-out and the device of a job. -/
def Job.place
    (job : Job) :
    Nat × Nat :=
  (job.call, job.device)

namespace Dispatcher

variable
  {jobs : List Job}
  {calls : List Call}
  {workers : Workers}
  {id : JobId}
  {job : Job}
  {point : Point}
  {worker number : Nat}
  {call : Call}

/-! ## Marked jobs -/

theorem getElem?_set_found
    {α : Type}
    {list : List α}
    {index : Nat}
    {old new : α}
    (found : list[index]? = some old)
    (other : Nat) :
    (list.set index new)[other]? =
      if other = index then some new else list[other]? := by
  have there := (List.getElem?_eq_some_iff.mp found).1
  by_cases same : other = index
  · subst same
    simp [there]
  · simp [same, List.getElem?_set_ne (Ne.symm same)]

theorem getElem?_appended
    {α : Type}
    (list : List α)
    (new : α)
    (other : Nat) :
    (list ++ [new])[other]? =
      if other = list.length then some new else list[other]? := by
  rw [List.getElem?_append]
  rcases Nat.lt_trichotomy other list.length with inside | rfl | beyond
  · rw [if_pos inside, if_neg (Nat.ne_of_lt inside)]
  · simp
  · rw [if_neg (Nat.not_lt_of_gt beyond), if_neg (Nat.ne_of_gt beyond),
      List.getElem?_eq_none (Nat.sub_pos_of_lt beyond),
      List.getElem?_eq_none (Nat.le_of_lt beyond)]

/-- A list with another entry in place of one has that other one more and this
one less. -/
theorem perm_set_found
    {α : Type}
    {list : List α}
    {index : Nat}
    {old : α}
    (found : list[index]? = some old)
    (new : α) :
    (old :: list.set index new).Perm (new :: list) := by
  rcases List.getElem?_eq_some_iff.mp found with ⟨inside, rfl⟩
  have placed := (List.set_perm_cons_eraseIdx inside new).cons list[index]
  have back := (List.getElem_cons_eraseIdx_perm inside).cons new
  exact placed.trans ((List.Perm.swap ..).trans back)

theorem sum_map_set
    {α : Type}
    {list : List α}
    {index : Nat}
    {old new : α}
    (found : list[index]? = some old)
    (count : α → Nat) :
    ((list.set index new).map count).sum + count old =
      (list.map count).sum + count new := by
  have sums := ((perm_set_found found new).map count).sum_nat
  simpa [Nat.add_comm] using sums

theorem getElem?_mark
    (found : jobs[id]? = some job)
    (other : JobId) :
    (mark jobs id job point)[other]? =
      if other = id then some { job with point } else jobs[other]? :=
  getElem?_set_found found other

@[simp]
theorem length_mark :
    (mark jobs id job point).length = jobs.length :=
  List.length_set

theorem map_set_found
    {α β : Type}
    {list : List α}
    {index : Nat}
    {old new : α}
    {view : α → β}
    (found : list[index]? = some old)
    (same : view new = view old) :
    (list.set index new).map view = list.map view := by
  apply List.ext_getElem?
  intro other
  rw [List.getElem?_map, List.getElem?_map, getElem?_set_found found]
  by_cases here : other = index
  · simp [here, found, same]
  · simp [here]

/-- A job stays where it is. -/
theorem map_place_mark
    (found : jobs[id]? = some job) :
    (mark jobs id job point).map Job.place = jobs.map Job.place :=
  map_set_found found rfl

/-- No other job has the place of a marked one. -/
theorem mem_mark
    (alone : (jobs.map Job.place).Nodup)
    (found : jobs[id]? = some job)
    {other : Job}
    (member : other ∈ mark jobs id job point) :
    other = { job with point } ∨
      other ∈ jobs ∧ other.place ≠ job.place := by
  rcases List.getElem?_of_mem member with ⟨index, there⟩
  rw [getElem?_mark found] at there
  by_cases same : index = id
  · rw [if_pos same] at there
    exact .inl (Option.some.inj there).symm
  · rw [if_neg same] at there
    refine .inr ⟨List.mem_of_getElem? there, fun placed => same ?_⟩
    have left : (jobs.map Job.place)[index]? = some other.place := by
      simp [there]
    have right : (jobs.map Job.place)[id]? = some other.place := by
      simp [found, placed]
    rcases List.getElem?_eq_some_iff.mp left with ⟨inside, first⟩
    rcases List.getElem?_eq_some_iff.mp right with ⟨within, second⟩
    exact (alone.getElem_inj_iff).mp (first.trans second.symm)

theorem countP_mark
    (found : jobs[id]? = some job)
    (counts : Job → Bool) :
    (mark jobs id job point).countP counts + (counts job).toNat =
      jobs.countP counts + (counts { job with point }).toNat := by
  have counted := (perm_set_found found { job with point }).countP_eq counts
  rw [List.countP_cons, List.countP_cons] at counted
  cases old : counts job <;> cases new : counts { job with point } <;>
    simpa [mark, old, new] using counted

/-! ## What the workers do -/

/-- A job goes to the end of an open queue. -/
theorem workers_submit_iff
    {next : Workers} :
    workers.step? .submit = some next ↔
      workers.closed = false ∧
        next =
          { workers with
            queue := workers.queue ++ [workers.submitted]
            submitted := workers.submitted + 1 } := by
  cases opened : workers.closed <;>
    simp [Workers.step?, opened, eq_comm]

/-- An idle worker takes the oldest job. -/
theorem workers_take_iff
    {next : Workers} :
    workers.step? (.take worker) = some next ↔
      ∃ id queue,
        workers.crew[worker]? = some .idle ∧
          workers.queue = id :: queue ∧
          next =
            { workers with
              crew := workers.crew.set worker (.busy id)
              queue } := by
  simp only [Workers.step?]
  split
  · rename_i id queue idle queued
    simp [idle, queued, eq_comm]
  · rename_i other
    constructor
    · exact nofun
    · rintro ⟨id, queue, idle, queued, -⟩
      exact absurd queued (other id queue idle)

/-- A worker with a job in hand comes to its end. -/
theorem workers_complete_iff
    {next : Workers} :
    workers.step? (.complete worker) = some next ↔
      ∃ id,
        workers.crew[worker]? = some (.busy id) ∧
          next =
            { workers with
              crew := workers.crew.set worker .idle
              completed := id :: workers.completed } := by
  simp only [Workers.step?]
  split
  · rename_i id busy
    simp [busy, eq_comm]
  · rename_i other
    exact ⟨nofun, fun ⟨id, busy, _⟩ => absurd busy (other id)⟩

/-- A worker whose job breaks down is free like any other. -/
theorem workers_breakDown_iff
    {next : Workers} :
    workers.step? (.breakDown worker) = some next ↔
      ∃ id,
        workers.crew[worker]? = some (.busy id) ∧
          next =
            { workers with
              crew := workers.crew.set worker .idle
              broken := id :: workers.broken } := by
  simp only [Workers.step?]
  split
  · rename_i id busy
    simp [busy, eq_comm]
  · rename_i other
    exact ⟨nofun, fun ⟨id, busy, _⟩ => absurd busy (other id)⟩

/-- An idle worker leaves when the queue is closed and empty. -/
theorem workers_leave_iff
    {next : Workers} :
    workers.step? (.leave worker) = some next ↔
      workers.crew[worker]? = some .idle ∧
        workers.queue = [] ∧
        workers.closed = true ∧
        next = { workers with crew := workers.crew.set worker .gone } := by
  simp only [Workers.step?]
  split
  · rename_i idle empty closed
    simp [idle, empty, closed, eq_comm]
  · rename_i other
    exact ⟨nofun, fun ⟨idle, empty, closed, _⟩ =>
      absurd closed (other idle empty)⟩

/-- However a job ends, its worker is idle again and nothing else changes
that the queue depends on. -/
theorem workers_ending
    {report : Report}
    {next : Workers}
    (ended : workers.step? (ending worker report) = some next) :
    ∃ id,
      workers.crew[worker]? = some (.busy id) ∧
        next.crew = workers.crew.set worker .idle ∧
        next.queue = workers.queue ∧
        next.submitted = workers.submitted ∧
        next.closed = workers.closed := by
  cases report with
  | none =>
      rcases workers_breakDown_iff.mp ended with ⟨id, busy, rfl⟩
      exact ⟨id, busy, rfl, rfl, rfl, rfl⟩
  | some result =>
      rcases workers_complete_iff.mp ended with ⟨id, busy, rfl⟩
      exact ⟨id, busy, rfl, rfl, rfl, rfl⟩

/-- A worker with a job in hand can end it. -/
theorem workers_can_end
    (busy : workers.crew[worker]? = some (.busy id))
    (report : Report) :
    ∃ next, workers.step? (ending worker report) = some next := by
  cases report <;>
    simp [ending, Workers.step?, busy]

theorem inHand?_iff :
    inHand? workers jobs worker = some (id, job) ↔
      workers.crew[worker]? = some (.busy id) ∧ jobs[id]? = some job := by
  simp only [inHand?]
  split
  · rename_i other busy
    simp only [Option.map_eq_some_iff, Prod.mk.injEq, busy,
      Option.some.injEq, Worker.busy.injEq]
    constructor
    · rintro ⟨found, there, rfl, rfl⟩
      exact ⟨rfl, there⟩
    · rintro ⟨rfl, there⟩
      exact ⟨job, there, rfl, rfl⟩
  · rename_i other
    exact ⟨nofun, fun found => absurd found.1 (other id)⟩

/-! ## The queue and the hands of the workers -/

/-- How far the job with a number has come. -/
def pointAt
    (jobs : List Job)
    (id : JobId) :
    Option Point :=
  jobs[id]?.map (·.point)

theorem pointAt_mark
    (found : jobs[id]? = some job)
    (other : JobId) :
    pointAt (mark jobs id job point) other =
      if other = id then some point else pointAt jobs other := by
  rw [pointAt, getElem?_mark found]
  split <;> rfl

theorem pointAt_concat
    (other : JobId) :
    pointAt (jobs ++ [job]) other =
      if other = jobs.length then some job.point
      else pointAt jobs other := by
  rw [pointAt, getElem?_appended]
  split <;> rfl

theorem pointAt_beyond :
    pointAt jobs jobs.length = none := by
  simp [pointAt]

/--
The queue holds the queued jobs, once each, and a job between its start and
its end is in the hands of one worker.
-/
structure Staffed
    (workers : Workers)
    (jobs : List Job) :
    Prop where
  working : 0 < workers.crew.length
  present : ∀ worker : Nat, workers.crew[worker]? ≠ some .gone
  opened : workers.closed = false
  submitted : workers.submitted = jobs.length
  once : workers.queue.Nodup
  queued : ∀ id, id ∈ workers.queue ↔ pointAt jobs id = some .queued
  held : ∀ id,
    (∃ worker : Nat, workers.crew[worker]? = some (.busy id)) ↔
      (pointAt jobs id).any Point.isHeld = true
  alone : ∀ (worker other : Nat) (id : JobId),
    workers.crew[worker]? = some (.busy id) →
      workers.crew[other]? = some (.busy id) → worker = other

section Crew

variable
  {crew : List Worker}
  {old post : Worker}

/-- A job that a worker neither has nor gets is in the same hands as
before. -/
theorem exists_hand_set
    (there : crew[worker]? = some old)
    (leaves : old ≠ .busy id)
    (gets : post ≠ .busy id) :
    (∃ other : Nat, (crew.set worker post)[other]? = some (.busy id)) ↔
      ∃ other : Nat, crew[other]? = some (.busy id) := by
  simp only [getElem?_set_found there]
  constructor
  · rintro ⟨other, holds⟩
    split at holds
    · exact absurd (Option.some.inj holds) gets
    · exact ⟨other, holds⟩
  · rintro ⟨other, holds⟩
    refine ⟨other, ?_⟩
    rw [if_neg]
    · exact holds
    · rintro rfl
      exact leaves (Option.some.inj (there.symm.trans holds))

/-- Nobody else than the one worker gets a job. -/
theorem alone_set
    (there : crew[worker]? = some old)
    (alone : ∀ (left right : Nat) (id : JobId),
      crew[left]? = some (.busy id) → crew[right]? = some (.busy id) →
        left = right)
    (free : ∀ id, post = .busy id →
      ∀ other : Nat, crew[other]? ≠ some (.busy id))
    (left right : Nat)
    (id : JobId)
    (holds : (crew.set worker post)[left]? = some (.busy id))
    (also : (crew.set worker post)[right]? = some (.busy id)) :
    left = right := by
  rw [getElem?_set_found there] at holds also
  split at holds <;> split at also
  case isTrue.isTrue first second => exact first.trans second.symm
  case isTrue.isFalse =>
    exact absurd also (free id (Option.some.inj holds) right)
  case isFalse.isTrue =>
    exact absurd holds (free id (Option.some.inj also) left)
  case isFalse.isFalse => exact alone left right id holds also

theorem present_set
    (there : crew[worker]? = some old)
    (present : ∀ other : Nat, crew[other]? ≠ some .gone)
    (stays : post ≠ .gone)
    (other : Nat) :
    (crew.set worker post)[other]? ≠ some .gone := by
  rw [getElem?_set_found there]
  split
  · exact fun leaves => stays (Option.some.inj leaves)
  · exact present other

end Crew

/-- Idle workers with an empty queue have no jobs. -/
theorem Staffed.ofSize
    {size : Nat}
    {grants : Workers.Grants}
    (sized : Workers.ofSize size grants = .ok workers) :
    Staffed workers [] := by
  rcases Workers.ofSize_eq_ok_iff.mp sized with ⟨positive, -, -, rfl⟩
  have idle : ∀ {worker : Nat} {post : Worker},
      (List.replicate size Worker.idle)[worker]? = some post →
        post = .idle := fun there =>
    List.eq_of_mem_replicate (List.mem_of_getElem? there)
  constructor
  case working => simpa using positive
  case present => exact fun worker gone => nomatch idle gone
  case opened => rfl
  case submitted => rfl
  case once => exact List.nodup_nil
  case queued => exact fun id => iff_of_false List.not_mem_nil nofun
  case held =>
    exact fun id => iff_of_false (fun ⟨_, busy⟩ => nomatch idle busy) nofun
  case alone => exact fun worker _ id busy => nomatch idle busy

theorem Staffed.submit
    {next : Workers}
    (staffed : Staffed workers jobs)
    (submitted : workers.step? .submit = some next)
    (fresh : job.point = .queued) :
    Staffed next (jobs ++ [job]) := by
  rcases workers_submit_iff.mp submitted with ⟨_, rfl⟩
  have missing : jobs.length ∉ workers.queue := by
    rw [staffed.queued, pointAt_beyond]
    exact nofun
  constructor
  case working => exact staffed.working
  case present => exact staffed.present
  case opened => exact staffed.opened
  case submitted => simp [staffed.submitted]
  case once =>
    rw [staffed.submitted, ← List.concat_eq_append]
    exact staffed.once.concat missing
  case queued =>
    intro id
    rw [staffed.submitted, List.mem_append, List.mem_singleton,
      staffed.queued, pointAt_concat, fresh]
    by_cases same : id = jobs.length
    · simp [same]
    · simp [same]
  case held =>
    intro id
    rw [staffed.held, pointAt_concat, fresh]
    by_cases same : id = jobs.length
    · simp [same, pointAt_beyond, Point.isHeld]
    · simp [same]
  case alone => exact staffed.alone

theorem Staffed.take
    {next : Workers}
    (staffed : Staffed workers jobs)
    (taken : workers.step? (.take worker) = some next)
    (hand : inHand? next jobs worker = some (id, job)) :
    job.point = .queued ∧ Staffed next (mark jobs id job .started) := by
  rcases workers_take_iff.mp taken with ⟨first, queue, idle, waiting, rfl⟩
  rcases inHand?_iff.mp hand with ⟨busy, found⟩
  rw [getElem?_set_found idle, if_pos rfl] at busy
  obtain rfl : first = id := by simpa using busy
  have fresh : pointAt jobs first = some .queued :=
    (staffed.queued first).mp (by simp [waiting])
  -- The taken job was queued, so nobody has it in hand.
  have free : ∀ other : Nat, workers.crew[other]? ≠ some (.busy first) := by
    intro other holds
    have held := (staffed.held first).mp ⟨other, holds⟩
    rw [fresh] at held
    exact nomatch held
  have once := staffed.once
  rw [waiting, List.nodup_cons] at once
  refine ⟨by simpa [pointAt, found] using fresh, ?_⟩
  constructor
  case working => simpa using staffed.working
  case present => exact present_set idle staffed.present nofun
  case opened => exact staffed.opened
  case submitted => simpa using staffed.submitted
  case once => exact once.2
  case queued =>
    intro other
    rw [pointAt_mark found]
    by_cases same : other = first
    · simp [same, once.1]
    · have old := staffed.queued other
      rw [waiting, List.mem_cons, or_iff_right same] at old
      rw [if_neg same, old]
  case held =>
    intro other
    rw [pointAt_mark found]
    by_cases same : other = first
    · rw [if_pos same]
      refine iff_of_true ⟨worker, ?_⟩ rfl
      rw [getElem?_set_found idle, if_pos rfl, same]
    · rw [if_neg same, ← staffed.held other]
      exact exists_hand_set idle nofun fun gets =>
        same (Worker.busy.inj gets).symm
  case alone =>
    refine alone_set idle staffed.alone fun other gets => ?_
    obtain rfl := Worker.busy.inj gets
    exact free

theorem Staffed.pointAt_hand
    (staffed : Staffed workers jobs)
    (hand : inHand? workers jobs worker = some (id, job)) :
    pointAt jobs id = some job.point ∧ job.point.isHeld = true := by
  rcases inHand?_iff.mp hand with ⟨busy, found⟩
  have was : pointAt jobs id = some job.point := by
    rw [pointAt, found]
    rfl
  refine ⟨was, ?_⟩
  simpa [was] using (staffed.held id).mp ⟨worker, busy⟩

/-- A job in hand is not queued, and marking it queues nothing. -/
theorem Staffed.queued_mark
    (staffed : Staffed workers jobs)
    (hand : inHand? workers jobs worker = some (id, job))
    (later : point ≠ .queued)
    (other : JobId) :
    other ∈ workers.queue ↔
      pointAt (mark jobs id job point) other = some .queued := by
  rcases staffed.pointAt_hand hand with ⟨was, before⟩
  rw [staffed.queued, pointAt_mark (inHand?_iff.mp hand).2]
  by_cases same : other = id
  · rw [if_pos same, same, was]
    exact iff_of_false
      (fun so => Point.ne_queued_of_isHeld before (Option.some.inj so))
      (fun so => later (Option.some.inj so))
  · rw [if_neg same]

/-- A job in hand moves on without its worker or the queue taking notice. -/
theorem Staffed.work
    (staffed : Staffed workers jobs)
    (hand : inHand? workers jobs worker = some (id, job))
    (held : point.isHeld = true) :
    Staffed workers (mark jobs id job point) := by
  have found := (inHand?_iff.mp hand).2
  rcases staffed.pointAt_hand hand with ⟨was, before⟩
  constructor
  case working => exact staffed.working
  case present => exact staffed.present
  case opened => exact staffed.opened
  case submitted => simpa using staffed.submitted
  case once => exact staffed.once
  case queued =>
    exact staffed.queued_mark hand (Point.ne_queued_of_isHeld held)
  case held =>
    intro other
    rw [staffed.held, pointAt_mark found]
    by_cases same : other = id
    · rw [if_pos same, same, was]
      simp [before, held]
    · rw [if_neg same]
  case alone => exact staffed.alone

/-- A worker that ends its job leaves it at its end. -/
theorem Staffed.rest
    {report : Report}
    {next : Workers}
    (staffed : Staffed workers jobs)
    (hand : inHand? workers jobs worker = some (id, job))
    (ended : workers.step? (ending worker report) = some next) :
    Staffed next (mark jobs id job .done) := by
  rcases inHand?_iff.mp hand with ⟨busy, found⟩
  rcases workers_ending ended with
    ⟨same, holds, crew, queue, submitted, closed⟩
  obtain rfl := Worker.busy.inj (Option.some.inj (holds.symm.trans busy))
  constructor
  case working => simpa [crew] using staffed.working
  case present =>
    rw [crew]
    exact present_set holds staffed.present nofun
  case opened => rw [closed, staffed.opened]
  case submitted => rw [submitted, staffed.submitted, length_mark]
  case once =>
    rw [queue]
    exact staffed.once
  case queued =>
    rw [queue]
    exact staffed.queued_mark hand nofun
  case held =>
    intro other
    rw [crew, pointAt_mark found]
    by_cases here : other = same
    · rw [if_pos here]
      refine iff_of_false ?_ nofun
      rintro ⟨holder, again⟩
      rw [getElem?_set_found holds] at again
      split at again
      · exact nomatch again
      · rename_i differs
        exact differs (staffed.alone _ _ _ (here ▸ again) holds)
    · rw [if_neg here, ← staffed.held other]
      exact exists_hand_set holds
        (fun held => here (Worker.busy.inj held).symm) nofun
  case alone =>
    rw [crew]
    exact alone_set holds staffed.alone nofun

/-- The first worker is idle or has a job in hand. -/
theorem Staffed.first_worker
    (staffed : Staffed workers jobs) :
    workers.crew[0]? = some .idle ∨
      ∃ id, workers.crew[0]? = some (.busy id) := by
  cases there : workers.crew[0]? with
  | none =>
      have empty := List.getElem?_eq_none_iff.mp there
      exact absurd staffed.working (Nat.not_lt.mpr empty)
  | some post =>
      cases post with
      | idle => exact .inl rfl
      | busy id => exact .inr ⟨id, rfl⟩
      | gone => exact absurd there (staffed.present 0)

/-- When nothing is queued and nobody has a job in hand, no job has a
share. -/
theorem Staffed.released_of_idle
    (staffed : Staffed workers jobs)
    (idle : ∀ (worker : Nat) (id : JobId),
      workers.crew[worker]? ≠ some (.busy id))
    (empty : workers.queue = []) :
    ∀ job ∈ jobs, job.point.holdsShare = false := by
  intro job member
  rcases List.getElem?_of_mem member with ⟨id, found⟩
  have at' : pointAt jobs id = some job.point := by
    rw [pointAt, found]
    rfl
  have unqueued : job.point ≠ .queued := by
    intro queued
    have waiting := (staffed.queued id).mpr (by rw [at', queued])
    rw [empty] at waiting
    exact absurd waiting List.not_mem_nil
  have unheld : job.point.isHeld ≠ true := by
    intro held
    rcases (staffed.held id).mpr (by rw [at']; exact held) with
      ⟨worker, busy⟩
    exact idle worker id busy
  cases point : job.point <;> simp_all [Point.isHeld, Point.holdsShare]

/-! ## The jobs of a fan-out -/

/-- A fan-out has one job for each device whose job it sent. -/
structure Placed
    (jobs : List Job)
    (calls : List Call) :
    Prop where
  alone : (jobs.map Job.place).Nodup
  sent : ∀ number device, (number, device) ∈ jobs.map Job.place ↔
    ∃ call : Call, calls[number]? = some call ∧ device < call.sent

theorem Placed.mark
    (placed : Placed jobs calls)
    (found : jobs[id]? = some job) :
    Placed (mark jobs id job point) calls := by
  constructor
  · rw [map_place_mark found]
    exact placed.alone
  · rw [map_place_mark found]
    exact placed.sent

theorem Placed.set
    {next : Call}
    (placed : Placed jobs calls)
    (there : calls[number]? = some call)
    (same : next.sent = call.sent) :
    Placed jobs (calls.set number next) := by
  refine ⟨placed.alone, fun other device => ?_⟩
  rw [placed.sent, getElem?_set_found there]
  by_cases here : other = number
  · simp [here, there, same]
  · simp [here]

/-- A new fan-out has sent nothing. -/
theorem Placed.append
    (placed : Placed jobs calls)
    (requests : List DeviceRequest) :
    Placed jobs (calls ++ [.ofRequests requests]) := by
  refine ⟨placed.alone, fun number device => ?_⟩
  rw [placed.sent, getElem?_appended]
  by_cases here : number = calls.length
  · simp [here, Call.ofRequests]
  · simp [here]

theorem Placed.send
    (placed : Placed jobs calls)
    (there : calls[number]? = some call) :
    Placed (jobs ++ [{ call := number, device := call.sent }])
      (calls.set number call.send) := by
  have missing : (number, call.sent) ∉ jobs.map Job.place := by
    rw [placed.sent]
    rintro ⟨same, found, sent⟩
    obtain rfl := Option.some.inj (found.symm.trans there)
    exact Nat.lt_irrefl _ sent
  constructor
  · rw [List.map_append, List.map_singleton, ← List.concat_eq_append]
    exact placed.alone.concat missing
  · intro other device
    rw [List.map_append, List.map_singleton, List.mem_append, placed.sent,
      List.mem_singleton, getElem?_set_found there]
    by_cases here : other = number
    · simp [here, there, Job.place, Call.send]
      omega
    · simp [here, Job.place]

/-- A device whose job was sent has its job. -/
theorem Placed.exists_job
    (placed : Placed jobs calls)
    (there : calls[number]? = some call)
    {device : Nat}
    (sent : device < call.sent) :
    ∃ job ∈ jobs, job.call = number ∧ job.device = device := by
  rcases List.mem_map.mp ((placed.sent number device).mpr ⟨call, there, sent⟩)
    with ⟨job, member, place⟩
  exact ⟨job, member, congrArg Prod.fst place, congrArg Prod.snd place⟩

/-- A job belongs to a fan-out that sent it. -/
theorem Placed.sent_of_mem
    (placed : Placed jobs calls)
    (member : job ∈ jobs)
    (there : calls[job.call]? = some call) :
    job.device < call.sent := by
  rcases (placed.sent job.call job.device).mp
    (List.mem_map_of_mem (f := Job.place) member) with ⟨same, found, sent⟩
  obtain rfl := Option.some.inj (found.symm.trans there)
  exact sent

end Dispatcher

end Strata
