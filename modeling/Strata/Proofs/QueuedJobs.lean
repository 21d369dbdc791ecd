import Strata.Proofs.Crews

/-!
# Jobs from a queue

Whatever the workers do and when, the jobs that were started followed by those
in the queue are all jobs in the order of submission, and each started job is
in the hands of one worker or has come to its end (`Accounted`).  A worker
leaves only a queue that is closed and empty, and a job that breaks down leaves
the workers and the queue as one that runs to its end would.

Once the queue is closed, each step of a worker uses up one of those that the
workers have ahead of them, and as long as somebody is left a worker can do
something.  So the closed queue is worked off, and when nobody is left every
job has come to its end.
-/

namespace Strata

/-- The job that a worker has in hand. -/
def Worker.job? :
    Worker → Option JobId
  | .busy job => some job
  | _ => none

/-- The number of steps of a worker that takes no more jobs. -/
def Worker.ahead :
    Worker → Nat
  | .idle => 1
  | .busy _ => 2
  | .gone => 0

namespace Workers

open Dispatcher

variable
  {size : Nat}
  {workers next : Workers}
  {event : Event}
  {schedule : List Event}
  {taken : List JobId}

/-- The jobs that workers have in hand. -/
def running
    (workers : Workers) :
    List JobId :=
  workers.crew.filterMap Worker.job?

/-- The job that an event starts. -/
def startedBy?
    (workers : Workers) :
    Event → Option JobId
  | .take _ => workers.queue.head?
  | _ => none

/-- The jobs that a schedule starts, in this order. -/
def started
    (workers : Workers) :
    List Event → List JobId
  | [] => []
  | event :: rest =>
    (workers.startedBy? event).toList ++
      (workers.step? event).elim [] fun next => next.started rest

/-- Whether an event is one of a worker. -/
def Event.isWork :
    Event → Bool
  | .submit => false
  | .close => false
  | _ => true

/-- The number of steps that the workers have ahead of them once no more jobs
are submitted. -/
def ahead
    (workers : Workers) :
    Nat :=
  2 * workers.queue.length + (workers.crew.map Worker.ahead).sum

/-! ## Where the jobs are -/

/--
The started jobs and the queue are all jobs in the order of submission, each
started job is in hand or has come to its end, and nobody has left before the
queue was closed and empty.
-/
structure Accounted
    (size : Nat)
    (taken : List JobId)
    (workers : Workers) :
    Prop where
  inOrder : taken ++ workers.queue = List.range workers.submitted
  placed : taken.Perm
    (workers.running ++ (workers.completed ++ workers.broken))
  manned : workers.crew.length = size
  present : Worker.gone ∈ workers.crew →
    workers.closed = true ∧ workers.queue = []

theorem Accounted.ofSize
    {grants : Grants}
    (sized : ofSize size grants = .ok workers) :
    Accounted size [] workers := by
  rcases ofSize_eq_ok_iff.mp sized with ⟨positive, -, -, rfl⟩
  have idle : (List.replicate size Worker.idle).filterMap Worker.job? = [] := by
    simp [Worker.job?]
  refine ⟨rfl, ?_, List.length_replicate, fun member => ?_⟩
  · rw [running, idle]
    exact .nil
  · exact nomatch List.eq_of_mem_replicate member

section Crew

variable
  {crew : List Worker}
  {worker : Nat}
  {old post : Worker}

/-- A worker exchanges the job it had in hand for the one it gets. -/
theorem perm_jobs_set
    (there : crew[worker]? = some old)
    (post : Worker) :
    (old.job?.toList ++ (crew.set worker post).filterMap Worker.job?).Perm
      (post.job?.toList ++ crew.filterMap Worker.job?) := by
  have cons (first : Worker) (rest : List Worker) :
      (first :: rest).filterMap Worker.job? =
        first.job?.toList ++ rest.filterMap Worker.job? := by
    cases first <;> rfl
  rw [← cons, ← cons]
  exact (perm_set_found there post).filterMap Worker.job?

/-- Nobody has left who had not before, unless one leaves. -/
theorem mem_of_gone_mem_set
    (stays : Worker.gone ≠ post)
    (member : Worker.gone ∈ crew.set worker post) :
    Worker.gone ∈ crew :=
  (List.mem_or_eq_of_mem_set member).resolve_right stays

end Crew

theorem Accounted.take
    {worker : Nat}
    (accounted : Accounted size taken workers)
    (stepped : workers.step? (.take worker) = some next) :
    Accounted size (taken ++ (workers.startedBy? (.take worker)).toList)
      next := by
  rcases workers_take_iff.mp stepped with ⟨job, queue, idle, waits, rfl⟩
  have hands : ((workers.crew.set worker (.busy job)).filterMap
      Worker.job?).Perm (job :: workers.running) :=
    perm_jobs_set idle (.busy job)
  have first : (workers.startedBy? (.take worker)).toList = [job] := by
    rw [startedBy?, waits]
    rfl
  rw [first]
  refine ⟨?_, ?_, ?_, fun member => ?_⟩
  · rw [← accounted.inOrder, waits, List.append_assoc]
    rfl
  · exact (List.perm_append_singleton job taken).trans
      ((accounted.placed.cons job).trans (hands.symm.append_right _))
  · exact List.length_set.trans accounted.manned
  · have stays : Worker.gone ≠ .busy job := nofun
    have left := accounted.present (mem_of_gone_mem_set stays member)
    exact absurd (waits.symm.trans left.2) (List.cons_ne_nil _ _)

/-- A job that has come to its end is in hand no more. -/
theorem Accounted.placed_of_ended
    {worker : Nat}
    {job : JobId}
    {ended : List JobId}
    (accounted : Accounted size taken workers)
    (busy : workers.crew[worker]? = some (.busy job))
    (also : (job :: (workers.completed ++ workers.broken)).Perm ended) :
    taken.Perm
      ((workers.crew.set worker .idle).filterMap Worker.job? ++ ended) := by
  have hands : (job :: (workers.crew.set worker .idle).filterMap
      Worker.job?).Perm workers.running :=
    perm_jobs_set busy .idle
  have moved := accounted.placed.trans (hands.symm.append_right _)
  exact (moved.trans List.perm_middle.symm).trans (also.append_left _)

theorem Accounted.step
    (accounted : Accounted size taken workers)
    (stepped : workers.step? event = some next) :
    Accounted size (taken ++ (workers.startedBy? event).toList) next := by
  cases event with
  | take worker => exact accounted.take stepped
  | submit =>
      change Accounted size (taken ++ []) next
      rw [List.append_nil]
      rcases workers_submit_iff.mp stepped with ⟨opened, rfl⟩
      refine ⟨?_, accounted.placed, accounted.manned, fun member => ?_⟩
      · rw [List.range_succ, ← accounted.inOrder, List.append_assoc]
      · have closed := (accounted.present member).1
        exact absurd (closed.symm.trans opened) (by decide)
  | close =>
      change Accounted size (taken ++ []) next
      rw [List.append_nil]
      cases stepped
      exact ⟨accounted.inOrder, accounted.placed, accounted.manned,
        fun member => ⟨rfl, (accounted.present member).2⟩⟩
  | complete worker =>
      change Accounted size (taken ++ []) next
      rw [List.append_nil]
      rcases workers_complete_iff.mp stepped with ⟨job, busy, rfl⟩
      have stays : Worker.gone ≠ .idle := nofun
      exact ⟨accounted.inOrder, accounted.placed_of_ended busy (.refl _),
        List.length_set.trans accounted.manned,
        fun member => accounted.present (mem_of_gone_mem_set stays member)⟩
  | breakDown worker =>
      change Accounted size (taken ++ []) next
      rw [List.append_nil]
      rcases workers_breakDown_iff.mp stepped with ⟨job, busy, rfl⟩
      have stays : Worker.gone ≠ .idle := nofun
      exact ⟨accounted.inOrder,
        accounted.placed_of_ended busy List.perm_middle.symm,
        List.length_set.trans accounted.manned,
        fun member => accounted.present (mem_of_gone_mem_set stays member)⟩
  | leave worker =>
      change Accounted size (taken ++ []) next
      rw [List.append_nil]
      rcases workers_leave_iff.mp stepped with ⟨idle, empty, closed, rfl⟩
      have hands : ((workers.crew.set worker .gone).filterMap
          Worker.job?).Perm workers.running :=
        perm_jobs_set idle .gone
      exact ⟨accounted.inOrder,
        accounted.placed.trans (hands.symm.append_right _),
        List.length_set.trans accounted.manned, fun _ => ⟨closed, empty⟩⟩

/-- What holds of the jobs that were started holds of them and those that a
schedule starts. -/
theorem Accounted.run
    (accounted : Accounted size taken workers)
    (ran : workers.run? schedule = some next) :
    Accounted size (taken ++ workers.started schedule) next := by
  induction schedule generalizing taken workers with
  | nil =>
      cases ran
      rwa [started, List.append_nil]
  | cons event rest ih =>
      rcases Option.bind_eq_some_iff.mp ran with ⟨between, stepped, ran⟩
      rw [started, stepped, ← List.append_assoc]
      exact ih (accounted.step stepped) ran

/-- Nobody has more than one job in hand. -/
theorem length_running_le
    (workers : Workers) :
    workers.running.length ≤ workers.crew.length :=
  List.length_filterMap_le ..

/-- When nobody is left, every job was started, and has come to its end. -/
theorem Accounted.all_ended
    (accounted : Accounted size taken workers)
    (positive : 0 < size)
    (ended : workers.isOver = true) :
    taken = List.range workers.submitted ∧
      (workers.completed ++ workers.broken).Perm
        (List.range workers.submitted) ∧
      ∀ worker ∈ workers.crew, worker = .gone := by
  rw [isOver, Bool.and_eq_true, List.all_eq_true] at ended
  have left : ∀ worker ∈ workers.crew, worker = .gone := fun worker member =>
    beq_iff_eq.mp (ended.2 worker member)
  have anyone : 0 < workers.crew.length := accounted.manned ▸ positive
  rcases List.exists_mem_of_length_pos anyone with ⟨worker, member⟩
  have empty := (accounted.present (left worker member ▸ member)).2
  have taken := accounted.inOrder
  rw [empty, List.append_nil] at taken
  have idle : workers.running = [] := by
    rw [running, List.filterMap_eq_nil_iff]
    intro worker member
    rw [left worker member]
    rfl
  have placed := accounted.placed
  rw [idle, List.nil_append, taken] at placed
  exact ⟨taken, placed.symm, left⟩

/-! ## Jobs that break down -/

/-- The event in which a job comes to its end that breaks down in this one. -/
def Event.completing :
    Event → Event
  | .breakDown worker => .complete worker
  | event => event

/-- The workers and the queue, without what has become of the jobs. -/
def withoutResults
    (workers : Workers) :
    Workers :=
  { workers with completed := [], broken := [] }

/-- What can happen does not depend on what has become of the jobs. -/
theorem step?_withoutResults
    (workers : Workers)
    (event : Event) :
    (workers.withoutResults.step? event).map withoutResults =
      (workers.step? event).map withoutResults := by
  cases event with
  | close => rfl
  | _ =>
      dsimp only [step?, withoutResults]
      split <;> rfl

theorem step?_completing
    (workers : Workers)
    (event : Event) :
    (workers.step? event.completing).map withoutResults =
      (workers.step? event).map withoutResults := by
  cases event with
  | breakDown worker =>
      simp only [Event.completing, step?]
      split <;> rfl
  | _ => rfl

/-- A schedule leads to the same workers and the same queue whichever of its
jobs break down. -/
theorem run?_completing
    (workers : Workers)
    (schedule : List Event) :
    (workers.run? (schedule.map Event.completing)).map withoutResults =
      (workers.run? schedule).map withoutResults := by
  -- The results that have come in may differ on the way.
  suffices alike : ∀ other : Workers,
      other.withoutResults = workers.withoutResults →
        (other.run? (schedule.map Event.completing)).map withoutResults =
          (workers.run? schedule).map withoutResults from
    alike workers rfl
  induction schedule generalizing workers with
  | nil => exact fun other same => congrArg some same
  | cons event rest ih =>
      intro other same
      have stepped : (other.step? event.completing).map withoutResults =
          (workers.step? event).map withoutResults := by
        rw [step?_completing, ← step?_withoutResults, same,
          step?_withoutResults]
      rw [List.map_cons, run?, run?]
      cases first : workers.step? event with
      | none =>
          rw [first, Option.map_none, Option.map_eq_none_iff] at stepped
          rw [stepped]
          rfl
      | some next =>
          rw [first, Option.map_some, Option.map_eq_some_iff] at stepped
          rcases stepped with ⟨twin, second, same⟩
          rw [second]
          exact ih next twin same

/-! ## The end of the queue -/

/-- In an event of a worker this one goes on, one of the steps that are ahead is
used up, and no job is submitted nor the queue closed. -/
theorem exists_worker_of_work
    (work : event.isWork = true)
    (stepped : workers.step? event = some next) :
    ∃ worker old post,
      workers.crew[worker]? = some old ∧
        next.crew = workers.crew.set worker post ∧
        2 * next.queue.length + post.ahead + 1 =
          2 * workers.queue.length + old.ahead ∧
        next.submitted = workers.submitted ∧
        next.closed = workers.closed := by
  cases event with
  | submit => cases work
  | close => cases work
  | take worker =>
      rcases workers_take_iff.mp stepped with ⟨job, queue, idle, waits, rfl⟩
      refine ⟨worker, .idle, .busy job, idle, rfl, ?_, rfl, rfl⟩
      simp only [waits, List.length_cons, Worker.ahead]
      omega
  | complete worker =>
      rcases workers_complete_iff.mp stepped with ⟨job, busy, rfl⟩
      exact ⟨worker, .busy job, .idle, busy, rfl, rfl, rfl, rfl⟩
  | breakDown worker =>
      rcases workers_breakDown_iff.mp stepped with ⟨job, busy, rfl⟩
      exact ⟨worker, .busy job, .idle, busy, rfl, rfl, rfl, rfl⟩
  | leave worker =>
      rcases workers_leave_iff.mp stepped with ⟨idle, -, -, rfl⟩
      exact ⟨worker, .idle, .gone, idle, rfl, rfl, rfl, rfl⟩

theorem work_step
    (work : event.isWork = true)
    (stepped : workers.step? event = some next) :
    next.ahead + 1 = workers.ahead ∧
      next.submitted = workers.submitted ∧ next.closed = workers.closed := by
  rcases exists_worker_of_work work stepped with
    ⟨worker, old, post, there, crew, steps, kept⟩
  have sums := @sum_map_set _ _ _ _ post there Worker.ahead
  refine ⟨?_, kept⟩
  rw [ahead, ahead, crew]
  omega

/-- A schedule without submissions is as long as what it uses up of the steps
that are ahead, and leaves a closed queue closed. -/
theorem length_add_ahead
    (works : ∀ event ∈ schedule, event.isWork = true)
    (ran : workers.run? schedule = some next) :
    schedule.length + next.ahead = workers.ahead ∧
      next.closed = workers.closed := by
  induction schedule generalizing workers with
  | nil =>
      cases ran
      exact ⟨Nat.zero_add _, rfl⟩
  | cons event rest ih =>
      rcases Option.bind_eq_some_iff.mp ran with ⟨between, stepped, ran⟩
      rcases List.forall_mem_cons.mp works with ⟨work, others⟩
      rcases work_step work stepped with ⟨first, -, stays⟩
      rcases ih others ran with ⟨later, closed⟩
      refine ⟨?_, closed.trans stays⟩
      rw [List.length_cons]
      omega

/-- The jobs are those that a schedule submits. -/
theorem submitted_run
    (ran : workers.run? schedule = some next) :
    next.submitted = workers.submitted + schedule.count .submit := by
  induction schedule generalizing workers with
  | nil =>
      cases ran
      rfl
  | cons event rest ih =>
      rcases Option.bind_eq_some_iff.mp ran with ⟨between, stepped, ran⟩
      rw [ih ran]
      cases work : event.isWork with
      | true =>
          have other : event ≠ .submit := by
            rintro rfl
            cases work
          rw [(work_step work stepped).2.1, List.count_cons_of_ne other]
      | false =>
          cases event with
          | submit =>
              rcases workers_submit_iff.mp stepped with ⟨-, rfl⟩
              rw [List.count_cons_self, Nat.add_right_comm, Nat.add_assoc]
          | close =>
              cases stepped
              exact (congrArg _ (List.count_cons_of_ne (by decide))).symm
          | _ => cases work

/-- If no worker can do anything, no job is queued or in hand, and nobody is
left at a closed queue. -/
theorem Accounted.stuck
    (accounted : Accounted size taken workers)
    (positive : 0 < size)
    (stuck : ∀ event, event.isWork = true → workers.step? event = none) :
    workers.queue = [] ∧ workers.running = [] ∧
      (workers.closed = true → workers.isOver = true) := by
  have rests : ∀ post ∈ workers.crew, workers.queue = [] ∧
      post.job? = none ∧ (workers.closed = true → post = .gone) := by
    intro post member
    rcases List.getElem?_of_mem member with ⟨worker, there⟩
    cases post with
    | gone => exact ⟨(accounted.present member).2, rfl, fun _ => rfl⟩
    | busy job =>
        have ends := workers_complete_iff.mpr ⟨job, there, rfl⟩
        exact nomatch (stuck (.complete worker) rfl).symm.trans ends
    | idle =>
        have empty : workers.queue = [] := by
          cases waits : workers.queue with
          | nil => rfl
          | cons job queue =>
              have takes := workers_take_iff.mpr ⟨job, queue, there, waits, rfl⟩
              exact nomatch (stuck (.take worker) rfl).symm.trans takes
        refine ⟨empty, rfl, fun closed => ?_⟩
        have leaves := workers_leave_iff.mpr ⟨there, empty, closed, rfl⟩
        exact nomatch (stuck (.leave worker) rfl).symm.trans leaves
  have anyone : 0 < workers.crew.length := accounted.manned ▸ positive
  rcases List.exists_mem_of_length_pos anyone with ⟨first, member⟩
  refine ⟨(rests first member).1, ?_, fun closed => ?_⟩
  · rw [running, List.filterMap_eq_nil_iff]
    exact fun post member => (rests post member).2.1
  · rw [isOver, closed, Bool.true_and, List.all_eq_true]
    exact fun post member =>
      beq_iff_eq.mpr ((rests post member).2.2 closed)

/--
However many workers there are, whatever is submitted when, and whichever jobs
break down: the jobs are started in the order of their submission, once each,
and a started job is in the hands of one worker or has come to its end, once.
No more jobs are in hand than there are workers.  Nobody leaves before the
queue is closed and empty, and the workers and the queue are what they would
be if no job had broken down.  When nobody is left every job was started and
has come to its end.  Without further submissions a schedule comes to an end,
and it does not end before the queue is empty and no job is in hand, and, if
the queue is closed, nobody is left.
-/
theorem run_works_off
    {grants : Grants}
    {state : Workers}
    (sized : ofSize size grants = .ok workers)
    (ran : workers.run? schedule = some state) :
    state.submitted = schedule.count .submit ∧
    Accounted size (workers.started schedule) state ∧
    state.running.length ≤ size ∧
    (workers.run? (schedule.map Event.completing)).map withoutResults =
      some state.withoutResults ∧
    (state.isOver = true →
      workers.started schedule = List.range state.submitted ∧
        (state.completed ++ state.broken).Perm (List.range state.submitted) ∧
        ∀ worker ∈ state.crew, worker = .gone) ∧
    ∀ further final,
      state.run? further = some final →
        (∀ event ∈ further, event.isWork = true) →
          further.length ≤ state.ahead ∧
            ((∀ event, event.isWork = true → final.step? event = none) →
              final.queue = [] ∧ final.running = [] ∧
                (state.closed = true → final.isOver = true)) := by
  have positive := (ofSize_eq_ok_iff.mp sized).1
  have accounted := (Accounted.ofSize sized).run ran
  rw [List.nil_append] at accounted
  refine ⟨?_, accounted, ?_, ?_, accounted.all_ended positive, ?_⟩
  · have submitted := submitted_run ran
    rw [(ofSize_eq_ok_iff.mp sized).2.2.2] at submitted
    exact submitted.trans (Nat.zero_add _)
  · exact accounted.manned ▸ length_running_le state
  · rw [run?_completing, ran]
    rfl
  · intro further final on works
    rcases length_add_ahead works on with ⟨length, closed⟩
    refine ⟨Nat.le.intro length, fun stuck => ?_⟩
    rw [← closed]
    exact (accounted.run on).stuck positive stuck

/-- Two workers share four jobs, the first of which breaks down, and the queue
is closed while two of them are in hand and one is left. -/
theorem run_works_off_of_two_workers :
    let workers : Workers := { crew := [.idle, .idle] }
    let schedule : List Event :=
      [.submit, .submit, .take 1, .submit, .take 0, .breakDown 1, .take 1,
        .submit, .close, .complete 0, .take 0, .complete 1, .leave 1,
        .complete 0, .leave 0]
    let state : Workers :=
      { crew := [.gone, .gone]
        submitted := 4
        closed := true
        completed := [3, 2, 1]
        broken := [0] }
    ofSize 2 = .ok workers ∧
      workers.run? schedule = some state ∧
      workers.started schedule = [0, 1, 2, 3] ∧
      (state.completed ++ state.broken).Perm [0, 1, 2, 3] := by
  intro workers schedule state
  have sized : ofSize 2 = .ok workers := rfl
  have ran : workers.run? schedule = some state := rfl
  rcases run_works_off sized ran with ⟨-, -, -, -, atEnd, -⟩
  rcases atEnd rfl with ⟨started, ended, -⟩
  exact ⟨sized, ran, started, ended⟩

end Workers

end Strata
