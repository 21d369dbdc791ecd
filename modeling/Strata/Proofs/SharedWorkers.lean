import Strata.Proofs.Schedules

/-!
# Fan-outs on shared workers

Every schedule gives a fan-out the same answer.  Each request is performed
once and the caller waits for all of them, because no answer is given while a
job has a share in the barrier; what the answer says is then a matter of the
reports alone.

A caller does get its answer.  Some event can happen while a fan-out has none,
and each event other than a new call uses up one of the finitely many steps
that the jobs and their callers have ahead of them.
-/

namespace Strata

/-- The number of steps from a point to the end at most. -/
def Point.ahead :
    Point → Nat
  | .queued => 5
  | .started => 4
  | .performed => 3
  | .stored => 2
  | .released => 1
  | .done => 0

/-- The number of steps a job has ahead of it at most. -/
def Job.ahead
    (job : Job) :
    Nat :=
  job.point.ahead

/-- The number of steps of a fan-out that its jobs in the queue have not ahead
of them: the jobs to come with the step that sends them, and the answer. -/
def Call.ahead
    (call : Call) :
    Nat :=
  6 * (call.width - call.sent) + if call.answer.isNone then 1 else 0

namespace Dispatcher

open Fanout

/-- Whether somebody calls for a new fan-out. -/
def Event.isCall :
    Event → Bool
  | .call _ => true
  | _ => false

/-- The requests of the fan-outs that a schedule calls for. -/
def requested
    (schedule : List Event) :
    List (List DeviceRequest) :=
  schedule.filterMap fun
    | .call requests => some requests
    | _ => none

/-- The number of steps that can happen at most before somebody calls. -/
def ahead
    (state : Dispatcher) :
    Nat :=
  (state.jobs.map Job.ahead).sum + (state.calls.map Call.ahead).sum

/-- An answer that was given to a fan-out. -/
structure Answered
    (report : Nat → Nat → Report)
    (state : Dispatcher)
    (number : Nat)
    (call : Call)
    (answer : Except Error (List Outcome)) :
    Prop where
  /-- The request to each device was performed once. -/
  once : call.performed.Perm (List.range call.width)
  /-- Nothing of a job is left to do but that its worker turns to another. -/
  finished : ∀ job ∈ state.jobs, job.call = number →
    job.point = .released ∨ job.point = .done
  /-- The answer depends on the requests and their reports only. -/
  alike : answer =
    join ((List.range call.width).map (report number))
      (call.requests.any (·.isTransfer))
  /-- The answer is the fault of the first device that has one, or the first
  device that disagrees, or the outcomes. -/
  joined :
    Joined ((List.range call.width).map (report number))
      (call.requests.any (·.isTransfer)) answer

variable
  {report : Nat → Nat → Report}
  {state next : Dispatcher}
  {worker number : Nat}
  {id : JobId}
  {job : Job}
  {call : Call}

/-! ## Steps that are used up -/

theorem sum_ahead_mark
    {jobs : List Job}
    {point : Point}
    (found : jobs[id]? = some job) :
    ((mark jobs id job point).map Job.ahead).sum + job.point.ahead =
      (jobs.map Job.ahead).sum + point.ahead :=
  sum_map_set found Job.ahead

theorem ahead_send
    (more : call.sent < call.width) :
    call.send.ahead + 6 = call.ahead := by
  have width : call.send.width = call.width := rfl
  have sent : call.send.sent = call.sent + 1 := rfl
  have answer : call.send.answer = call.answer := rfl
  rw [Call.ahead, Call.ahead, width, sent, answer]
  omega

theorem ahead_answer
    (unanswered : call.answer = none) :
    Call.ahead { call with answer := call.joined } + 1 = call.ahead := by
  simp [Call.ahead, Call.width, unanswered]

theorem ahead_next?
    {told : Report}
    {point : Point}
    {moved : Call}
    (works : call.next? job told = some (point, moved)) :
    point.ahead < job.point.ahead ∧ moved.ahead = call.ahead := by
  rcases next?_cases works with
    ⟨before, rfl, rfl⟩ | ⟨before, rfl, rfl⟩ | ⟨before | before, rfl, rfl⟩
  · exact ⟨by rw [before]; decide, rfl⟩
  · exact ⟨by rw [before]; decide, rfl⟩
  · exact ⟨by rw [before.1]; decide, rfl⟩
  · exact ⟨by rw [before]; decide, rfl⟩

/-- An event other than a call uses a step up. -/
theorem ahead_step
    {event : Event}
    (sound : Sound report state)
    (stepped : state.step? report event = some next)
    (busy : event.isCall = false) :
    next.ahead < state.ahead := by
  cases event with
  | call requests => exact nomatch busy
  | send number =>
      rcases step?_send_iff.mp stepped with
        ⟨call, workers, there, more, submitted, rfl⟩
      have calls := @sum_map_set _ _ _ _ call.send there Call.ahead
      have less := ahead_send more
      have new : Job.ahead { call := number, device := call.sent } = 5 := rfl
      simp only [ahead, List.map_append, List.sum_append, List.map_singleton,
        List.sum_singleton, new]
      omega
  | take worker =>
      rcases step?_take_iff.mp stepped with
        ⟨workers, id, job, taken, hand, rfl⟩
      have queued := (sound.staffed.take taken hand).1
      have jobs := @sum_ahead_mark id job state.jobs .started
        (inHand?_iff.mp hand).2
      rw [queued] at jobs
      simp only [Point.ahead] at jobs
      simp only [ahead]
      omega
  | work worker =>
      rcases step?_work_iff.mp stepped with
        ⟨id, job, call, point, moved, hand, there, works, rfl⟩
      rcases ahead_next? works with ⟨less, same⟩
      have jobs := @sum_ahead_mark id job state.jobs point
        (inHand?_iff.mp hand).2
      have calls := @sum_map_set _ _ _ _ moved there Call.ahead
      simp only [ahead]
      omega
  | rest worker =>
      rcases step?_rest_iff.mp stepped with
        ⟨id, job, workers, hand, released, ended, rfl⟩
      have jobs := @sum_ahead_mark id job state.jobs .done
        (inHand?_iff.mp hand).2
      rw [released] at jobs
      simp only [Point.ahead] at jobs
      simp only [ahead]
      omega
  | answer number =>
      rcases step?_answer_iff.mp stepped with
        ⟨call, there, ⟨unanswered, sent, shares⟩, rfl⟩
      have calls := @sum_map_set _ _ _ _
        { call with answer := some call.joined } there Call.ahead
      have less := ahead_answer unanswered
      simp only [ahead]
      omega

/-- A schedule without calls is no longer than the steps that are ahead. -/
theorem length_le_ahead
    {further : List Event}
    (sound : Sound report state)
    (ran : state.run? report further = some next)
    (busy : ∀ event ∈ further, event.isCall = false) :
    further.length + next.ahead ≤ state.ahead := by
  induction further generalizing state with
  | nil =>
      obtain rfl := Option.some.inj ran
      simp
  | cons event rest ih =>
      rcases Option.bind_eq_some_iff.mp ran with ⟨between, stepped, ran⟩
      have first := ahead_step sound stepped (busy event List.mem_cons_self)
      have others := ih (sound.step stepped) ran fun other member =>
        busy other (List.mem_cons_of_mem _ member)
      rw [List.length_cons]
      omega

/-! ## Steps that can happen -/

/-- A job in hand that has its share, or breaks down, has a next thing to
do. -/
theorem exists_next?
    (held : job.point.isHeld = true)
    (unreleased : job.point ≠ .released)
    (call : Call)
    (told : Report) :
    ∃ point moved, call.next? job told = some (point, moved) := by
  cases at' : job.point with
  | queued => rw [at'] at held; exact nomatch held
  | started => simp [Call.next?, at']
  | performed => cases told <;> simp [Call.next?, at']
  | stored => simp [Call.next?, at']
  | released => exact absurd at' unreleased
  | done => rw [at'] at held; exact nomatch held

/-- A worker with a job in hand does the next thing of it or ends it. -/
theorem Sound.step_of_busy
    (sound : Sound report state)
    (busy : state.workers.crew[worker]? = some (.busy id)) :
    ∃ event next,
      event.isCall = false ∧ state.step? report event = some next := by
  have held := (sound.staffed.held id).mp ⟨worker, busy⟩
  cases found : state.jobs[id]? with
  | none => simp [pointAt, found] at held
  | some job =>
      have hand := inHand?_iff.mpr ⟨busy, found⟩
      have inHand := (sound.staffed.pointAt_hand hand).2
      by_cases released : job.point = .released
      · rcases workers_can_end busy (report job.call job.device) with
          ⟨workers, ended⟩
        exact ⟨.rest worker, _, rfl,
          step?_rest_iff.mpr ⟨id, job, workers, hand, released, ended, rfl⟩⟩
      · rcases (sound.placed.sent job.call job.device).mp
          (List.mem_map_of_mem (f := Job.place)
            (List.mem_of_getElem? found)) with ⟨call, there, -⟩
        rcases exists_next? inHand released call
          (report job.call job.device) with ⟨point, moved, works⟩
        exact ⟨.work worker, _, rfl, step?_work_iff.mpr
          ⟨id, job, call, point, moved, hand, there, works, rfl⟩⟩

/-- An idle worker takes a job if there is one. -/
theorem Sound.step_of_queued
    {queue : List JobId}
    (sound : Sound report state)
    (idle : state.workers.crew[worker]? = some .idle)
    (waiting : state.workers.queue = id :: queue) :
    ∃ event next,
      event.isCall = false ∧ state.step? report event = some next := by
  have queued := (sound.staffed.queued id).mp (by simp [waiting])
  rcases Option.map_eq_some_iff.mp queued with ⟨job, found, -⟩
  have taken := workers_take_iff.mpr ⟨id, queue, idle, waiting, rfl⟩
  have busy : inHand?
      { state.workers with
        crew := state.workers.crew.set worker (.busy id)
        queue } state.jobs worker = some (id, job) := by
    refine inHand?_iff.mpr ⟨?_, found⟩
    rw [getElem?_set_found idle, if_pos rfl]
  exact ⟨.take worker, _, rfl,
    step?_take_iff.mpr ⟨_, id, job, taken, busy, rfl⟩⟩

/-- As long as a fan-out has no answer, something can happen. -/
theorem Sound.exists_step
    (sound : Sound report state)
    (there : state.calls[number]? = some call)
    (unanswered : call.answer = none) :
    ∃ event next,
      event.isCall = false ∧ state.step? report event = some next := by
  have staffed := sound.staffed
  have kept := sound.kept number call there
  by_cases busy : ∃ (worker : Nat) (id : JobId),
      state.workers.crew[worker]? = some (.busy id)
  · rcases busy with ⟨worker, id, busy⟩
    exact sound.step_of_busy busy
  · rcases Nat.lt_or_eq_of_le kept.sent_le with more | sent
    · have submitted := workers_submit_iff.mpr ⟨staffed.opened, rfl⟩
      exact ⟨.send number, _, rfl,
        step?_send_iff.mpr ⟨call, _, there, more, submitted, rfl⟩⟩
    · cases waiting : state.workers.queue with
      | cons id queue =>
          rcases staffed.first_worker with idle | ⟨other, holds⟩
          · exact sound.step_of_queued idle waiting
          · exact absurd ⟨0, other, holds⟩ busy
      | nil =>
          have released := staffed.released_of_idle
            (fun worker id holds => busy ⟨worker, id, holds⟩) waiting
          have shares : call.shares = 0 := by
            rw [kept.shares, List.countP_eq_zero]
            intro job member
            simp [sharesIn, released job member]
          exact ⟨.answer number, _, rfl, step?_answer_iff.mpr
            ⟨call, there, ⟨unanswered, sent, shares⟩, rfl⟩⟩

/-! ## Answers -/

theorem map_requests_set
    {calls : List Call}
    {moved : Call}
    (there : calls[number]? = some call)
    (same : moved.requests = call.requests) :
    (calls.set number moved).map (·.requests) = calls.map (·.requests) :=
  map_set_found there same

/-- A fan-out keeps its requests, and a new one comes behind all others. -/
theorem requests_step
    {event : Event}
    (stepped : state.step? report event = some next) :
    next.calls.map (·.requests) =
      state.calls.map (·.requests) ++ requested [event] := by
  cases event with
  | call requests =>
      obtain rfl := Option.some.inj stepped
      simp [requested, Call.ofRequests]
  | send number =>
      rcases step?_send_iff.mp stepped with ⟨call, _, there, -, -, rfl⟩
      have same : call.send.requests = call.requests := rfl
      exact (map_requests_set there same).trans (List.append_nil _).symm
  | take worker =>
      rcases step?_take_iff.mp stepped with ⟨_, _, _, -, -, rfl⟩
      exact (List.append_nil _).symm
  | work worker =>
      rcases step?_work_iff.mp stepped with
        ⟨_, _, call, _, moved, -, there, works, rfl⟩
      have same : moved.requests = call.requests := by
        rcases next?_cases works with
          ⟨_, rfl, rfl⟩ | ⟨_, rfl, rfl⟩ | ⟨_, rfl, rfl⟩ <;>
          rfl
      exact (map_requests_set there same).trans (List.append_nil _).symm
  | rest worker =>
      rcases step?_rest_iff.mp stepped with ⟨_, _, _, -, -, -, rfl⟩
      exact (List.append_nil _).symm
  | answer number =>
      rcases step?_answer_iff.mp stepped with ⟨call, there, -, rfl⟩
      have same : { call with answer := some call.joined }.requests =
        call.requests := rfl
      exact (map_requests_set there same).trans (List.append_nil _).symm

/-- The fan-outs are those that the schedule calls for. -/
theorem requests_run
    {schedule : List Event}
    (ran : state.run? report schedule = some next) :
    next.calls.map (·.requests) =
      state.calls.map (·.requests) ++ requested schedule := by
  induction schedule generalizing state with
  | nil =>
      obtain rfl := Option.some.inj ran
      exact (List.append_nil _).symm
  | cons event rest ih =>
      rcases Option.bind_eq_some_iff.mp ran with ⟨between, stepped, ran⟩
      have split : requested (event :: rest) =
          requested [event] ++ requested rest :=
        List.filterMap_append (l := [event])
      rw [ih ran, requests_step stepped, split, List.append_assoc]

/-- What an answer stands for. -/
theorem Sound.answered
    {answer : Except Error (List Outcome)}
    (sound : Sound report state)
    (there : state.calls[number]? = some call)
    (given : call.answer = some answer) :
    Answered report state number call answer := by
  have kept := sound.kept number call there
  rcases kept.answered answer given with ⟨sent, shares, alike⟩
  constructor
  case once =>
    exact kept.performed_perm (sound.placed.exists_job there) sent shares
  case finished =>
    intro job member same
    have released := kept.all_released shares job member same
    cases point : job.point <;> simp_all [Point.holdsShare]
  case alike => exact alike
  case joined =>
    rw [alike]
    exact joined_join _ _

/--
However many workers there are, and in whatever order the jobs of however many
fan-outs are sent, taken, performed and ended, an answer is what the reports of
its own devices come to, each of them having been asked once and all of them
being done; it is the answer of the fan-out that asks one device after the
other.  Without further calls a schedule comes to an end, and it does not end
before each fan-out has its answer.
-/
theorem run_answered
    {size : Nat}
    {workers : Workers}
    {grants : Workers.Grants}
    (sized : Workers.ofSize size grants = .ok workers)
    (report : (call device : Nat) → Report)
    {schedule : List Event}
    {state : Dispatcher}
    (ran : (ofWorkers workers).run? report schedule = some state) :
    state.calls.map (·.requests) = requested schedule ∧
      (∀ number call answer,
        state.calls[number]? = some call → call.answer = some answer →
          Answered report state number call answer ∧
            ∀ {κ : Type} (backend : Backend κ) (start : κ),
              Reports backend call.requests (report number) →
                ((dispatch backend call.requests).execute start).1 =
                  answer) ∧
      ∀ further final,
        state.run? report further = some final →
          (∀ event ∈ further, event.isCall = false) →
            further.length ≤ state.ahead ∧
              ((∀ event, event.isCall = false →
                  final.step? report event = none) →
                ∀ call ∈ final.calls, call.answer.isSome = true) := by
  have sound := (Sound.ofWorkers sized).run ran
  refine ⟨?_, ?_, ?_⟩
  · exact requests_run ran
  · intro number call answer there given
    have answered := sound.answered there given
    refine ⟨answered, fun backend start reports => ?_⟩
    rw [answered.alike]
    exact dispatch_joins reports start
  · intro further final on busy
    have bound := length_le_ahead sound on busy
    refine ⟨Nat.le_trans (Nat.le_add_right _ _) bound, ?_⟩
    intro stuck call member
    rcases List.getElem?_of_mem member with ⟨number, there⟩
    cases given : call.answer with
    | some answer => rfl
    | none =>
        rcases (sound.run on).exists_step there given with
          ⟨event, next, busy, stepped⟩
        rw [stuck event busy] at stepped
        exact nomatch stepped

/-- The two devices of the first fan-out move different counts; of the second
fan-out one device breaks down and one fails. -/
def mixedReport :
    (call device : Nat) → Report
  | 0, 0 => some (.ok (.written 4))
  | 0, _ => some (.ok (.written 3))
  | _, 0 => some (.ok .done)
  | _, 1 => none
  | _, _ => some (.error (.os 5))

/-- Two fan-outs whose five jobs two workers share, so that each fan-out asks
its later devices before an earlier one. -/
def mixedSchedule :
    List Event :=
  [.call [.write 3 0 [1, 2, 3, 4], .write 4 0 [1, 2, 3, 4]],
    .call [.unlink "/a/x", .unlink "/b/x", .unlink "/c/x"],
    .send 0, .send 1, .send 0, .send 1,
    .take 1, .take 0, .work 0, .work 0, .work 0, .rest 0,
    .take 0, .work 0, .work 1, .work 0, .work 0, .rest 0,
    .send 1, .take 0, .work 1, .work 1, .rest 1, .answer 0,
    .take 1, .work 1, .work 0, .work 1, .work 1, .rest 1,
    .work 0, .rest 0, .answer 1]

/-- The first of the two fan-outs at the end. -/
def mixedWrite :
    Call where
  requests := [.write 3 0 [1, 2, 3, 4], .write 4 0 [1, 2, 3, 4]]
  slots := [some (.ok (.written 4)), some (.ok (.written 3))]
  sent := 2
  performed := [0, 1]
  answer := some (.error (.divergence 1 4 3))

/-- The second of the two fan-outs at the end. -/
def mixedUnlink :
    Call where
  requests := [.unlink "/a/x", .unlink "/b/x", .unlink "/c/x"]
  slots := [some (.ok .done), none, some (.error (.os 5))]
  sent := 3
  performed := [1, 2, 0]
  answer := some (.error (.workerLost 1))

/-- What the schedule leads to. -/
def mixedEnd :
    Dispatcher where
  workers :=
    { crew := [.idle, .idle]
      submitted := 5
      completed := [4, 0, 2, 1]
      broken := [3] }
  jobs :=
    [{ call := 0, device := 0, point := .done },
      { call := 1, device := 0, point := .done },
      { call := 0, device := 1, point := .done },
      { call := 1, device := 1, point := .done },
      { call := 1, device := 2, point := .done }]
  calls := [mixedWrite, mixedUnlink]

theorem run_answered_of_mixedSchedule :
    (ofWorkers { crew := [.idle, .idle] }).run? mixedReport mixedSchedule =
        some mixedEnd ∧
      Answered mixedReport mixedEnd 0 mixedWrite
        (.error (.divergence 1 4 3)) ∧
      Answered mixedReport mixedEnd 1 mixedUnlink
        (.error (.workerLost 1)) := by
  have sized : Workers.ofSize 2 = .ok { crew := [.idle, .idle] } := rfl
  have ran : (ofWorkers { crew := [.idle, .idle] }).run? mixedReport
      mixedSchedule = some mixedEnd := rfl
  have answered := (run_answered sized mixedReport ran).2.1
  exact ⟨ran, (answered 0 mixedWrite _ rfl rfl).1,
    (answered 1 mixedUnlink _ rfl rfl).1⟩

end Dispatcher

end Strata
