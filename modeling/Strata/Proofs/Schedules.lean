import Mathlib.Data.Option.Basic
import Strata.Proofs.Crews
import Strata.Proofs.Joins

/-!
# Schedules of a dispatcher

What holds in every state that a schedule leads to: the slots, the barrier and
the performed requests of a fan-out are what its jobs have come to, and an
answer that was given is what all reports come to (`Kept`).  Each event keeps
this for the fan-out it is about and takes no notice of the others, so it
holds at the end of every schedule (`Sound.run`).
-/

namespace Strata.Dispatcher

open Fanout

variable
  {jobs : List Job}
  {calls : List Call}
  {workers : Workers}
  {id : JobId}
  {job : Job}
  {point : Point}
  {worker number : Nat}
  {call : Call}

/-! ## The books of a fan-out -/

/-- Whether a job has a share in the barrier of a fan-out. -/
def sharesIn
    (number : Nat)
    (job : Job) :
    Bool :=
  job.call == number && job.point.holdsShare

/-- What a fan-out has on its books of one of its jobs. -/
structure Entered
    (report : Nat → Report)
    (call : Call)
    (job : Job) :
    Prop where
  ran : call.performed.count job.device = job.point.hasRun.toNat
  reported : call.slots[job.device]? =
    some (if job.point.hasReported then report job.device else none)

/--
The slots, the barrier and the performed requests of a fan-out are what its
jobs have come to, and its answer is what all reports come to.
-/
structure Kept
    (report : Nat → Report)
    (number : Nat)
    (jobs : List Job)
    (call : Call) :
    Prop where
  slots : call.slots.length = call.width
  sent_le : call.sent ≤ call.width
  shares : call.shares = jobs.countP (sharesIn number)
  entered : ∀ job ∈ jobs, job.call = number → Entered report call job
  performed_sent : ∀ device ∈ call.performed, device < call.sent
  empty : ∀ device, call.sent ≤ device → device < call.width →
    call.slots[device]? = some none
  answered : ∀ answer, call.answer = some answer →
    call.sent = call.width ∧ call.shares = 0 ∧
      answer =
        join ((List.range call.width).map report)
          (call.requests.any (·.isTransfer))

section Books

variable
  {report : Nat → Report}

theorem Entered.congr
    {next : Call}
    (entered : Entered report call job)
    (performed : next.performed = call.performed)
    (slots : next.slots = call.slots) :
    Entered report next job :=
  ⟨performed ▸ entered.ran, slots ▸ entered.reported⟩

/-- A new fan-out has no jobs. -/
theorem Kept.ofRequests
    (foreign : ∀ job ∈ jobs, job.call ≠ number)
    (requests : List DeviceRequest) :
    Kept report number jobs (.ofRequests requests) := by
  constructor
  case slots => exact List.length_replicate
  case sent_le => exact Nat.zero_le _
  case shares =>
    symm
    rw [Call.ofRequests, List.countP_eq_zero]
    intro job member shares
    simp [sharesIn, foreign job member] at shares
  case entered =>
    exact fun job member same => absurd same (foreign job member)
  case performed_sent => exact fun _ member => absurd member List.not_mem_nil
  case empty =>
    intro device _ inside
    exact List.getElem?_replicate_of_lt inside
  case answered =>
    intro answer answered
    cases answered

/-- A job of another fan-out is not in the books. -/
theorem Kept.other_sent
    (kept : Kept report number jobs call)
    (other : job.call ≠ number) :
    Kept report number (jobs ++ [job]) call := by
  have shares : sharesIn number job = false := by
    simp [sharesIn, other]
  refine { kept with shares := ?_, entered := ?_ }
  · rw [List.countP_append, List.countP_singleton, shares, kept.shares]
    rfl
  · intro found member same
    rcases List.mem_append.mp member with old | new
    · exact kept.entered found old same
    · exact absurd (List.mem_singleton.mp new ▸ same) other

/-- The job that a fan-out sends has come to nothing yet. -/
theorem Kept.send
    (kept : Kept report number jobs call)
    (more : call.sent < call.width) :
    Kept report number
      (jobs ++ [{ call := number, device := call.sent }]) call.send := by
  constructor
  case slots => exact kept.slots
  case sent_le => exact more
  case shares =>
    rw [List.countP_append, List.countP_singleton, ← kept.shares]
    simp [Call.send, sharesIn, Point.holdsShare]
  case entered =>
    intro found member same
    rcases List.mem_append.mp member with old | new
    · exact (kept.entered found old same).congr rfl rfl
    · obtain rfl := List.mem_singleton.mp new
      constructor
      · exact List.count_eq_zero.mpr fun performed =>
          Nat.lt_irrefl _ (kept.performed_sent _ performed)
      · exact kept.empty call.sent (Nat.le_refl _) more
  case performed_sent =>
    exact fun device member =>
      Nat.lt_succ_of_lt (kept.performed_sent device member)
  case empty =>
    exact fun device beyond inside =>
      kept.empty device (Nat.le_of_succ_le beyond) inside
  case answered =>
    intro answer answered
    exact absurd (kept.answered answer answered).1 (Nat.ne_of_lt more)

/-- The books take no notice of a job of another fan-out, or of one that runs
no request, stores no report and keeps its share. -/
theorem Kept.other_marked
    (kept : Kept report number jobs call)
    (alone : (jobs.map Job.place).Nodup)
    (found : jobs[id]? = some job)
    (quiet : job.call = number →
      point.hasRun = job.point.hasRun ∧
        point.hasReported = job.point.hasReported ∧
        point.holdsShare = job.point.holdsShare) :
    Kept report number (mark jobs id job point) call := by
  have member := List.mem_of_getElem? found
  refine { kept with shares := ?_, entered := ?_ }
  · have same : sharesIn number { job with point } = sharesIn number job := by
      by_cases here : job.call = number
      · simp [sharesIn, (quiet here).2.2]
      · simp [sharesIn, beq_false_of_ne here]
    have counted := @countP_mark _ _ _ point found (sharesIn number)
    rw [same, Nat.add_right_cancel_iff] at counted
    rw [counted, kept.shares]
  · intro other there same
    rcases mem_mark alone found there with rfl | ⟨old, -⟩
    · rcases quiet same with ⟨ran, reported, -⟩
      have before := kept.entered job member same
      exact ⟨ran ▸ before.ran, reported ▸ before.reported⟩
    · exact kept.entered other old same

/-- A job with a share is one of those that are counted. -/
theorem Kept.shares_pos
    (kept : Kept report number jobs call)
    (member : job ∈ jobs)
    (same : job.call = number)
    (share : job.point.holdsShare = true) :
    0 < call.shares := by
  rw [kept.shares, List.countP_pos_iff]
  exact ⟨job, member, by simp [sharesIn, same, share]⟩

/-- The devices of one fan-out tell its jobs apart. -/
theorem device_ne_of_place_ne
    {other : Job}
    (differs : other.place ≠ job.place)
    (same : other.call = job.call) :
    other.device ≠ job.device :=
  fun equal => differs (Prod.ext same equal)

/--
A job with a share moves on.  What it has come to is entered under its device,
and nothing else of the fan-out changes.
-/
theorem Kept.moved
    {next : Call}
    (kept : Kept report number jobs call)
    (alone : (jobs.map Job.place).Nodup)
    (found : jobs[id]? = some job)
    (same : job.call = number)
    (sent : job.device < call.sent)
    (share : job.point.holdsShare = true)
    (requests : next.requests = call.requests)
    (sends : next.sent = call.sent)
    (answers : next.answer = call.answer)
    (shares : next.shares + 1 = call.shares + point.holdsShare.toNat)
    (runs : point.hasRun = true)
    (performed : next.performed =
      if job.point.hasRun then call.performed
      else job.device :: call.performed)
    (reported : next.slots =
      call.slots.set job.device
        (if point.hasReported then report job.device else none)) :
    Kept report number (mark jobs id job point) next := by
  have member := List.mem_of_getElem? found
  have width : next.width = call.width := congrArg List.length requests
  have inside : job.device < call.slots.length :=
    kept.slots ▸ Nat.lt_of_lt_of_le sent kept.sent_le
  constructor
  case slots => rw [reported, List.length_set, kept.slots, width]
  case sent_le => rw [sends, width]; exact kept.sent_le
  case shares =>
    have counted := @countP_mark _ _ _ point found (sharesIn number)
    rw [← kept.shares] at counted
    have old : sharesIn number job = true := by
      simp [sharesIn, same, share]
    have new : sharesIn number { job with point } = point.holdsShare := by
      simp [sharesIn, same]
    rw [old, new, Bool.toNat_true] at counted
    exact Nat.add_right_cancel (shares.trans counted.symm)
  case entered =>
    intro other there belongs
    rcases mem_mark alone found there with rfl | ⟨old, differs⟩
    · constructor
      · have before := (kept.entered job member same).ran
        rw [performed, runs]
        cases ran : job.point.hasRun with
        | true => simpa [ran] using before
        | false =>
            rw [ran] at before
            rw [if_neg Bool.false_ne_true, List.count_cons_self, before]
            rfl
      · rw [reported]
        exact List.getElem?_set_self inside
    · have before := kept.entered other old belongs
      have apart := device_ne_of_place_ne differs (belongs.trans same.symm)
      constructor
      · rw [performed, ← before.ran]
        split
        · rfl
        · exact List.count_cons_of_ne apart.symm
      · rw [reported, List.getElem?_set_ne apart.symm]
        exact before.reported
  case performed_sent =>
    intro device member
    rw [sends]
    rw [performed] at member
    split at member
    · exact kept.performed_sent device member
    · rcases List.mem_cons.mp member with rfl | before
      · exact sent
      · exact kept.performed_sent device before
  case empty =>
    intro device beyond within
    rw [sends] at beyond
    rw [reported, List.getElem?_set_ne
      (Nat.ne_of_lt (Nat.lt_of_lt_of_le sent beyond))]
    exact kept.empty device beyond (width ▸ within)
  case answered =>
    intro answer answered
    rw [answers] at answered
    have none := (kept.answered answer answered).2.1
    exact absurd none (Nat.ne_of_gt (kept.shares_pos member same share))

/-- A slot that holds a report may be filled with it again. -/
theorem set_slot
    {slots : List Report}
    {device : Nat}
    {held : Report}
    (slot : slots[device]? = some held) :
    slots.set device held = slots := by
  rcases List.getElem?_eq_some_iff.mp slot with ⟨inside, rfl⟩
  exact List.set_getElem_self inside

/-- A job performs its request, stores the report that there is, and gives
its share up. -/
theorem next?_cases
    {told : Report}
    {next : Call}
    (stepped : call.next? job told = some (point, next)) :
    (job.point = .started ∧ point = .performed ∧
        next = call.perform job.device) ∨
      (job.point = .performed ∧ point = .stored ∧
        next = call.store job.device told) ∨
      ((job.point = .performed ∧ told = none ∨ job.point = .stored) ∧
        point = .released ∧ next = call.release) := by
  unfold Call.next? at stepped
  split at stepped
  case h_1 started =>
    cases stepped
    exact .inl ⟨started, rfl, rfl⟩
  case h_2 performed =>
    cases stepped
    exact .inr (.inl ⟨performed, rfl, rfl⟩)
  case h_3 performed =>
    cases stepped
    exact .inr (.inr ⟨.inl ⟨performed, rfl⟩, rfl, rfl⟩)
  case h_4 stored =>
    cases stepped
    exact .inr (.inr ⟨.inr stored, rfl, rfl⟩)
  case h_5 => cases stepped

/-- Whatever a job does next, its fan-out has it in the books. -/
theorem Kept.work
    {next : Call}
    (kept : Kept report number jobs call)
    (alone : (jobs.map Job.place).Nodup)
    (found : jobs[id]? = some job)
    (same : job.call = number)
    (sent : job.device < call.sent)
    (stepped : call.next? job (report job.device) = some (point, next)) :
    Kept report number (mark jobs id job point) next := by
  have member := List.mem_of_getElem? found
  have slot := (kept.entered job member same).reported
  have moved := @Kept.moved jobs id job point number call report next kept
    alone found same sent
  rcases next?_cases stepped with
    ⟨started, rfl, rfl⟩ | ⟨performed, rfl, rfl⟩ | ⟨before, rfl, rfl⟩
  · rw [started] at slot moved
    exact moved rfl rfl rfl rfl rfl rfl rfl (set_slot slot).symm
  · rw [performed] at moved
    exact moved rfl rfl rfl rfl rfl rfl rfl rfl
  · have released : job.point.holdsShare = true ∧
        job.point.hasRun = true ∧
        call.slots[job.device]? = some (report job.device) := by
      rcases before with ⟨performed, lost⟩ | stored
      · rw [performed] at slot ⊢
        exact ⟨rfl, rfl, slot.trans (congrArg some lost.symm)⟩
      · rw [stored] at slot ⊢
        exact ⟨rfl, rfl, slot⟩
    rcases released with ⟨share, ran, slot⟩
    refine moved share rfl rfl rfl ?_ rfl ?_ (set_slot slot).symm
    · exact Nat.sub_add_cancel (kept.shares_pos member same share)
    · rw [if_pos ran]
      rfl

/-! ## The end of a fan-out -/

/-- Without shares, each job has run and its report is in its slot. -/
theorem Kept.all_released
    (kept : Kept report number jobs call)
    (shares : call.shares = 0) :
    ∀ job ∈ jobs, job.call = number → job.point.holdsShare = false := by
  rw [kept.shares, List.countP_eq_zero] at shares
  intro job member same
  simpa [sharesIn, same] using shares job member

/-- The slots hold what the devices report. -/
theorem Kept.slots_eq
    (kept : Kept report number jobs call)
    (every : ∀ {device}, device < call.sent →
      ∃ job ∈ jobs, job.call = number ∧ job.device = device)
    (sent : call.sent = call.width)
    (shares : call.shares = 0) :
    call.slots = (List.range call.width).map report := by
  apply List.ext_getElem?
  intro device
  by_cases inside : device < call.width
  · rcases every (sent ▸ inside) with ⟨job, member, same, rfl⟩
    have released := kept.all_released shares job member same
    rw [(kept.entered job member same).reported,
      if_pos (Point.hasReported_of_released released)]
    simp [inside]
  · have outside := Nat.le_of_not_lt inside
    rw [List.getElem?_eq_none (kept.slots ▸ outside),
      List.getElem?_eq_none (by simpa using outside)]

/-- Each request was performed once. -/
theorem Kept.performed_perm
    (kept : Kept report number jobs call)
    (every : ∀ {device}, device < call.sent →
      ∃ job ∈ jobs, job.call = number ∧ job.device = device)
    (sent : call.sent = call.width)
    (shares : call.shares = 0) :
    call.performed.Perm (List.range call.width) := by
  rw [List.perm_iff_count]
  intro device
  by_cases inside : device < call.sent
  · rcases every inside with ⟨job, member, same, rfl⟩
    have released := kept.all_released shares job member same
    rw [(kept.entered job member same).ran, Point.hasRun_of_released released,
      Bool.toNat_true, List.count_eq_one_of_mem List.nodup_range]
    exact List.mem_range.mpr (sent ▸ inside)
  · rw [List.count_eq_zero.mpr fun member =>
        inside (kept.performed_sent device member),
      List.count_eq_zero.mpr fun member =>
        inside (sent ▸ List.mem_range.mp member)]

/-- The answer is what all reports come to. -/
theorem Kept.answer
    (kept : Kept report number jobs call)
    (every : ∀ {device}, device < call.sent →
      ∃ job ∈ jobs, job.call = number ∧ job.device = device)
    (sent : call.sent = call.width)
    (shares : call.shares = 0) :
    Kept report number jobs { call with answer := call.joined } := by
  refine
    { kept with
      entered := fun job member same =>
        (kept.entered job member same).congr rfl rfl
      answered := fun answer answered => ?_ }
  obtain rfl := Option.some.inj answered
  refine ⟨sent, shares, ?_⟩
  show call.joined = _
  rw [Call.joined, kept.slots_eq every sent shares]
  rfl

end Books

/-! ## Steps -/

section Steps

variable
  {report : Nat → Nat → Report}
  {state next : Dispatcher}

theorem step?_send_iff :
    state.step? report (.send number) = some next ↔
      ∃ call workers,
        state.calls[number]? = some call ∧
          call.sent < call.width ∧
          state.workers.step? .submit = some workers ∧
          next = {
            workers
            jobs := state.jobs ++ [{ call := number, device := call.sent }]
            calls := state.calls.set number call.send } := by
  simp [step?, Option.bind_eq_some_iff, @eq_comm _ next]

theorem step?_take_iff :
    state.step? report (.take worker) = some next ↔
      ∃ workers id job,
        state.workers.step? (.take worker) = some workers ∧
          inHand? workers state.jobs worker = some (id, job) ∧
          next = {
            state with workers, jobs := mark state.jobs id job .started } := by
  simp [step?, Option.bind_eq_some_iff, @eq_comm _ next]

theorem step?_work_iff :
    state.step? report (.work worker) = some next ↔
      ∃ id job call point moved,
        inHand? state.workers state.jobs worker = some (id, job) ∧
          state.calls[job.call]? = some call ∧
          call.next? job (report job.call job.device) =
            some (point, moved) ∧
          next = {
            state with
            jobs := mark state.jobs id job point
            calls := state.calls.set job.call moved } := by
  simp [step?, Option.bind_eq_some_iff, @eq_comm _ next]

theorem step?_rest_iff :
    state.step? report (.rest worker) = some next ↔
      ∃ id job workers,
        inHand? state.workers state.jobs worker = some (id, job) ∧
          job.point = .released ∧
          state.workers.step?
              (ending worker (report job.call job.device)) =
            some workers ∧
          next = {
            state with workers, jobs := mark state.jobs id job .done } := by
  simp [step?, Option.bind_eq_some_iff, @eq_comm _ next]

theorem step?_answer_iff :
    state.step? report (.answer number) = some next ↔
      ∃ call,
        state.calls[number]? = some call ∧
          (call.answer = none ∧ call.sent = call.width ∧
            call.shares = 0) ∧
          next = {
            state with
            calls := state.calls.set number
              { call with answer := call.joined } } := by
  simp [step?, Option.bind_eq_some_iff, @eq_comm _ next]

end Steps

/-! ## States that a schedule leads to -/

/-- The three books of a dispatcher agree. -/
structure Sound
    (report : Nat → Nat → Report)
    (state : Dispatcher) :
    Prop where
  staffed : Staffed state.workers state.jobs
  placed : Placed state.jobs state.calls
  kept : ∀ number call, state.calls[number]? = some call →
    Kept (report number) number state.jobs call

section Invariant

variable
  {report : Nat → Nat → Report}
  {state next : Dispatcher}

/-- Of all fan-outs only one changed. -/
theorem forall_kept_set
    {changed : Call}
    (there : calls[number]? = some call)
    (others : ∀ other found, other ≠ number → calls[other]? = some found →
      Kept (report other) other jobs found)
    (this : Kept (report number) number jobs changed)
    (other : Nat)
    (found : Call)
    (present : (calls.set number changed)[other]? = some found) :
    Kept (report other) other jobs found := by
  rw [getElem?_set_found there] at present
  split at present
  · rename_i same
    obtain rfl := Option.some.inj present
    exact same ▸ this
  · rename_i differs
    exact others other found differs present

/-- Workers without calls are sound. -/
theorem Sound.ofWorkers
    {size : Nat}
    {grants : Workers.Grants}
    (sized : Workers.ofSize size grants = .ok workers) :
    Sound report (ofWorkers workers) :=
  ⟨.ofSize sized,
    ⟨List.nodup_nil, fun _ _ => iff_of_false List.not_mem_nil nofun⟩,
    fun _ _ there => nomatch there⟩

theorem Sound.called
    (sound : Sound report state)
    (requests : List DeviceRequest) :
    Sound report
      { state with calls := state.calls ++ [.ofRequests requests] } := by
  refine ⟨sound.staffed, sound.placed.append requests, ?_⟩
  intro number call there
  rw [getElem?_appended] at there
  split at there
  · rename_i new
    obtain rfl := Option.some.inj there
    refine .ofRequests (fun job member same => ?_) requests
    rcases (sound.placed.sent job.call job.device).mp
      (List.mem_map_of_mem (f := Job.place) member) with ⟨call, found, -⟩
    rw [same, new, List.getElem?_eq_none (Nat.le_refl _)] at found
    exact nomatch found
  · exact sound.kept number call there

/-- Every event that can happen leads from a sound state to a sound one. -/
theorem Sound.step
    {event : Event}
    (sound : Sound report state)
    (stepped : state.step? report event = some next) :
    Sound report next := by
  cases event with
  | call requests =>
      obtain rfl := Option.some.inj stepped
      exact sound.called requests
  | send number =>
      rcases step?_send_iff.mp stepped with
        ⟨call, workers, there, more, submitted, rfl⟩
      refine ⟨sound.staffed.submit submitted rfl, sound.placed.send there, ?_⟩
      refine forall_kept_set there (fun other found differs present => ?_)
        ((sound.kept number call there).send more)
      exact (sound.kept other found present).other_sent differs.symm
  | take worker =>
      rcases step?_take_iff.mp stepped with
        ⟨workers, id, job, taken, hand, rfl⟩
      have found := (inHand?_iff.mp hand).2
      rcases sound.staffed.take taken hand with ⟨queued, staffed⟩
      refine ⟨staffed, sound.placed.mark found, fun number call there => ?_⟩
      refine (sound.kept number call there).other_marked sound.placed.alone
        found fun _ => ?_
      rw [queued]
      exact ⟨rfl, rfl, rfl⟩
  | work worker =>
      rcases step?_work_iff.mp stepped with
        ⟨id, job, call, point, moved, hand, there, works, rfl⟩
      have found := (inHand?_iff.mp hand).2
      have member := List.mem_of_getElem? found
      have sent := sound.placed.sent_of_mem member there
      have same : moved.sent = call.sent ∧ point.isHeld = true := by
        rcases next?_cases works with
          ⟨_, rfl, rfl⟩ | ⟨_, rfl, rfl⟩ | ⟨_, rfl, rfl⟩ <;>
          exact ⟨rfl, rfl⟩
      refine ⟨sound.staffed.work hand same.2,
        (sound.placed.mark found).set there same.1, ?_⟩
      refine forall_kept_set there (fun other found' differs present => ?_)
        ((sound.kept job.call call there).work sound.placed.alone found rfl
          sent works)
      exact (sound.kept other found' present).other_marked
        sound.placed.alone found fun here => absurd here differs.symm
  | rest worker =>
      rcases step?_rest_iff.mp stepped with
        ⟨id, job, workers, hand, released, ended, rfl⟩
      have found := (inHand?_iff.mp hand).2
      refine ⟨sound.staffed.rest hand ended, sound.placed.mark found,
        fun number call there => ?_⟩
      refine (sound.kept number call there).other_marked sound.placed.alone
        found fun _ => ?_
      rw [released]
      exact ⟨rfl, rfl, rfl⟩
  | answer number =>
      rcases step?_answer_iff.mp stepped with
        ⟨call, there, ⟨open', sent, shares⟩, rfl⟩
      refine ⟨sound.staffed, sound.placed.set there rfl, ?_⟩
      refine forall_kept_set there
        (fun other found _ present => sound.kept other found present) ?_
      exact (sound.kept number call there).answer
        (sound.placed.exists_job there) sent shares

/-- Every schedule leads from a sound state to a sound one. -/
theorem Sound.run
    {schedule : List Event}
    (sound : Sound report state)
    (ran : state.run? report schedule = some next) :
    Sound report next := by
  induction schedule generalizing state with
  | nil =>
      obtain rfl := Option.some.inj ran
      exact sound
  | cons event rest ih =>
      rcases Option.bind_eq_some_iff.mp ran with ⟨between, stepped, ran⟩
      exact ih (sound.step stepped) ran

end Invariant

end Strata.Dispatcher
