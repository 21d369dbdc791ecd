import Strata.Device.Fanout
import Strata.Workers

/-!
# Dispatchers

Any number of fan-outs share the workers.  The caller of a fan-out puts one
job for each device into the queue, in the order of the devices, and hands
each of them a share in its barrier.  A job performs its request, stores the
report in the slot of its device and gives its share up; a job that breaks
down stores nothing, but its share is given up as well.  Once every job is
sent and no share is left, the caller joins what the slots hold.

Who does the next thing is open, so the state has a step for each event that
can happen, and a schedule is a list of events.  The queue, the slots and the
barrier are changed by one caller or worker at a time, and an event changes
one of them.  Only sending a job changes two, the barrier before the queue;
but it is the sender alone who waits for the barrier.

The workers and their queue are those of `Workers`.  Callers hold on to the
workers, hence nobody closes the queue while there are calls.
-/

namespace Strata

/-- How far a job has come. -/
inductive Point where
  /-- No worker has taken the job. -/
  | queued
  /-- A worker is about to perform the request. -/
  | started
  /-- The request was performed. -/
  | performed
  /-- The report is in its slot. -/
  | stored
  /-- The share in the barrier is given up, but the worker is not free yet. -/
  | released
  | done
  deriving DecidableEq, Repr, Inhabited

/-- The job of one device in one fan-out. -/
structure Job where
  /-- The number of the fan-out in the order of the calls. -/
  call : Nat
  device : Nat
  point : Point := .queued
  deriving DecidableEq, Repr, Inhabited

/-- A fan-out from its call to its answer. -/
structure Call where
  requests : List DeviceRequest
  /-- What the jobs have stored, one slot for each device. -/
  slots : List Report
  /-- The number of jobs that were put into the queue. -/
  sent : Nat := 0
  /-- The number of shares in the barrier. -/
  shares : Nat := 0
  /-- The devices whose requests were performed, the latest first. -/
  performed : List Nat := []
  answer : Option (Except Error (List Outcome)) := none
  deriving Repr, Inhabited

namespace Call

/-- A fan-out that has just been called. -/
def ofRequests
    (requests : List DeviceRequest) :
    Call :=
  { requests, slots := List.replicate requests.length none }

/-- The number of devices. -/
def width
    (call : Call) :
    Nat :=
  call.requests.length

/-- What the caller makes of its slots. -/
def joined
    (call : Call) :
    Except Error (List Outcome) :=
  Fanout.join call.slots (call.requests.any (·.isTransfer))

/-- The fan-out after its next job was put into the queue. -/
def send
    (call : Call) :
    Call :=
  { call with
    sent := call.sent + 1
    shares := call.shares + 1 }

/-- The fan-out after the request to a device was performed. -/
def perform
    (call : Call)
    (device : Nat) :
    Call :=
  { call with performed := device :: call.performed }

/-- The fan-out after the report of a device was stored. -/
def store
    (call : Call)
    (device : Nat)
    (report : Report) :
    Call :=
  { call with slots := call.slots.set device report }

/-- The fan-out after a share was given up. -/
def release
    (call : Call) :
    Call :=
  { call with shares := call.shares - 1 }

/-- The next thing a job does that a worker has started, when the request
comes to the given report. -/
def next?
    (call : Call)
    (job : Job)
    (report : Report) :
    Option (Point × Call) :=
  match job.point, report with
  | .started, _ => some (.performed, call.perform job.device)
  | .performed, some _ => some (.stored, call.store job.device report)
  | .performed, none => some (.released, call.release)
  | .stored, _ => some (.released, call.release)
  | _, _ => none

end Call

/-- The workers, the jobs in the order of submission, and the fan-outs. -/
structure Dispatcher where
  workers : Workers
  jobs : List Job := []
  calls : List Call := []
  deriving Repr, Inhabited

namespace Dispatcher

/-- What can happen next; a number stands for a call or for a worker. -/
inductive Event where
  /-- Somebody calls for a fan-out. -/
  | call (requests : List DeviceRequest)
  /-- A caller puts its next job into the queue. -/
  | send (call : Nat)
  /-- A worker takes the oldest job of the queue. -/
  | take (worker : Nat)
  /-- A worker does the next thing of its job. -/
  | work (worker : Nat)
  /-- A worker leaves its job behind. -/
  | rest (worker : Nat)
  /-- A caller finds its barrier without shares and answers. -/
  | answer (call : Nat)
  deriving Repr, Inhabited

/-- Workers that nobody has called yet. -/
def ofWorkers
    (workers : Workers) :
    Dispatcher :=
  { workers }

/-- The job in the hands of a worker. -/
def inHand?
    (workers : Workers)
    (jobs : List Job)
    (worker : Nat) :
    Option (JobId × Job) :=
  match workers.crew[worker]? with
  | some (.busy id) => jobs[id]?.map (id, ·)
  | _ => none

/-- The jobs after one of them has come to a point. -/
def mark
    (jobs : List Job)
    (id : JobId)
    (job : Job)
    (point : Point) :
    List Job :=
  jobs.set id { job with point }

/-- How a worker ends a job with the given report: a missing report means
that the job broke down. -/
def ending
    (worker : Nat) :
    Report → Workers.Event
  | some _ => .complete worker
  | none => .breakDown worker

/--
The state after an event, if the event can happen.  What the request to each
device of each call comes to is given.
-/
def step?
    (report : (call device : Nat) → Report)
    (state : Dispatcher) :
    Event → Option Dispatcher
  | .call requests =>
    some { state with calls := state.calls ++ [.ofRequests requests] }
  | .send number => do
    let call ← state.calls[number]?
    guard (call.sent < call.width)
    let workers ← state.workers.step? .submit
    return {
      workers
      jobs := state.jobs ++ [{ call := number, device := call.sent }]
      calls := state.calls.set number call.send }
  | .take worker => do
    let workers ← state.workers.step? (.take worker)
    let (id, job) ← inHand? workers state.jobs worker
    return { state with workers, jobs := mark state.jobs id job .started }
  | .work worker => do
    let (id, job) ← inHand? state.workers state.jobs worker
    let call ← state.calls[job.call]?
    let (point, next) ← call.next? job (report job.call job.device)
    return {
      state with
      jobs := mark state.jobs id job point
      calls := state.calls.set job.call next }
  | .rest worker => do
    let (id, job) ← inHand? state.workers state.jobs worker
    guard (job.point = .released)
    let workers ←
      state.workers.step? (ending worker (report job.call job.device))
    return { state with workers, jobs := mark state.jobs id job .done }
  | .answer number => do
    let call ← state.calls[number]?
    guard (call.answer.isNone ∧ call.sent = call.width ∧ call.shares = 0)
    return {
      state with
      calls := state.calls.set number { call with answer := call.joined } }

/-- The state after a schedule, if each of its events can happen. -/
def run?
    (report : (call device : Nat) → Report)
    (state : Dispatcher) :
    List Event → Option Dispatcher
  | [] => some state
  | event :: rest =>
    (state.step? report event).bind fun next => next.run? report rest

end Dispatcher

end Strata
