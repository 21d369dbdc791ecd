import Strata.Error
import Strata.Word

/-!
# Workers

A fixed number of workers take jobs from one queue, the oldest job first.  A
job that breaks down is over like any other and stops no worker.  Closing the
queue lets the workers finish what is queued and then leave.  Whether there are
workers at all is for the system to say: it sets room aside for their handles
and starts them one after the other.

What the workers do and when is a list of events, and an event that cannot
happen has no next state.  So a statement about every schedule is a statement
about every list of events.
-/

namespace Strata

/-- The number of a job in the order of submission. -/
abbrev JobId := Nat

/-- What a worker is at. -/
inductive Worker where
  | idle
  | busy (job : JobId)
  | gone
  deriving DecidableEq, Repr, Inhabited

/-- The workers, their queue, and what has become of the jobs. -/
structure Workers where
  crew : List Worker
  /-- The jobs that no worker has taken, the oldest first. -/
  queue : List JobId := []
  /-- The number of jobs that were submitted. -/
  submitted : Nat := 0
  closed : Bool := false
  /-- The jobs that ran to their end, the latest first. -/
  completed : List JobId := []
  /-- The jobs that broke down, the latest first. -/
  broken : List JobId := []
  deriving DecidableEq, Repr, Inhabited

namespace Workers

/-- One step of a schedule; a number stands for a worker. -/
inductive Event where
  | submit
  | close
  | take (worker : Nat)
  | complete (worker : Nat)
  | breakDown (worker : Nat)
  | leave (worker : Nat)
  deriving DecidableEq, Repr, Inhabited

/-- The bytes that the handle of a worker takes up. -/
def handleLength : Nat :=
  24

/-- Room for the handles of workers.  Half as many bytes as there are words are
never set aside at once. -/
def roomForHandles
    (size : Nat) :
    Except Error Unit :=
  if size * handleLength < wordCount / 2 then
    .ok ()
  else
    .error (.panicked "capacity overflow")

/-- What the system grants to new workers. -/
structure Grants where
  /-- Sets room aside for the handles of so many workers. -/
  room : (size : Nat) → Except Error Unit := roomForHandles
  /-- Starts a worker. -/
  start : (worker : Nat) → Except Error Unit := fun _ => .ok ()
  deriving Inhabited

/-- Idle workers with an empty queue, if all of them are granted. -/
def ofSize
    (size : Nat)
    (grants : Grants := {}) :
    Except Error Workers :=
  if size = 0 then
    .error (.config "worker pool needs at least one thread")
  else do
    grants.room size
    (List.range size).forM grants.start
    return { crew := List.replicate size .idle }

/-- The number of workers. -/
def size
    (workers : Workers) :
    Nat :=
  workers.crew.length

/-- The state after an event, if the event can happen. -/
def step?
    (workers : Workers) :
    Event → Option Workers
  | .submit =>
    if workers.closed then
      none
    else
      some
        { workers with
          queue := workers.queue ++ [workers.submitted]
          submitted := workers.submitted + 1 }
  | .close => some { workers with closed := true }
  | .take worker =>
    match workers.crew[worker]?, workers.queue with
    | some .idle, job :: queue =>
      some
        { workers with
          crew := workers.crew.set worker (.busy job)
          queue }
    | _, _ => none
  | .complete worker =>
    match workers.crew[worker]? with
    | some (.busy job) =>
      some
        { workers with
          crew := workers.crew.set worker .idle
          completed := job :: workers.completed }
    | _ => none
  | .breakDown worker =>
    match workers.crew[worker]? with
    | some (.busy job) =>
      some
        { workers with
          crew := workers.crew.set worker .idle
          broken := job :: workers.broken }
    | _ => none
  | .leave worker =>
    match workers.crew[worker]?, workers.queue, workers.closed with
    | some .idle, [], true =>
      some { workers with crew := workers.crew.set worker .gone }
    | _, _, _ => none

/-- The state after a schedule, if each of its events can happen. -/
def run?
    (workers : Workers) :
    List Event → Option Workers
  | [] => some workers
  | event :: rest => (workers.step? event).bind fun next => next.run? rest

/-- Whether the queue is closed and nobody is left. -/
def isOver
    (workers : Workers) :
    Bool :=
  workers.closed && workers.crew.all (· == .gone)

/-- The schedule in which the first worker does all jobs one by one. -/
def oneByOne
    (size jobs : Nat)
    (breaks : JobId → Bool) :
    List Event :=
  List.replicate jobs .submit ++ [.close] ++
    (List.range jobs).flatMap (fun job =>
      [.take 0, if breaks job then .breakDown 0 else .complete 0]) ++
    (List.range size).map .leave

/-- Submits jobs, closes the queue and waits until nobody is left; gives the
jobs that ran to their end. -/
def process
    (workers : Workers)
    (jobs : Nat)
    (breaks : JobId → Bool) :
    List JobId :=
  ((workers.run? (oneByOne workers.size jobs breaks)).map
    (·.completed)).getD []

end Workers

end Strata
