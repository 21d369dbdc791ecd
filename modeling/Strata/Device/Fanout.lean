import Strata.Device.Request

/-!
# Fan-out

A request to all devices is one request to each of them, and the reports are
gathered in one slot for each device.  Whatever the order in which they came
in, the answer is the same: the failure of the first device that failed, or
the first device that moved another number of bytes than device zero, or the
outcomes in the order of the devices.
-/

namespace Strata.Fanout

variable {κ : Type}

/-- The outcomes of the devices from a number on, or the first failure. -/
def collect
    (device : Nat) :
    List Report → Except Error (List Outcome)
  | [] => .ok []
  | none :: _ => .error (.workerLost device)
  | some (.error cause) :: _ => .error (.device device cause)
  | some (.ok outcome) :: rest =>
    (collect (device + 1) rest).map (outcome :: ·)

/-- Refuses the first device that moved another number of bytes than
expected. -/
def agree
    (expected device : Nat) :
    List Outcome → Except Error Unit
  | [] => .ok ()
  | outcome :: rest =>
    let found := outcome.transferred?.getD 0
    if found = expected then
      agree expected (device + 1) rest
    else
      .error (.divergence device expected found)

/-- The number of bytes that device zero moved. -/
def leading
    (outcomes : List Outcome) :
    Nat :=
  (outcomes.head?.bind (·.transferred?)).getD 0

/-- The answer to a fan-out. -/
def join
    (reports : List Report)
    (transfer : Bool) :
    Except Error (List Outcome) := do
  let outcomes ← collect 0 reports
  if transfer then
    agree (leading outcomes) 1 outcomes.tail
  return outcomes

/-- Runs requests in the given order of their devices, and gathers each report
in the slot of its device. -/
def gather
    (backend : Backend κ)
    (requests : List DeviceRequest) :
    (order : List Nat) → (slots : List Report) → κ → List Report × κ
  | [], slots, state => (slots, state)
  | device :: order, slots, state =>
    match requests[device]? with
    | none => gather backend requests order slots state
    | some request =>
      let (report, state) := backend.perform request state
      gather backend requests order (slots.set device report) state

/-- Runs one request on each device and waits for all of them. -/
def dispatch
    (backend : Backend κ)
    (requests : List DeviceRequest) :
    Action κ (List Outcome) :=
  Action.ofRun fun state =>
    let (reports, state) :=
      gather backend requests (List.range requests.length)
        (List.replicate requests.length none) state
    (join reports (requests.any (·.isTransfer)), state)

end Strata.Fanout
