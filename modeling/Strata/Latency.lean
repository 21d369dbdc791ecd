import Strata.Error

/-!
# Latency samples

A stage times its transfers.  The samples of one operation form a series, in
whole microseconds, and a recorder holds the series of one stage in the order
of their names.  The recorders of a pipeline are written out together, one
text per series with the newest sample first.
-/

namespace Strata

/-- The series of one stage, each with its newest sample first. -/
structure Recorder where
  layer : String
  series : List (String × List Nat) := []
  deriving DecidableEq, Repr, Inhabited

namespace Recorder

/-- Adds a sample to its series in a list that is ordered by name. -/
def addSample
    (operation : String)
    (sample : Nat) :
    List (String × List Nat) → List (String × List Nat)
  | [] => [(operation, [sample])]
  | (name, samples) :: rest =>
    if operation = name then
      (name, sample :: samples) :: rest
    else if operation < name then
      (operation, [sample]) :: (name, samples) :: rest
    else
      (name, samples) :: addSample operation sample rest

/-- Records the nanoseconds that an operation took. -/
def record
    (recorder : Recorder)
    (operation : String)
    (nanoseconds : Nat) :
    Recorder :=
  { recorder with
    series := addSample operation (nanoseconds / 1000) recorder.series }

/-- The samples of an operation, the oldest first. -/
def samples
    (recorder : Recorder)
    (operation : String) :
    List Nat :=
  ((recorder.series.lookup operation).getD []).reverse

/-- The text that a series is written out as. -/
def seriesText
    (samples : List Nat) :
    String :=
  String.join (samples.map fun sample => toString sample ++ "\n")

/-- The names and texts of the files that a recorder is written out as. -/
def files
    (recorder : Recorder) :
    List (String × String) :=
  recorder.series.map fun (operation, samples) =>
    (recorder.layer ++ "_" ++ operation ++ ".txt", seriesText samples)

end Recorder

/-- The recorders of one pipeline, in the order in which they were made. -/
abbrev Registry := List Recorder

namespace Registry

/-- Records into the recorder with the given number. -/
def record
    (registry : Registry)
    (index : Nat)
    (operation : String)
    (nanoseconds : Nat) :
    Registry :=
  registry.modify index (·.record operation nanoseconds)

/-- Adds a recorder for a stage and gives its number. -/
def add
    (registry : Registry)
    (layer : String) :
    Nat × Registry :=
  (registry.length, registry ++ [{ layer := layer }])

/-- All files in the order in which they are written. -/
def files
    (registry : Registry) :
    List (String × String) :=
  registry.flatMap Recorder.files

end Registry

/-- A clock over a state, and the place where samples go. -/
structure Meter
    (σ : Type) where
  /-- The time in nanoseconds. -/
  now : σ → Nat × σ
  record : (operation : String) → (nanoseconds : Nat) → σ → σ

namespace Meter

variable {σ α : Type}

/-- The meter that neither reads a clock nor keeps a sample. -/
def silent :
    Meter σ where
  now state := (0, state)
  record _ _ state := state

/-- Runs an action and records how long it took, whether it failed or not. -/
def timed
    (meter : Meter σ)
    (operation : String)
    (body : Action σ α) :
    Action σ α :=
  Action.ofRun fun state =>
    let (started, state) := meter.now state
    let (answer, state) := body.execute state
    let (ended, state) := meter.now state
    (answer, meter.record operation (ended - started) state)

end Meter

end Strata
