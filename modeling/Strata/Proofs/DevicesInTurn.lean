import Strata.Proofs.Joins

/-!
# Devices in turn

A fan-out asks the devices one after the other, each in the state that the one
before it left, and all of them whatever the ones before answered.  It succeeds
only if each of them does what it is asked to, and if no bytes are moved, that
is all it takes.
-/

namespace Strata

variable {κ : Type}

namespace Fanout

variable
  {backend : Backend κ}
  {requests : List DeviceRequest}
  {outcomes : List Outcome}
  {state final : κ}

/-- What the devices report when they are asked one after the other, and the
state that the last of them leaves. -/
def inTurn
    (backend : Backend κ) :
    List DeviceRequest → κ → List Report × κ
  | [], state => ([], state)
  | request :: rest, state =>
    let (report, reached) := backend.perform request state
    let (reports, final) := inTurn backend rest reached
    (report :: reports, final)

theorem gather_eq_inTurn
    (before : List DeviceRequest)
    (requests : List DeviceRequest)
    (reports : List Report)
    (count : reports.length = before.length)
    (state : κ) :
    gather backend (before ++ requests)
        (List.range' before.length requests.length)
        (reports ++ List.replicate requests.length none) state =
      (reports ++ (inTurn backend requests state).1,
        (inTurn backend requests state).2) := by
  induction requests generalizing before reports state with
  | nil => simp [gather, inTurn]
  | cons request rest ih =>
      have next := ih (before ++ [request])
        (reports ++ [(backend.perform request state).1])
        (by simp [count]) (backend.perform request state).2
      rw [List.append_assoc, List.append_assoc, List.append_assoc,
        List.length_append] at next
      have slot : (reports ++ List.replicate (rest.length + 1) none).set
          before.length (backend.perform request state).1 =
            reports ++ ([(backend.perform request state).1] ++
              List.replicate rest.length none) := by
        rw [← count, List.set_append_right _ _ (Nat.le_refl _),
          Nat.sub_self, List.replicate_succ, List.set_cons_zero]
        rfl
      rw [List.length_cons, List.range'_succ, gather,
        List.getElem?_append_right (Nat.le_refl _), Nat.sub_self]
      simp only [List.getElem?_cons_zero, slot]
      exact next

/-- A fan-out joins what the devices report in turn. -/
theorem execute_dispatch
    (requests : List DeviceRequest)
    (state : κ) :
    (dispatch backend requests).execute state =
      (join (inTurn backend requests state).1 (requests.any (·.isTransfer)),
        (inTurn backend requests state).2) := by
  have gathered := @gather_eq_inTurn κ backend [] requests [] rfl state
  simp only [List.nil_append, List.length_nil, ← List.range_eq_range']
    at gathered
  rw [dispatch, Action.execute_ofRun, gathered]

/-- What holds of a state is kept by a fan-out if each device keeps it. -/
theorem dispatch_preserves
    {holds : κ → Prop}
    (kept : ∀ request ∈ requests, ∀ state, holds state →
      holds (backend.perform request state).2) :
    (dispatch backend requests).Preserves holds := by
  intro state held
  rw [execute_dispatch]
  dsimp only
  induction requests generalizing state with
  | nil => exact held
  | cons request rest ih =>
      exact ih (fun other member => kept other (List.mem_cons_of_mem _ member))
        _ (kept request List.mem_cons_self state held)

/-- The devices do what they are asked to, one after the other. -/
inductive Served
    (backend : Backend κ) :
    List DeviceRequest → List Outcome → κ → κ → Prop
  | nothing
      (state : κ) :
      Served backend [] [] state state
  | next
      {request : DeviceRequest}
      {requests : List DeviceRequest}
      {outcome : Outcome}
      {outcomes : List Outcome}
      {state reached final : κ}
      (done : backend.perform request state = (reported outcome, reached))
      (rest : Served backend requests outcomes reached final) :
      Served backend (request :: requests) (outcome :: outcomes) state final

theorem served_iff :
    Served backend requests outcomes state final ↔
      inTurn backend requests state = (outcomes.map reported, final) := by
  induction requests generalizing outcomes state with
  | nil =>
      constructor
      · rintro ⟨⟩
        rfl
      · intro same
        cases outcomes with
        | nil =>
            cases same
            exact .nothing _
        | cons => cases same
  | cons request rest ih =>
      constructor
      · rintro (_ | ⟨done, later⟩)
        rw [inTurn, done]
        dsimp only
        rw [ih.mp later]
        rfl
      · intro same
        cases outcomes with
        | nil => cases same
        | cons outcome outcomes =>
            rcases done : backend.perform request state with ⟨report, reached⟩
            rw [inTurn, done] at same
            dsimp only at same
            rcases Prod.mk.inj same with ⟨reports, rfl⟩
            obtain ⟨rfl, others⟩ := List.cons.inj reports
            exact .next done (ih.mpr (Prod.ext others rfl))

/-- Where bytes are not moved, a fan-out succeeds exactly if all devices do
what they are asked to. -/
theorem dispatch_eq_ok_iff
    (still : requests.any (·.isTransfer) = false) :
    (dispatch backend requests).execute state = (.ok outcomes, final) ↔
      Served backend requests outcomes state final := by
  rw [execute_dispatch, still, served_iff]
  constructor
  · intro ran
    rcases Prod.mk.inj ran with ⟨joined, ended⟩
    have known := joined_join (inTurn backend requests state).1 false
    rw [joined] at known
    cases known with
    | agreed _ all _ => exact Prod.ext all ended
  · intro same
    rw [same, join_of_outcomes]
    rfl

end Fanout

namespace Devices

variable
  {devices : Devices κ}
  {fleet after : Fleet κ}
  {requests : List DeviceRequest}
  {outcomes : List Outcome}
  {final : κ}
  (still : requests.any (·.isTransfer) = false)

include still

theorem fanOut_eq_ok_iff :
    (devices.fanOut requests).execute fleet = (.ok outcomes, after) ↔
      after.coder = fleet.coder ∧
        Fanout.Served devices.backend requests outcomes fleet.host
          after.host := by
  rw [← Fanout.dispatch_eq_ok_iff still, fanOut, Fleet.onHost,
    Action.execute_ofRun]
  constructor
  · intro ran
    rcases Prod.mk.inj ran with ⟨answered, rfl⟩
    exact ⟨rfl, Prod.ext answered rfl⟩
  · rintro ⟨coder, ran⟩
    rcases fleet with ⟨held, host⟩
    rcases after with ⟨kept, reached⟩
    obtain rfl : kept = held := coder
    dsimp only at ran ⊢
    rw [ran]

theorem fanOut_answers
    (served : Fanout.Served devices.backend requests outcomes fleet.host
      final) :
    (devices.fanOut requests).Answers fleet outcomes
      fun left => left = ⟨fleet.coder, final⟩ :=
  ⟨⟨fleet.coder, final⟩, (fanOut_eq_ok_iff still).mpr ⟨rfl, served⟩, rfl⟩

theorem fanOutDone_answers
    (served : Fanout.Served devices.backend requests outcomes fleet.host
      final) :
    (devices.fanOutDone requests).Answers fleet ()
      fun left => left = ⟨fleet.coder, final⟩ :=
  (fanOut_answers still served).bind fun _ held => .pure held

end Devices

end Strata
