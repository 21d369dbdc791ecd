import Strata.Proofs.DeviceFiles

/-!
# Joined reports

What the reports of a fan-out come to, said without the loops that find it:
the fault of the first device that failed or was lost; otherwise, when bytes
were moved, the first device that disagrees with device zero; otherwise the
outcomes in the order of the devices.

The order in which the devices are asked has no part in it.  A fan-out that
asks them in any order gathers the same reports, provided each request
reports the same in every order.
-/

namespace Strata.Fanout

/-- The number of bytes an outcome stands for. -/
def moved
    (outcome : Outcome) :
    Nat :=
  outcome.transferred?.getD 0

/-- What the reports of the devices come to. -/
inductive Joined
    (reports : List Report)
    (transfer : Bool) :
    Except Error (List Outcome) → Prop where
  /-- The first device without an outcome broke down. -/
  | lost
      (before : List Outcome)
      (after : List Report)
      (split : reports = before.map reported ++ none :: after) :
      Joined reports transfer (.error (.workerLost before.length))
  /-- The first device without an outcome failed. -/
  | failed
      (before : List Outcome)
      (cause : HostError)
      (after : List Report)
      (split : reports =
        before.map reported ++ some (.error cause) :: after) :
      Joined reports transfer (.error (.device before.length cause))
  /-- All devices have outcomes, and the first that disagrees is found. -/
  | diverged
      (first : Outcome)
      (agreeing : List Outcome)
      (other : Outcome)
      (after : List Outcome)
      (all : reports =
        (first :: agreeing ++ other :: after).map reported)
      (transfers : transfer = true)
      (agree : ∀ outcome ∈ agreeing, moved outcome = moved first)
      (differs : moved other ≠ moved first) :
      Joined reports transfer
        (.error
          (.divergence (agreeing.length + 1) (moved first) (moved other)))
  /-- All devices have outcomes, and none disagrees. -/
  | agreed
      (outcomes : List Outcome)
      (all : reports = outcomes.map reported)
      (agree : transfer = true →
        ∀ outcome ∈ outcomes, moved outcome = leading outcomes) :
      Joined reports transfer (.ok outcomes)

/-! ## The loops of the join -/

/-- Devices with outcomes are passed over. -/
theorem collect_append
    (device : Nat)
    (before : List Outcome)
    (rest : List Report) :
    collect device (before.map reported ++ rest) =
      (collect (device + before.length) rest).map (before ++ ·) := by
  induction before generalizing device with
  | nil =>
      cases found : collect device rest <;>
        simp [found, Except.map]
  | cons outcome before ih =>
      have next := ih (device + 1)
      rw [Nat.add_right_comm, Nat.add_assoc] at next
      simp only [List.map_cons, List.cons_append, reported, collect,
        List.length_cons]
      rw [next]
      cases collect (device + (before.length + 1)) rest <;>
        rfl

/-- Either all devices have outcomes, or one is the first without. -/
theorem exists_outcomes_or_fault
    (reports : List Report) :
    (∃ outcomes : List Outcome, reports = outcomes.map reported) ∨
      ∃ (before : List Outcome) (fault : Report) (after : List Report),
        reports = before.map reported ++ fault :: after ∧
          ∀ outcome, fault ≠ reported outcome := by
  induction reports with
  | nil => exact .inl ⟨[], rfl⟩
  | cons report rest ih =>
      by_cases good : ∃ outcome, report = reported outcome
      · rcases good with ⟨outcome, rfl⟩
        rcases ih with ⟨outcomes, rfl⟩ | ⟨before, fault, after, rfl, bad⟩
        · exact .inl ⟨outcome :: outcomes, rfl⟩
        · exact .inr ⟨outcome :: before, fault, after, rfl, bad⟩
      · exact .inr
          ⟨[], report, rest, rfl, fun outcome same => good ⟨outcome, same⟩⟩

theorem leading_cons
    (first : Outcome)
    (rest : List Outcome) :
    leading (first :: rest) = moved first :=
  rfl

theorem agree_cons
    (expected device : Nat)
    (outcome : Outcome)
    (rest : List Outcome) :
    agree expected device (outcome :: rest) =
      if moved outcome = expected then
        agree expected (device + 1) rest
      else
        .error (.divergence device expected (moved outcome)) :=
  rfl

/-- Devices that moved as much as expected are passed over. -/
theorem agree_append
    {expected : Nat}
    (device : Nat)
    {agreeing : List Outcome}
    (rest : List Outcome)
    (same : ∀ outcome ∈ agreeing, moved outcome = expected) :
    agree expected device (agreeing ++ rest) =
      agree expected (device + agreeing.length) rest := by
  induction agreeing generalizing device with
  | nil => rfl
  | cons outcome agreeing ih =>
      have next := ih (device + 1) fun other member =>
        same other (List.mem_cons_of_mem _ member)
      rw [Nat.add_right_comm, Nat.add_assoc] at next
      rw [List.cons_append, agree_cons,
        if_pos (same outcome List.mem_cons_self), next,
        List.length_cons]

/-- Either all devices moved as much as expected, or one is the first that
did not. -/
theorem exists_agreeing_or_other
    (expected : Nat)
    (outcomes : List Outcome) :
    (∀ outcome ∈ outcomes, moved outcome = expected) ∨
      ∃ agreeing other after,
        outcomes = agreeing ++ other :: after ∧
          (∀ outcome ∈ agreeing, moved outcome = expected) ∧
          moved other ≠ expected := by
  induction outcomes with
  | nil => exact .inl fun _ member => absurd member List.not_mem_nil
  | cons outcome rest ih =>
      by_cases same : moved outcome = expected
      · rcases ih with all | ⟨agreeing, other, after, rfl, agree, differs⟩
        · exact .inl (List.forall_mem_cons.mpr ⟨same, all⟩)
        · exact .inr ⟨outcome :: agreeing, other, after, rfl,
            List.forall_mem_cons.mpr ⟨same, agree⟩, differs⟩
      · exact .inr ⟨[], outcome, rest, rfl,
          fun _ member => absurd member List.not_mem_nil, same⟩

theorem join_of_outcomes
    (outcomes : List Outcome)
    (transfer : Bool) :
    join (outcomes.map reported) transfer =
      if transfer then
        (agree (leading outcomes) 1 outcomes.tail).map fun _ => outcomes
      else
        .ok outcomes := by
  rw [join, collect_reported]
  cases transfer with
  | false => rfl
  | true =>
      cases agreed : agree (leading outcomes) 1 outcomes.tail <;>
        simp [agreed, bind, Except.bind, pure, Except.pure, Except.map]

/-! ## The join -/

/-- When all devices have outcomes, only a divergence is left to find. -/
theorem joined_of_outcomes
    (outcomes : List Outcome)
    (transfer : Bool) :
    Joined (outcomes.map reported) transfer
      (join (outcomes.map reported) transfer) := by
  rw [join_of_outcomes]
  cases transfer with
  | false => exact .agreed outcomes rfl nofun
  | true =>
      cases outcomes with
      | nil =>
          exact .agreed [] rfl fun _ _ member =>
            absurd member List.not_mem_nil
      | cons first rest =>
          rw [if_pos rfl, leading_cons, List.tail_cons]
          rcases exists_agreeing_or_other (moved first) rest with
            all | ⟨agreeing, other, after, rfl, agree, differs⟩
          · rw [agree_of_transferred 1 all]
            exact .agreed (first :: rest) rfl fun _ =>
              List.forall_mem_cons.mpr ⟨rfl, all⟩
          · rw [agree_append 1 _ agree, agree_cons, if_neg differs,
              Nat.add_comm 1]
            exact .diverged first agreeing other after rfl rfl agree differs

/-- What the loops find is what the reports come to. -/
theorem joined_join
    (reports : List Report)
    (transfer : Bool) :
    Joined reports transfer (join reports transfer) := by
  rcases exists_outcomes_or_fault reports with
    ⟨outcomes, rfl⟩ | ⟨before, fault, after, rfl, bad⟩
  · exact joined_of_outcomes outcomes transfer
  · rw [join, collect_append, Nat.zero_add]
    cases fault with
    | none => exact .lost before after rfl
    | some result =>
        cases result with
        | error cause => exact .failed before cause after rfl
        | ok outcome => exact absurd rfl (bad outcome)

/-! ## The order of the requests -/

section Order

variable
  {κ : Type}
  {backend : Backend κ}
  {requests : List DeviceRequest}
  {report : Nat → Report}

/-- Each request comes to the report of its device, whatever was requested
before it. -/
def Reports
    (backend : Backend κ)
    (requests : List DeviceRequest)
    (report : Nat → Report) :
    Prop :=
  ∀ device request state, requests[device]? = some request →
    (backend.perform request state).1 = report device

/-- A slot holds the report of its device as soon as the device was asked. -/
theorem gather_slot
    (reports : Reports backend requests report)
    (order : List Nat)
    {slots : List Report}
    (count : slots.length = requests.length)
    (state : κ)
    (device : Nat) :
    (gather backend requests order slots state).1[device]? =
      if device ∈ order ∧ device < requests.length then
        some (report device)
      else
        slots[device]? := by
  induction order generalizing slots state with
  | nil => simp [gather]
  | cons next order ih =>
      cases asked : requests[next]? with
      | none =>
          have beyond := List.getElem?_eq_none_iff.mp asked
          rw [gather, asked]
          simp only [ih count, List.mem_cons]
          by_cases same : device = next
          · simp [same, Nat.not_lt.mpr beyond]
          · simp [same]
      | some request =>
          have told := reports next request state asked
          rw [gather, asked]
          simp only [told, ih (List.length_set.trans count),
            List.mem_cons]
          by_cases same : device = next
          · have there := (List.getElem?_eq_some_iff.mp asked).1
            simp [same, there, count]
          · simp [same, List.getElem?_set_ne (Ne.symm same)]

/-- Any order that asks every device gathers the reports of the devices. -/
theorem gather_of_order
    (reports : Reports backend requests report)
    {order : List Nat}
    (every : ∀ device < requests.length, device ∈ order)
    (state : κ) :
    (gather backend requests order
        (List.replicate requests.length none) state).1 =
      (List.range requests.length).map report := by
  apply List.ext_getElem?
  intro device
  rw [gather_slot reports order List.length_replicate]
  by_cases there : device < requests.length
  · simp [there, every device there]
  · simp [there]

/-- A fan-out joins the reports of its devices. -/
theorem dispatch_joins
    (reports : Reports backend requests report)
    (state : κ) :
    ((dispatch backend requests).execute state).1 =
      join ((List.range requests.length).map report)
        (requests.any (·.isTransfer)) := by
  have gathered := gather_of_order reports
    (fun device there => List.mem_range.mpr there) state
  rw [← gathered]
  rfl

end Order

end Strata.Fanout
