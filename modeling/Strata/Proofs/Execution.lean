import Strata.Layer
import Strata.Session

/-!
# Reasoning about actions

`Answers` says what an action does from a state, and that it does: the action
succeeds, with a known answer, and the state it leaves satisfies a predicate.
It goes through the sequencing of actions, so that what is known about the
requests of a layer gives what is known about a stage on top of it.  `Preserves`
says what an action leaves as it is, whatever it answers.
-/

namespace Strata

namespace Action

variable {σ α β : Type}

/-! ## Execution -/

@[simp]
theorem execute_pure
    (value : α)
    (state : σ) :
    (pure value : Action σ α).execute state = (.ok value, state) :=
  rfl

@[simp]
theorem execute_throw
    (error : Error)
    (state : σ) :
    (throw error : Action σ α).execute state = (.error error, state) :=
  rfl

@[simp]
theorem execute_ofExcept
    (value : Except Error α)
    (state : σ) :
    (ofExcept value).execute state = (value, state) :=
  rfl

theorem execute_bind
    (action : Action σ α)
    (next : α → Action σ β)
    (state : σ) :
    (action >>= next).execute state =
      match action.execute state with
      | (.ok value, reached) => (next value).execute reached
      | (.error error, reached) => (.error error, reached) := by
  simp only [execute, bind, ExceptT.bind, ExceptT.run, ExceptT.mk,
    StateT.run, StateT.bind, ExceptT.bindCont]
  cases action state with
  | mk answer reached =>
      cases answer <;> rfl

/-- A sequence succeeds when both of its actions do. -/
theorem execute_bind_eq_ok
    {action : Action σ α}
    {next : α → Action σ β}
    {state final : σ}
    {answer : β}
    (ran : (action >>= next).execute state = (.ok answer, final)) :
    ∃ value reached,
      action.execute state = (.ok value, reached) ∧
        (next value).execute reached = (.ok answer, final) := by
  rw [execute_bind] at ran
  split at ran
  · rename_i value reached first
    exact ⟨value, reached, first, ran⟩
  · simp at ran

/-- An action that only answers leaves the state as it is. -/
theorem execute_pure_eq_ok
    {value answer : α}
    {state final : σ}
    (ran : (pure value : Action σ α).execute state = (.ok answer, final)) :
    value = answer ∧ state = final :=
  ⟨Except.ok.inj (congrArg Prod.fst ran), congrArg Prod.snd ran⟩

/-- What was closed decides the answer only if the body succeeded. -/
theorem execute_finallyDo
    (body : Action σ α)
    (closing : Action σ Unit)
    (state : σ) :
    (finallyDo body closing).execute state =
      match body.execute state with
      | (.ok value, worked) =>
        ((closing.execute worked).1.map fun _ => value,
          (closing.execute worked).2)
      | (.error error, worked) =>
        (.error error, (closing.execute worked).2) := by
  simp only [finallyDo, execute_bind, execute_attempt, execute_ofExcept]
  rcases body.execute state with ⟨_ | value, worked⟩
  · rfl
  · simp only
    rcases closing.execute worked with ⟨_ | _, final⟩ <;> rfl

/-- A body with something to close succeeds when both do. -/
theorem execute_finallyDo_eq_ok
    {body : Action σ α}
    {closing : Action σ Unit}
    {state final : σ}
    {answer : α}
    (ran : (finallyDo body closing).execute state = (.ok answer, final)) :
    ∃ reached,
      body.execute state = (.ok answer, reached) ∧
        closing.execute reached = (.ok (), final) := by
  rw [execute_finallyDo] at ran
  rcases worked : body.execute state with ⟨_ | value, reached⟩
  · simp [worked] at ran
  · refine ⟨reached, ?_⟩
    rcases closed : closing.execute reached with ⟨_ | _, last⟩
    · simp [worked, closed, Except.map] at ran
    · simp only [worked, closed, Except.map, Prod.mk.injEq,
        Except.ok.injEq] at ran
      rcases ran with ⟨rfl, rfl⟩
      exact ⟨rfl, rfl⟩

/-! ## Actions that succeed -/

/-- From `state` the action gives `answer`, and what it leaves satisfies
`after`. -/
def Answers
    (action : Action σ α)
    (state : σ)
    (answer : α)
    (after : σ → Prop) :
    Prop :=
  ∃ reached, action.execute state = (.ok answer, reached) ∧ after reached

namespace Answers

variable
  {state : σ}
  {after : σ → Prop}

theorem pure
    {value : α}
    (held : after state) :
    (Pure.pure value : Action σ α).Answers state value after :=
  ⟨state, rfl, held⟩

theorem ofExcept
    {value : α}
    (held : after state) :
    (Action.ofExcept (.ok value)).Answers state value after :=
  ⟨state, rfl, held⟩

theorem bind
    {action : Action σ α}
    {next : α → Action σ β}
    {value : α}
    {answer : β}
    {middle : σ → Prop}
    (first : action.Answers state value middle)
    (second : ∀ reached, middle reached →
      (next value).Answers reached answer after) :
    (action >>= next).Answers state answer after := by
  rcases first with ⟨reached, ran, held⟩
  rcases second reached held with ⟨final, continued, holds⟩
  refine ⟨final, ?_, holds⟩
  rw [execute_bind, ran]
  exact continued

theorem weaken
    {action : Action σ α}
    {answer : α}
    {stronger : σ → Prop}
    (answers : action.Answers state answer stronger)
    (implied : ∀ reached, stronger reached → after reached) :
    action.Answers state answer after := by
  rcases answers with ⟨reached, ran, held⟩
  exact ⟨reached, ran, implied reached held⟩

theorem answer_eq
    {action : Action σ α}
    {answer : α}
    (answers : action.Answers state answer after) :
    (action.execute state).1 = .ok answer := by
  rcases answers with ⟨reached, ran, held⟩
  rw [ran]

theorem left
    {action : Action σ α}
    {answer : α}
    (answers : action.Answers state answer after) :
    after (action.execute state).2 := by
  rcases answers with ⟨reached, ran, held⟩
  rwa [ran]

/-- An action that gives an answer gives no other one. -/
theorem eq_of_ok
    {action : Action σ α}
    {expected found : α}
    {reached : σ}
    (answers : action.Answers state expected after)
    (ran : action.execute state = (.ok found, reached)) :
    found = expected ∧ after reached := by
  rcases answers with ⟨known, first, held⟩
  rcases Prod.mk.inj (first.symm.trans ran) with ⟨same, rfl⟩
  exact ⟨(Except.ok.inj same).symm, held⟩

theorem finallyDo
    {body : Action σ α}
    {closing : Action σ Unit}
    {answer : α}
    {middle : σ → Prop}
    (ran : body.Answers state answer middle)
    (closed : ∀ reached, middle reached →
      closing.Answers reached () after) :
    (Action.finallyDo body closing).Answers state answer after := by
  rcases ran with ⟨reached, first, held⟩
  rcases closed reached held with ⟨final, second, holds⟩
  refine ⟨final, ?_, holds⟩
  simp only [execute_finallyDo, first, second, Except.map]

end Answers

/-! ## Actions that preserve what holds -/

/-- Whatever an action answers, what held of the state holds of the state that
it leaves. -/
def Preserves
    (holds : σ → Prop)
    (action : Action σ α) :
    Prop :=
  ∀ state, holds state → holds (action.execute state).2

namespace Preserves

variable {holds : σ → Prop}

theorem pure
    (value : α) :
    (Pure.pure value : Action σ α).Preserves holds :=
  fun _ held => held

theorem throw
    (error : Error) :
    (MonadExcept.throw error : Action σ α).Preserves holds :=
  fun _ held => held

theorem ofExcept
    (value : Except Error α) :
    (Action.ofExcept value : Action σ α).Preserves holds :=
  fun _ held => held

theorem bind
    {action : Action σ α}
    {next : α → Action σ β}
    (first : action.Preserves holds)
    (second : ∀ value, (next value).Preserves holds) :
    (action >>= next).Preserves holds := by
  intro state held
  have kept := first state held
  rw [execute_bind]
  split
  · rename_i value reached ran
    rw [ran] at kept
    exact second value reached kept
  · rename_i error reached ran
    rw [ran] at kept
    exact kept

theorem of_answers
    {action : Action σ α}
    (answers : ∀ state, holds state →
      ∃ answer, action.Answers state answer holds) :
    action.Preserves holds := by
  intro state held
  rcases answers state held with ⟨answer, answered⟩
  exact answered.left

end Preserves

end Action

namespace Layer

variable
  {σ α : Type}
  {layer : Layer σ}
  {path : Path}
  {access : Access}
  {body : FileHandle → Action σ α}

/-- A body that succeeds with every handle succeeds with the one it is given
or with one that is opened for it. -/
theorem withHandle_answers
    (handle : Option FileHandle)
    {state : σ}
    {before after : σ → Prop}
    {answer : α}
    (held : before state)
    (opens : ∀ reached, before reached → ∃ opened,
      (layer.openFile path access).Answers reached opened before)
    (answers : ∀ opened reached, before reached →
      (body opened).Answers reached answer after)
    (releases : ∀ opened reached, after reached →
      (layer.release path opened).Answers reached () after) :
    (layer.withHandle path handle access body).Answers state answer after := by
  cases handle with
  | some given => exact answers given state held
  | none =>
      rcases opens state held with ⟨opened, answered⟩
      refine answered.bind fun reached found => ?_
      exact (answers opened reached found).finallyDo (releases opened)

end Layer

/-! ## Sessions -/

namespace Session

variable
  {η α : Type}
  {session : Session η}
  {answer : α}
  {after : η → Prop}

/-- What an action on what is stored answers and leaves is what it does
there. -/
theorem execute_onStorage
    {action : Action η α}
    {later : Session η}
    {answer : Except Error α}
    (ran : (onStorage action).execute session = (answer, later)) :
    action.execute session.storage = (answer, later.storage) := by
  have given := congrArg Prod.fst ran
  have left := congrArg (storage ∘ Prod.snd) ran
  exact Prod.ext given left

theorem onStorage_answers
    {action : Action η α}
    (answers : action.Answers session.storage answer after) :
    (onStorage action).Answers session answer
      (fun reached => after reached.storage) := by
  rcases answers with ⟨storage, ran, held⟩
  refine ⟨{ session with storage }, ?_, held⟩
  simp [onStorage, ran]

/-- Timing an action starts it with the storage as it is, and does not change
what it does to it. -/
theorem timed_answers
    (recorder : Nat)
    (operation : String)
    (body : Action (Session η) α)
    (session : Session η) :
    ∃ started : Session η,
      started.storage = session.storage ∧
        ∀ (answer : α) (after : η → Prop),
          body.Answers started answer (fun reached => after reached.storage) →
            ((meter recorder).timed operation body).Answers session answer
              (fun reached => after reached.storage) := by
  refine ⟨{ session with ticks := session.ticks + 1 }, rfl, ?_⟩
  rintro answer after ⟨reached, ran, held⟩
  refine ⟨{ reached with
    ticks := reached.ticks + 1
    registry := reached.registry.record recorder operation
      (reached.ticks * 1000 - session.ticks * 1000) }, ?_, held⟩
  simp only [Meter.timed, meter, Action.execute_ofRun, ran]

/-- A timed action that succeeds is one that succeeds with the storage as it
is. -/
theorem execute_timed_eq_ok
    {recorder : Nat}
    {operation : String}
    {body : Action (Session η) α}
    {final : Session η}
    (ran : ((meter recorder).timed operation body).execute session =
      (.ok answer, final)) :
    ∃ started reached,
      started.storage = session.storage ∧
        body.execute started = (.ok answer, reached) ∧
        final.storage = reached.storage := by
  simp only [Meter.timed, meter, Action.execute_ofRun] at ran
  rcases Prod.mk.inj ran with ⟨answered, rfl⟩
  exact ⟨{ session with ticks := session.ticks + 1 }, _, rfl,
    Prod.ext answered rfl, rfl⟩

/-- A nonce that is drawn has the right length, whatever is on the tape. -/
theorem drawNonce_answers
    (held : after session.storage) :
    ∃ nonce, nonce.length = Aead.nonceLength ∧
      drawNonce.Answers session nonce
        (fun reached => after reached.storage) :=
  ⟨_, session.tape.length_take Aead.nonceLength, _, rfl, held⟩

theorem onStorage_preserves
    {holds : η → Prop}
    {action : Action η α}
    (preserves : action.Preserves holds) :
    (onStorage action).Preserves fun session => holds session.storage :=
  fun session held => preserves session.storage held

theorem timed_preserves
    {holds : η → Prop}
    (recorder : Nat)
    (operation : String)
    {body : Action (Session η) α}
    (preserves : body.Preserves fun session => holds session.storage) :
    ((meter recorder).timed operation body).Preserves
      fun session => holds session.storage :=
  fun session held => preserves { session with ticks := session.ticks + 1 } held

end Session

end Strata
