import Strata.Config.Encoding
import Strata.Pipeline
import Strata.Proofs.Crews
import Strata.Proofs.DeviceFiles

/-!
# Assembly of valid configurations

A valid configuration names the devices last and every stage at most once, so
that the loop that puts stages on one another always finds a layer to put the
next one on.  Two faults are left to the assembly itself: a code with more
shards than the field has points, and a configured nonce that is none.  And the
workers have to be granted: there may be no room for the handles of all that
are configured, or one of them may not start.
-/

namespace Strata

/-! ## What validity says -/

/-- A framer has the block size and the mode that it is made for. -/
theorem Framer.shape_of_ofConfig
    {size : BlockSize}
    {config : CipherConfig}
    {ask : String → Except Error String}
    {framer : Framer}
    (made : Framer.ofConfig size config ask = .ok framer) :
    framer.size = size ∧ framer.mode = config.mode := by
  have drawn {found : Except Error Bytes} {rest : Bytes → Except Error Framer}
      (made : (found >>= rest) = .ok framer) :
      ∃ bytes, rest bytes = .ok framer := by
    cases found with
    | error error => cases made
    | ok bytes => exact ⟨bytes, made⟩
  unfold Framer.ofConfig at made
  cases mode : config.mode <;> simp only [mode] at made
  case null =>
    cases made
    exact ⟨rfl, rfl⟩
  case nullPadded =>
    cases made
    exact ⟨rfl, rfl⟩
  case deterministic =>
    rcases drawn made with ⟨key, made⟩
    rcases drawn made with ⟨nonce, made⟩
    cases made
    exact ⟨rfl, rfl⟩
  case randomIv =>
    rcases drawn made with ⟨key, made⟩
    cases made
    exact ⟨rfl, rfl⟩

namespace Config

variable {config : Config}

theorem validate_eq_ok_iff :
    config.validate = .ok () ↔
      config.numbersBreach? = none ∧ config.layersBreach? = none ∧
        config.devicesBreach? = none ∧ config.keyBreach? = none := by
  unfold validate breach?
  cases config.numbersBreach? <;> cases config.layersBreach? <;>
    cases config.devicesBreach? <;> cases config.keyBreach? <;> simp

theorem positive_of_numbers
    (valid : config.numbersBreach? = none) :
    0 < config.blockSize ∧ 0 < config.workerThreads := by
  unfold numbersBreach? at valid
  split at valid
  · simp at valid
  · rename_i shape
    split at valid
    · simp at valid
    · split at valid
      · simp at valid
      · rename_i workers
        refine ⟨Nat.pos_of_ne_zero ?_, Nat.pos_of_ne_zero workers⟩
        rintro none
        simp [isPowerOfTwo, none] at shape

/-- A valid block size is one. -/
theorem blockSize_of_numbers
    (valid : config.numbersBreach? = none) :
    ∃ size, Pipeline.blockSize config = .ok size ∧
      size.bytes = config.blockSize := by
  have positive := (positive_of_numbers valid).1
  refine ⟨⟨config.blockSize, positive⟩, ?_, rfl⟩
  simp only [Pipeline.blockSize, BlockSize.ofNat?, positive, dite_true]

/-- The stages above the devices are no devices, and each of them stands there
once at most. -/
theorem layers_of_valid
    (valid : config.layersBreach? = none) :
    ∃ upper,
      config.layers = upper ++ [.devices] ∧
        StageKind.devices ∉ upper ∧
        upper.count .align ≤ 1 ∧
        upper.count .cipher ≤ 1 := by
  unfold layersBreach? at valid
  split at valid
  · simp at valid
  · rename_i last
    rcases List.getLast?_eq_some_iff.mp (by simpa using last) with
      ⟨upper, layers⟩
    split at valid
    · simp at valid
    · rename_i once
      rw [layers] at once
      simp only [List.find?_eq_none, List.mem_cons, List.not_mem_nil,
        or_false, forall_eq_or_imp, forall_eq, List.count_append,
        List.count_singleton, decide_eq_true_eq] at once
      rcases once with ⟨align, cipher, devices⟩
      exact ⟨upper, layers, by simpa using devices, by simpa using align,
        by simpa using cipher⟩

/-- With a framing cipher there is only one order of the stages. -/
theorem layers_of_framing
    (valid : config.layersBreach? = none)
    (framing : config.cipher.mode ≠ .null)
    (present : config.hasStage .cipher) :
    config.layers = [.align, .cipher, .devices] := by
  rcases layers_of_valid valid with ⟨upper, layers, bare, align, cipher⟩
  have above : standsAbove config.layers .align .cipher := by
    unfold layersBreach? at valid
    split at valid
    · simp at valid
    · split at valid
      · simp at valid
      · simpa [framing, present] using valid
  unfold hasStage at present
  rw [layers] at present above ⊢
  -- At most one stage of each of two kinds leaves at most two stages.
  rcases upper with _ | ⟨first, _ | ⟨second, _ | ⟨third, rest⟩⟩⟩
  · simp at present
  · cases first <;> simp [standsAbove] at *
  · cases first <;> cases second <;> simp [standsAbove] at *
  · cases first <;> cases second <;> cases third <;> simp at *

theorem shape_of_devices
    (valid : config.devicesBreach? = none)
    (erasure : config.devices.mode = .erasure) :
    config.devices.erasure.data ≠ 0 ∧ config.devices.erasure.parity ≠ 0 := by
  unfold devicesBreach? at valid
  rw [erasure] at valid
  dsimp only at valid
  split at valid
  · simp at valid
  · split at valid
    · simp at valid
    · split at valid
      · simp at valid
      · rename_i shape
        exact not_or.mp shape

theorem key_of_valid
    (valid : config.keyBreach? = none)
    (present : config.hasStage .cipher)
    (encrypts : config.cipher.mode.encrypts) :
    ∃ material, config.cipher.key = some material := by
  cases key : config.cipher.key with
  | some material => exact ⟨material, rfl⟩
  | none => simp [keyBreach?, present, encrypts, key] at valid

/-- The coder of a valid configuration can work over its devices. -/
theorem fits_of_valid
    {coder : Coder}
    (valid : config.devicesBreach? = none)
    (coded : Coder.ofConfig config.devices = .ok coder) :
    coder.Fits config.devices.paths.length ∧
      coder.mode = config.devices.mode := by
  unfold devicesBreach? deviceCount at valid
  unfold Coder.ofConfig at coded
  dsimp only at valid
  split at valid
  · cases valid
  rename_i some
  split at valid
  · cases valid
  cases mode : config.devices.mode <;> simp only [mode] at valid coded
  case replicate =>
    cases coded
    exact ⟨Nat.pos_of_ne_zero some, rfl⟩
  case xor =>
    cases coded
    split at valid
    · cases valid
    · rename_i several
      exact ⟨Nat.lt_of_not_le fun few => several (by omega), rfl⟩
  case erasure =>
    split at valid
    · cases valid
    split at valid
    · cases valid
    rename_i total
    cases made : ErasureCoder.ofShape config.devices.erasure.data
        config.devices.erasure.parity with
    | error fault =>
        rw [made] at coded
        cases coded
    | ok erasure =>
        rw [made] at coded
        cases coded
        have shape := ReedSolomon.eq_of_ofShape
          (ErasureCoder.eq_of_ofShape made).2.2.1
        refine ⟨⟨.made made, ?_⟩, rfl⟩
        rw [ErasureCoder.total, ReedSolomon.total, shape.2.1, shape.2.2.1]
        exact (wrapped_of_lt (Nat.lt_of_le_of_lt shape.1
          (by decide +kernel))).symm.trans (not_not.mp total)

/-! ## What is left to the assembly -/

/-- Why the coder of a valid configuration cannot be made: a code has 256
shards at most. -/
def shardFault?
    (config : Config) :
    Option Error :=
  if config.devices.mode = .erasure ∧
      256 < config.devices.erasure.data + config.devices.erasure.parity then
    some (.erasure "TooManyShards")
  else
    none

/-- Why the configured nonce of the deterministic mode cannot be used. -/
def nonceFault?
    (config : Config) :
    Option Error :=
  match config.cipher.mode, config.cipher.iv with
  | .deterministic, some digits =>
    match Key.parseBytes "iv" Key.nonceLength digits with
    | .error fault => some fault
    | .ok _ => none
  | _, _ => none

/-- Why a valid configuration cannot be assembled, if its key is good and the
devices are there. -/
def assemblyFault?
    (config : Config) :
    Option Error :=
  config.shardFault?.or
    (if config.hasStage .cipher then config.nonceFault? else none)

/-- The key material of a configuration that needs a key resolves. -/
def KeyResolves
    (config : Config)
    (ask : String → Except Error String) :
    Prop :=
  config.hasStage .cipher → config.cipher.mode.encrypts →
    ∀ material, config.cipher.key = some material →
      ∃ key, Key.resolve ask material = .ok key

/-- The coder of a valid configuration can be made unless there are too many
shards. -/
theorem coder_of_valid
    (valid : config.devicesBreach? = none) :
    (config.shardFault? = none →
        ∃ coder, Coder.ofConfig config.devices = .ok coder) ∧
      ∀ fault, config.shardFault? = some fault →
        Coder.ofConfig config.devices = .error fault := by
  unfold Coder.ofConfig shardFault?
  cases mode : config.devices.mode with
  | replicate => simp
  | xor => simp
  | erasure =>
      have shape := shape_of_devices valid mode
      simp only [ErasureCoder.ofShape, shape, or_self, if_false,
        ReedSolomon.ofShape, true_and]
      split
      · refine ⟨fun none => by simp at none, fun fault same => ?_⟩
        obtain rfl := Option.some.inj same
        rfl
      · exact ⟨fun _ => ⟨_, rfl⟩, fun fault same => by simp at same⟩

/-- The framer of a valid configuration whose key resolves can be made unless
its nonce is none. -/
theorem framer_of_valid
    {ask : String → Except Error String}
    (valid : config.keyBreach? = none)
    (present : config.hasStage .cipher)
    (resolves : config.KeyResolves ask)
    (size : BlockSize) :
    (config.nonceFault? = none →
        ∃ framer, Framer.ofConfig size config.cipher ask = .ok framer) ∧
      ∀ fault, config.nonceFault? = some fault →
        Framer.ofConfig size config.cipher ask = .error fault := by
  have keyed (encrypts : config.cipher.mode.encrypts) :
      ∃ material key, config.cipher.key = some material ∧
        Key.resolve ask material = .ok key := by
    rcases key_of_valid valid present encrypts with ⟨material, given⟩
    rcases resolves present encrypts material given with ⟨key, resolved⟩
    exact ⟨material, key, given, resolved⟩
  unfold Framer.ofConfig nonceFault?
  cases mode : config.cipher.mode with
  | null => simp
  | nullPadded => simp
  | randomIv =>
      rcases keyed (by rw [mode]; rfl) with ⟨material, key, given, resolved⟩
      simp only [given, resolved]
      exact ⟨fun _ => ⟨_, rfl⟩, by simp⟩
  | deterministic =>
      rcases keyed (by rw [mode]; rfl) with ⟨material, key, given, resolved⟩
      simp only [given, resolved]
      cases config.cipher.iv with
      | none => exact ⟨fun _ => ⟨_, rfl⟩, by simp⟩
      | some digits =>
          dsimp only
          cases parsed : Key.parseBytes "iv" Key.nonceLength digits with
          | ok nonce =>
              refine ⟨fun _ => ?_, by simp⟩
              refine ⟨⟨size, .deterministic (Gcm.aead key) nonce⟩, ?_⟩
              simp [bind, Except.bind, Key.deterministicNonce, parsed, pure,
                Except.pure]
          | error error =>
              refine ⟨by simp, fun fault same => ?_⟩
              obtain rfl := Option.some.inj same
              simp [bind, Except.bind, Key.deterministicNonce, parsed]

end Config

/-! ## Putting stages on one another -/

namespace Pipeline

variable
  {κ : Type}
  {backend : Backend κ}
  {config : Config}
  {ask : String → Except Error String}
  {size : BlockSize}

/-- A stage above the devices finds the layer below it, and puts its name in
front. -/
theorem add_upper
    {draft : Draft κ}
    {lower : Layer (State κ)}
    (below : draft.below = some lower)
    (sized : blockSize config = .ok size)
    (kind : StageKind)
    (upper : kind ≠ .devices)
    (fresh : kind = .cipher → draft.keyed = false)
    (framed : kind = .cipher →
      ∃ framer, Framer.ofConfig size config.cipher ask = .ok framer)
    (state : κ) :
    ∃ next top,
      (draft.add backend config ask kind).execute state = (.ok next, state) ∧
        next.below = some top ∧
        top.names = kind.name :: lower.names ∧
        next.devices = draft.devices ∧
        next.keyed = (draft.keyed || decide (kind = .cipher)) := by
  cases kind with
  | devices => exact absurd rfl upper
  | align =>
      refine ⟨{ draft with below := some (lower.aligned size) }, _, ?_, rfl,
        rfl, rfl, by simp⟩
      simp only [Draft.add, Draft.lower, below, sized, Action.execute_bind,
        Action.execute_ofExcept, Action.execute_pure]
  | cipher =>
      rcases framed rfl with ⟨framer, made⟩
      refine ⟨{ draft with
          below := some (lower.framed framer Session.drawNonce
            (Session.meter (draft.registry.add "cipher").1))
          registry := (draft.registry.add "cipher").2
          keyed := true }, _, ?_, rfl, rfl, rfl, by simp⟩
      simp only [Draft.add, Draft.lower, below, sized, made, fresh rfl,
        Bool.false_eq_true, if_false, Action.execute_bind,
        Action.execute_ofExcept, Action.execute_pure]

/-- Stages above the devices, the cipher at most once among them, are put on
one after the other, and leave the devices as they are. -/
theorem addAll_upper
    (kinds : List StageKind)
    {draft : Draft κ}
    {lower : Layer (State κ)}
    (below : draft.below = some lower)
    (sized : blockSize config = .ok size)
    (upper : .devices ∉ kinds)
    (once : kinds.count .cipher + draft.keyed.toNat ≤ 1)
    (framed : .cipher ∈ kinds →
      ∃ framer, Framer.ofConfig size config.cipher ask = .ok framer)
    (state : κ) :
    ∃ final top,
      (draft.addAll backend config ask kinds).execute state =
          (.ok final, state) ∧
        final.below = some top ∧
        top.names = kinds.reverse.map StageKind.name ++ lower.names ∧
        final.devices = draft.devices := by
  induction kinds generalizing draft lower with
  | nil => exact ⟨draft, lower, rfl, below, rfl, rfl⟩
  | cons kind rest ih =>
      rw [List.mem_cons, not_or] at upper
      have fresh : kind = .cipher → draft.keyed = false := by
        rintro rfl
        cases keyed : draft.keyed with
        | false => rfl
        | true => simp [keyed] at once
      rcases
          @add_upper _ backend _ _ _ _ _ below sized kind (Ne.symm upper.1)
            fresh (fun cipher => framed (by simp [cipher])) state with
        ⟨next, top, added, stands, names, devices, keyed⟩
      have again : rest.count .cipher + next.keyed.toNat ≤ 1 := by
        rw [keyed]
        cases kind with
        | cipher => simpa [fresh rfl] using once
        | _ => simpa using once
      rcases
          ih stands upper.2 again
            (fun cipher => framed (List.mem_cons_of_mem _ cipher)) with
        ⟨final, last, ran, found, all, kept⟩
      refine ⟨final, last, ?_, found, ?_, kept.trans devices⟩
      · rw [Draft.addAll, Action.execute_bind, added]
        exact ran
      · rw [all, names, List.reverse_cons, List.map_append, List.append_assoc]
        rfl

/-- A framer that cannot be made stops the loop. -/
theorem addAll_stops
    (kinds : List StageKind)
    {draft : Draft κ}
    {lower : Layer (State κ)}
    {fault : Error}
    (below : draft.below = some lower)
    (sized : blockSize config = .ok size)
    (upper : .devices ∉ kinds)
    (once : kinds.count .cipher + draft.keyed.toNat ≤ 1)
    (cipher : .cipher ∈ kinds)
    (fails : Framer.ofConfig size config.cipher ask = .error fault)
    (state : κ) :
    (draft.addAll backend config ask kinds).execute state =
      (.error fault, state) := by
  induction kinds generalizing draft lower with
  | nil => simp at cipher
  | cons kind rest ih =>
      rw [List.mem_cons, not_or] at upper
      cases kind with
      | devices => exact absurd rfl upper.1
      | align =>
          rcases
              @add_upper _ backend _ ask _ _ _ below sized .align
                (by simp) (by simp) (by simp) state with
            ⟨next, top, added, stands, -, -, keyed⟩
          rw [Draft.addAll, Action.execute_bind, added]
          refine ih stands upper.2 ?_ (by simpa using cipher)
          rw [keyed]
          simpa using once
      | cipher =>
          have fresh : draft.keyed = false := by
            cases keyed : draft.keyed with
            | false => rfl
            | true => simp [keyed] at once
          simp only [Draft.addAll, Draft.add, Draft.lower, below, sized, fails,
            fresh, Bool.false_eq_true, if_false, Action.execute_bind,
            Action.execute_ofExcept]

/-! ## Whole pipelines -/

variable
  {state opened : κ}
  {roots : List String}

/-- The device stage of a pipeline over some directories. -/
def deviceStage
    (backend : Backend κ)
    (roots : List String) :
    Layer (State κ) :=
  Layer.ofDevices { backend, roots } (Session.meter 0)

/-- The cipher stage of a pipeline, right above the devices. -/
def cipherStage
    (backend : Backend κ)
    (roots : List String)
    (framer : Framer) :
    Layer (State κ) :=
  (deviceStage backend roots).framed framer Session.drawNonce (Session.meter 1)

/-- The device stage is the first one on a draft. -/
theorem add_devices
    {coder : Coder}
    (there : (openRoots backend 0 config.devices.paths).execute state =
      (.ok roots, opened))
    (coded : Coder.ofConfig config.devices = .ok coder) :
    ∃ draft : Draft κ,
      (Draft.add backend config ask {} .devices).execute state =
          (.ok draft, opened) ∧
        draft.below =
          some (Layer.ofDevices { backend, roots } (Session.meter 0)) ∧
        draft.devices = some ({ backend, roots }, coder) ∧
        draft.keyed = false := by
  have added :
      (Draft.add backend config ask {} .devices).execute state =
        (.ok
          { below := some (Layer.ofDevices { backend, roots } (Session.meter 0))
            devices := some ({ backend, roots }, coder)
            registry := (Registry.add [] "devices").2 },
          opened) := by
    simp only [Draft.add, there, coded, Action.execute_bind,
      Action.execute_ofExcept, Action.execute_pure]
    rfl
  exact ⟨_, added, rfl, rfl, rfl⟩

/-- What stands on a draft after the device stage. -/
theorem add_devices_ok
    {base : Draft κ}
    (added : (Draft.add backend config ask {} .devices).execute state =
      (.ok base, opened)) :
    ∃ roots coder,
      (openRoots backend 0 config.devices.paths).execute state =
          (.ok roots, opened) ∧
        Coder.ofConfig config.devices = .ok coder ∧
        base.below = some (deviceStage backend roots) ∧
        base.devices = some ({ backend, roots }, coder) ∧
        base.keyed = false ∧
        base.registry = (Registry.add [] "devices").2 := by
  rcases Action.execute_bind_eq_ok added with ⟨roots, _, there, added⟩
  rcases Action.execute_bind_eq_ok added with ⟨coder, _, coded, added⟩
  rcases Prod.mk.inj coded with ⟨made, same⟩
  subst same
  cases added
  exact ⟨roots, coder, there, made, rfl, rfl, rfl, rfl⟩

theorem add_devices_stops
    {fault : Error}
    (there : (openRoots backend 0 config.devices.paths).execute state =
      (.ok roots, opened))
    (fails : Coder.ofConfig config.devices = .error fault) :
    (Draft.add backend config ask {} .devices).execute state =
      (.error fault, opened) := by
  simp only [Draft.add, there, fails, Action.execute_bind,
    Action.execute_ofExcept]

/-- The stages of a valid configuration whose devices are there and whose key
resolves are put on one another, unless there is a fault. -/
theorem addAll_of_valid
    (valid : config.validate = .ok ())
    (there : (openRoots backend 0 config.devices.paths).execute state =
      (.ok roots, opened))
    (resolves : config.KeyResolves ask) :
    (config.assemblyFault? = none →
        ∃ final top made,
          (Draft.addAll backend config ask {} config.layers.reverse).execute
              state = (.ok final, opened) ∧
            final.below = some top ∧
            top.names = config.layers.map StageKind.name ∧
            final.devices = some made) ∧
      ∀ fault, config.assemblyFault? = some fault →
        (Draft.addAll backend config ask {} config.layers.reverse).execute
          state = (.error fault, opened) := by
  rcases Config.validate_eq_ok_iff.mp valid with
    ⟨numbers, order, devices, key⟩
  rcases Config.layers_of_valid order with ⟨upper, layers, bare, -, once⟩
  have stages : config.layers.reverse = .devices :: upper.reverse := by
    rw [layers, List.reverse_append]
    rfl
  rcases Config.blockSize_of_numbers numbers with ⟨size, sized, -⟩
  have present : config.hasStage .cipher ↔ .cipher ∈ upper.reverse := by
    simp [Config.hasStage, layers]
  have bare : .devices ∉ upper.reverse := by simpa using bare
  have coder := Config.coder_of_valid devices
  have framer (cipher : config.hasStage .cipher) :=
    Config.framer_of_valid key cipher resolves size
  rw [stages, Draft.addAll, Action.execute_bind]
  unfold Config.assemblyFault?
  cases shards : config.shardFault? with
  | some fault =>
      constructor
      · intro none
        simp at none
      · intro other same
        obtain rfl : fault = other := by simpa using same
        rw [add_devices_stops there (coder.2 fault shards)]
  | none =>
      rcases coder.1 shards with ⟨code, coded⟩
      rcases @add_devices _ _ _ ask _ _ _ _ there coded with
        ⟨base, first, below, made, fresh⟩
      have once : upper.reverse.count .cipher + base.keyed.toNat ≤ 1 := by
        rw [List.count_reverse, fresh]
        exact once
      rw [first, Option.none_or]
      constructor
      · intro none
        have framed (cipher : .cipher ∈ upper.reverse) :=
          (framer (present.mpr cipher)).1
            (by rwa [if_pos (present.mpr cipher)] at none)
        rcases addAll_upper upper.reverse below sized bare once framed opened
          with ⟨final, top, ran, stands, names, kept⟩
        refine ⟨final, top, _, ran, stands, ?_, kept.trans made⟩
        rw [names, layers, List.reverse_reverse, List.map_append]
        rfl
      · intro fault stops
        split at stops
        · rename_i cipher
          exact addAll_stops upper.reverse below sized bare once
            (present.mp cipher) ((framer cipher).2 fault stops) opened
        · simp at stops

/-- Without its workers nothing of a pipeline is assembled. -/
theorem assemble_refused
    {fault : Error}
    (valid : config.validate = .ok ())
    (refused :
      Workers.ofSize config.workerThreads backend.grants = .error fault)
    (state : κ) :
    (assemble backend config ask).execute state = (.error fault, state) := by
  simp only [assemble, valid, refused, Action.execute_bind,
    Action.execute_ofExcept]

/-- A fault among the stages is the fault of the assembly. -/
theorem assemble_stops
    {workers : Workers}
    {fault : Error}
    {after : κ}
    (valid : config.validate = .ok ())
    (hired : Workers.ofSize config.workerThreads backend.grants = .ok workers)
    (fails : (Draft.addAll backend config ask {}
      config.layers.reverse).execute state = (.error fault, after)) :
    (assemble backend config ask).execute state = (.error fault, after) := by
  simp only [assemble, valid, hired, fails, Action.execute_bind,
    Action.execute_ofExcept]

/-- The stages that were put on one another are the pipeline. -/
theorem assemble_succeeds
    {workers : Workers}
    {after : κ}
    {final : Draft κ}
    {top : Layer (State κ)}
    {made : Devices κ × Coder}
    (valid : config.validate = .ok ())
    (hired : Workers.ofSize config.workerThreads backend.grants = .ok workers)
    (ran : (Draft.addAll backend config ask {}
      config.layers.reverse).execute state = (.ok final, after))
    (stands : final.below = some top)
    (found : final.devices = some made) :
    ∃ pipeline coder registry,
      (assemble backend config ask).execute state =
          (.ok (pipeline, coder, registry), after) ∧
        pipeline.top = top ∧
        pipeline.workers.size = config.workerThreads := by
  simp only [assemble, valid, hired, ran, stands, found, Action.execute_bind,
    Action.execute_ofExcept]
  rcases Workers.ofSize_eq_ok_iff.mp hired with ⟨-, -, -, rfl⟩
  exact ⟨_, _, _, rfl, rfl, List.length_replicate⟩

/--
A valid configuration whose devices are there and whose key resolves is
assembled, with its stages in the configured order, if its workers are granted,
unless its code has more shards than the field has points or its nonce is none;
then the assembly stops with that fault, and with no other.  The number of
shards has to be a word for that: one that is not is not what was compared with
the number of devices.  If the workers are not granted, the assembly stops
before it looks at the devices.
-/
theorem assemble_of_valid
    (valid : config.validate = .ok ())
    (there : (openRoots backend 0 config.devices.paths).execute state =
      (.ok roots, opened))
    (resolves : config.KeyResolves ask) :
    (backend.grants.room config.workerThreads = .ok () →
      (∀ worker < config.workerThreads,
        backend.grants.start worker = .ok ()) →
        (config.assemblyFault? = none →
          ∃ pipeline coder registry,
            (assemble backend config ask).execute state =
                (.ok (pipeline, coder, registry), opened) ∧
              pipeline.layerNames = config.layers.map StageKind.name ∧
              pipeline.workers.size = config.workerThreads) ∧
        ∀ fault, config.assemblyFault? = some fault →
          (config.devices.mode = .erasure →
            config.devices.erasure.data + config.devices.erasure.parity <
              wordCount) →
          (assemble backend config ask).execute state =
            (.error fault, opened)) ∧
      ∀ fault,
        Workers.ofSize config.workerThreads backend.grants = .error fault →
          (assemble backend config ask).execute state =
            (.error fault, state) := by
  have drafts := addAll_of_valid valid there resolves
  constructor
  · intro room starts
    have numbers := (Config.validate_eq_ok_iff.mp valid).1
    have hired := Workers.ofSize_eq_ok_iff.mpr
      ⟨(Config.positive_of_numbers numbers).2, room, starts, rfl⟩
    constructor
    · intro none
      rcases drafts.1 none with ⟨final, top, made, ran, stands, names, found⟩
      rcases assemble_succeeds valid hired ran stands found with
        ⟨pipeline, coder, registry, answered, rfl, working⟩
      exact ⟨pipeline, coder, registry, answered, names, working⟩
    · intro fault faulty _
      exact assemble_stops valid hired (drafts.2 fault faulty)
  · exact fun fault refused => assemble_refused valid refused state

/-- A framing cipher stands below the aligning stage, with blocks of the same
size, and above the devices. -/
theorem top_of_framing
    {pipeline : Pipeline κ}
    {coder : Coder}
    {registry : Registry}
    {after : κ}
    (assembled : (assemble backend config ask).execute state =
      (.ok (pipeline, coder, registry), after))
    (present : config.hasStage .cipher)
    (framing : config.cipher.mode ≠ .null) :
    ∃ framer roots,
      framer.size.bytes = config.blockSize ∧
        framer.mode = config.cipher.mode ∧
        (openRoots backend 0 config.devices.paths).execute state =
          (.ok roots, after) ∧
        Coder.ofConfig config.devices = .ok coder ∧
        pipeline.top =
          (cipherStage backend roots framer).aligned framer.size := by
  rcases Action.execute_bind_eq_ok assembled with ⟨_, _, checked, assembled⟩
  rcases Prod.mk.inj checked with ⟨valid, rfl⟩
  rcases Config.validate_eq_ok_iff.mp valid with ⟨numbers, order, -, -⟩
  have layers := Config.layers_of_framing order framing present
  rcases Config.blockSize_of_numbers numbers with ⟨size, sized, bytes⟩
  rcases Action.execute_bind_eq_ok assembled with ⟨_, _, hired, assembled⟩
  rcases Prod.mk.inj hired with ⟨-, rfl⟩
  rcases Action.execute_bind_eq_ok assembled with
    ⟨final, reached, added, assembled⟩
  rw [layers] at added
  rcases Action.execute_bind_eq_ok added with ⟨base, _, first, added⟩
  rcases Action.execute_bind_eq_ok added with ⟨middle, _, second, added⟩
  rcases Action.execute_bind_eq_ok added with ⟨last, _, third, added⟩
  cases added
  rcases add_devices_ok first with
    ⟨roots, made, there, coded, below, devices, keyed, registry⟩
  -- The cipher over the devices.
  simp only [Draft.add, Draft.lower, below, sized, keyed,
    Action.execute_bind, Action.execute_ofExcept, Bool.false_eq_true,
    if_false] at second
  split at second
  · rename_i framer _ answered
    rcases Prod.mk.inj answered with ⟨framed, same⟩
    subst same
    cases second
    -- The alignment on top.
    simp only [Draft.add, Draft.lower, sized, Action.execute_bind,
      Action.execute_ofExcept] at third
    cases third
    rw [devices] at assembled
    cases assembled
    rcases Framer.shape_of_ofConfig framed with ⟨rfl, named⟩
    refine ⟨framer, roots, bytes, named, there, coded, ?_⟩
    rw [registry]
    rfl
  · cases second

/-! ## Some configurations -/

/-- A configuration with a key of zeros in the deterministic mode. -/
def deterministicConfig
    (iv : Option String) :
    Config where
  cipher :=
    { mode := .deterministic
      key := some (.hex (String.ofList (List.replicate 64 '0')))
      iv }
  devices := { paths := ["first", "second"] }

/-- A configuration with one more shard than there can be. -/
def wideConfig :
    Config where
  layers := [.devices]
  devices :=
    { mode := .erasure
      paths := (List.range 257).map fun device => "d" ++ toString device
      erasure := { data := 256, parity := 1 } }

/-- A configuration with as many workers as a word can count. -/
def crowdedConfig :
    Config :=
  { deterministicConfig none with workerThreads := 18446744073709551615 }

/-- Devices in memory, on which the third worker does not start. -/
def refusingShelf :
    Backend DeviceShelf :=
  { DeviceShelf.backend with
    grants :=
      { start := fun worker =>
          if worker = 2 then .error (.host (.os 11)) else .ok () } }

/-- Every directory can be made in memory. -/
theorem openRoots_shelf
    (device : Nat)
    (paths : List String)
    (shelf : DeviceShelf) :
    (openRoots DeviceShelf.backend device paths).execute shelf =
      (.ok paths, shelf) := by
  induction paths generalizing device with
  | nil => rfl
  | cons path rest ih =>
      simp only [openRoots, Action.execute_bind, Action.execute_ofRun,
        DeviceShelf.backend, Except.mapError]
      have := ih (device + 1)
      simp only [DeviceShelf.backend] at this
      rw [this]
      rfl

theorem keyResolves_deterministicConfig
    (iv : Option String) :
    (deterministicConfig iv).KeyResolves noPrompt := by
  rintro - - material given
  obtain rfl := Option.some.inj given
  exact ⟨List.replicate 32 0, by decide +kernel⟩

theorem assemble_of_valid_of_deterministicConfig :
    ∃ pipeline coder registry,
      (assemble DeviceShelf.backend
          (deterministicConfig (some "000102030405060708090a0b"))
          noPrompt).execute [] = (.ok (pipeline, coder, registry), []) ∧
        pipeline.layerNames = ["align", "cipher", "devices"] ∧
        pipeline.workers.size = 10 := by
  have there := openRoots_shelf 0 ["first", "second"] []
  have valid : (deterministicConfig
      (some "000102030405060708090a0b")).validate = .ok () := by
    decide +kernel
  have assembles := assemble_of_valid valid there
    (keyResolves_deterministicConfig _)
  exact (assembles.1 rfl fun _ _ => rfl).1 (by decide +kernel)

/-- A valid configuration with too many shards, one with a nonce that is too
short, one with more workers than there is room for, and one of which a worker
does not start are not assembled, although their devices and keys are good. -/
theorem assemble_stops_of_shards_nonce_or_workers :
    (wideConfig.validate = .ok () ∧
        (openRoots DeviceShelf.backend 0 wideConfig.devices.paths).execute [] =
          (.ok wideConfig.devices.paths, []) ∧
        wideConfig.KeyResolves noPrompt ∧
        (assemble DeviceShelf.backend wideConfig noPrompt).execute [] =
          (.error (.erasure "TooManyShards"), [])) ∧
      ((deterministicConfig (some "00")).validate = .ok () ∧
        (openRoots DeviceShelf.backend 0 ["first", "second"]).execute [] =
          (.ok ["first", "second"], []) ∧
        (deterministicConfig (some "00")).KeyResolves noPrompt ∧
        (assemble DeviceShelf.backend (deterministicConfig (some "00"))
            noPrompt).execute [] =
          (.error (.config "iv must be 12 bytes, got 1"), [])) ∧
      (crowdedConfig.validate = .ok () ∧
        (openRoots DeviceShelf.backend 0 ["first", "second"]).execute [] =
          (.ok ["first", "second"], []) ∧
        crowdedConfig.KeyResolves noPrompt ∧
        (assemble DeviceShelf.backend crowdedConfig noPrompt).execute [] =
          (.error (.panicked "capacity overflow"), [])) ∧
      (deterministicConfig none).validate = .ok () ∧
        (openRoots refusingShelf 0 ["first", "second"]).execute [] =
          (.ok ["first", "second"], []) ∧
        (deterministicConfig none).KeyResolves noPrompt ∧
        (assemble refusingShelf (deterministicConfig none)
            noPrompt).execute [] = (.error (.host (.os 11)), []) := by
  have there := openRoots_shelf 0 ["first", "second"] []
  refine ⟨?_, ?_, ?_, ?_⟩
  · have valid : wideConfig.validate = .ok () := by decide +kernel
    have there := openRoots_shelf 0 wideConfig.devices.paths []
    have resolves : wideConfig.KeyResolves noPrompt := by
      intro present
      exact absurd present (by decide)
    have fails := (addAll_of_valid valid there resolves).2
      (.erasure "TooManyShards") (by decide +kernel)
    exact ⟨valid, there, resolves, assemble_stops valid rfl fails⟩
  · have valid : (deterministicConfig (some "00")).validate = .ok () := by
      decide +kernel
    have resolves := keyResolves_deterministicConfig (some "00")
    have fails := (addAll_of_valid valid there resolves).2
      (.config "iv must be 12 bytes, got 1") (by decide +kernel)
    exact ⟨valid, there, resolves, assemble_stops valid rfl fails⟩
  · have valid : crowdedConfig.validate = .ok () := by decide +kernel
    have resolves : crowdedConfig.KeyResolves noPrompt :=
      keyResolves_deterministicConfig none
    exact ⟨valid, there, resolves, assemble_refused valid rfl []⟩
  · have valid : (deterministicConfig none).validate = .ok () := by
      decide +kernel
    exact ⟨valid, there, keyResolves_deterministicConfig none,
      assemble_refused valid rfl []⟩

end Pipeline

end Strata
