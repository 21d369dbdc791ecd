import Strata.Proofs.Truncation

/-!
# Stacks without the aligning stage

A valid configuration without the aligning stage is one of the devices alone,
or of a cipher that leaves blocks as they are over the devices.  In both a cut
of a file leaves what a cut has to leave exactly where the coder keeps no
books.
-/

namespace Strata

/-! ## Assembly -/

namespace Config

variable {config : Config}

/-- Without the aligning stage there are at most the devices and a cipher that
does not frame. -/
theorem layers_of_unaligned
    (valid : config.layersBreach? = none)
    (unaligned : ¬ config.hasStage .align) :
    config.layers = [.devices] ∨
      config.layers = [.cipher, .devices] ∧ config.cipher.mode = .null := by
  rcases layers_of_valid valid with ⟨upper, layers, bare, -, cipher⟩
  have only : ∀ kind ∈ upper, kind = .cipher := by
    intro kind member
    cases kind with
    | cipher => rfl
    | devices => exact absurd member bare
    | align =>
        refine absurd ?_ unaligned
        simp [hasStage, layers, member]
  rcases upper with _ | ⟨first, _ | ⟨second, rest⟩⟩
  · exact .inl layers
  · obtain rfl := only first List.mem_cons_self
    refine .inr ⟨layers, ?_⟩
    by_contra framing
    have order := layers_of_framing valid framing (by simp [hasStage, layers])
    rw [layers] at order
    cases order
  · obtain rfl := only first List.mem_cons_self
    obtain rfl := only second (List.mem_cons_of_mem _ List.mem_cons_self)
    simp at cipher

end Config

namespace Pipeline

variable
  {κ : Type}
  {backend : Backend κ}
  {config : Config}
  {ask : String → Except Error String}
  {start after : κ}

theorem length_openRoots
    (device : Nat)
    (paths : List String)
    {roots : List String}
    (there : (openRoots backend device paths).execute start =
      (.ok roots, after)) :
    roots.length = paths.length := by
  induction paths generalizing device start roots with
  | nil =>
      cases there
      rfl
  | cons path rest ih =>
      rcases Action.execute_bind_eq_ok there with ⟨root, middle, -, there⟩
      rcases Action.execute_bind_eq_ok there with ⟨others, last, below, ends⟩
      cases ends
      rw [List.length_cons, List.length_cons, ih (device + 1) below]

/-- Without the aligning stage the devices stand alone or below a cipher that
leaves blocks as they are. -/
theorem top_of_unaligned
    {pipeline : Pipeline κ}
    {coder : Coder}
    {registry : Registry}
    (assembled : (assemble backend config ask).execute start =
      (.ok (pipeline, coder, registry), after))
    (unaligned : ¬ config.hasStage .align) :
    pipeline.devices.backend = backend ∧
      coder.Fits pipeline.devices.count ∧
      coder.mode = config.devices.mode ∧
      (pipeline.top =
          deviceStage pipeline.devices.backend pipeline.devices.roots ∨
        ∃ framer : Framer, framer.mode = .null ∧
          pipeline.top =
            cipherStage pipeline.devices.backend pipeline.devices.roots
              framer) := by
  rcases Action.execute_bind_eq_ok assembled with ⟨_, _, checked, assembled⟩
  rcases Prod.mk.inj checked with ⟨valid, rfl⟩
  rcases Config.validate_eq_ok_iff.mp valid with ⟨numbers, order, fleet, -⟩
  rcases Config.blockSize_of_numbers numbers with ⟨size, sized, -⟩
  rcases Action.execute_bind_eq_ok assembled with ⟨_, _, hired, assembled⟩
  rcases Prod.mk.inj hired with ⟨-, rfl⟩
  rcases Action.execute_bind_eq_ok assembled with
    ⟨final, reached, added, assembled⟩
  have fitted {roots : List String} {made : Coder} {middle : κ}
      (there : (openRoots backend 0 config.devices.paths).execute start =
        (.ok roots, middle))
      (coded : Coder.ofConfig config.devices = .ok made) :
      made.Fits roots.length ∧ made.mode = config.devices.mode := by
    rw [length_openRoots 0 _ there]
    exact Config.fits_of_valid fleet coded
  rcases Config.layers_of_unaligned order unaligned with
    layers | ⟨layers, null⟩
  · rw [layers] at added
    rcases Action.execute_bind_eq_ok added with ⟨base, _, first, added⟩
    cases added
    rcases add_devices_ok first with
      ⟨roots, made, there, coded, below, devices, -⟩
    rcases fitted there coded with ⟨fits, mode⟩
    rw [below, devices] at assembled
    cases assembled
    exact ⟨rfl, fits, mode, .inl rfl⟩
  · rw [layers] at added
    rcases Action.execute_bind_eq_ok added with ⟨base, _, first, added⟩
    rcases Action.execute_bind_eq_ok added with ⟨last, _, second, added⟩
    cases added
    rcases add_devices_ok first with
      ⟨roots, made, there, coded, below, devices, keyed, registry⟩
    rcases fitted there coded with ⟨fits, mode⟩
    simp only [Draft.add, Draft.lower, below, sized, keyed,
      Action.execute_bind, Action.execute_ofExcept, Bool.false_eq_true,
      if_false] at second
    split at second
    · rename_i framer _ answered
      rcases Prod.mk.inj answered with ⟨framed, same⟩
      subst same
      cases second
      rw [devices] at assembled
      cases assembled
      refine ⟨rfl, fits, mode, .inr ⟨framer, ?_, ?_⟩⟩
      · exact (Framer.shape_of_ofConfig framed).2.trans null
      · rw [registry]
        rfl
    · cases second

/-! ## Files of such stacks -/

section Stacks

variable
  {pipeline : Pipeline κ}
  {coder : Coder}
  {path : Path}
  {Holds : List Descriptor → List Bytes → κ → Prop}
  {opened : List Descriptor}
  (stands :
    pipeline.top =
        deviceStage pipeline.devices.backend pipeline.devices.roots ∨
      ∃ framer : Framer, framer.mode = .null ∧
        pipeline.top =
          cipherStage pipeline.devices.backend pipeline.devices.roots framer)
  (serves : pipeline.devices.backend.Serves
    (pipeline.devices.filePlaces coder path) Holds)

include stands

/-- A cipher that leaves blocks as they are makes files as the devices do. -/
theorem create_of_unaligned
    (mode : Nat) :
    pipeline.top.create path mode =
      Session.onStorage (pipeline.devices.create path mode) := by
  rcases stands with top | ⟨framer, -, top⟩ <;> rw [top] <;> rfl

include serves

theorem byteFile_of_unaligned
    (plain : coder.mode ≠ .erasure)
    (fits : coder.Fits pipeline.devices.count) :
    pipeline.top.ByteFile path ⟨opened⟩ (fun bytes session =>
      session.storage.Contains coder pipeline.devices.count (Holds opened)
        bytes) := by
  have file : (deviceStage pipeline.devices.backend
      pipeline.devices.roots).ByteFile path ⟨opened⟩ _ :=
    Layer.ofDevices_byteFile plain fits serves 0
  rcases stands with top | ⟨framer, null, top⟩ <;> rw [top]
  · exact file
  · exact file.of_null null 1

theorem preserves_of_unaligned
    (books : coder.mode = .erasure) :
    pipeline.top.Preserves
      (fun session => session.storage.InBooks coder pipeline.devices.count
        (Holds opened) path) path ⟨opened⟩ := by
  have preserves : (deviceStage pipeline.devices.backend
      pipeline.devices.roots).Preserves _ path ⟨opened⟩ :=
    Layer.ofDevices_preserves_books books serves 0
  rcases stands with top | ⟨framer, null, top⟩ <;> rw [top]
  · exact preserves
  · exact preserves.of_null null 1

theorem stops_of_unaligned
    (books : coder.mode = .erasure) :
    pipeline.top.Stops path ⟨opened⟩
      (fun held session => session.storage.Booked coder
        pipeline.devices.count (Holds opened) path held)
      (fun held session => session.storage.Lacks path held) := by
  have stops : (deviceStage pipeline.devices.backend
      pipeline.devices.roots).Stops path ⟨opened⟩ _ _ :=
    Layer.ofDevices_stops books serves 0
  rcases stands with top | ⟨framer, null, top⟩ <;> rw [top]
  · exact stops
  · exact stops.of_null null 1

end Stacks

/-! ## What a cut leaves -/

/--
In a pipeline that was assembled without the aligning stage, for a file that
was made on devices that serve it and then written, cut and read in any way:
the size of the file is known, every cut succeeds, and cuts leave what they
have to leave exactly where the coder keeps no books.  Where it does, no cut
past the end of the file leaves it.
-/
theorem truncate_resizes_iff
    {pipeline : Pipeline κ}
    {coder : Coder}
    {registry : Registry}
    (assembled : (assemble backend config ask).execute start =
      (.ok (pipeline, coder, registry), after))
    (unaligned : ¬ config.hasStage .align)
    (path : Path)
    (mode : Nat)
    {Holds : List Descriptor → List Bytes → κ → Prop}
    (serves : pipeline.devices.backend.Serves
      (pipeline.devices.filePlaces coder path) Holds)
    {session made : State κ}
    {handle : FileHandle}
    (follows :
      Coder.Follows pipeline.devices.count coder session.storage.coder)
    (fresh : Holds [] [] session.storage.host)
    (created : (pipeline.top.create path mode).execute session =
      (.ok handle, made))
    (requests : List FileRequest)
    (own : ∀ request ∈ requests, Layer.Own handle request.handle?) :
    let before := pipeline.top.leave path requests made
    ∃ held,
      (∀ on, Layer.Own handle on →
        ((pipeline.top.fileSize path on).execute before).1 = .ok held) ∧
      (∀ on size, Layer.Own handle on → ∃ left,
        (pipeline.top.truncate path on size).execute before = (.ok (), left) ∧
          (config.devices.mode ≠ .erasure →
            pipeline.top.Resized path handle held size before left) ∧
          (config.devices.mode = .erasure → held < size →
            ¬ pipeline.top.Resized path handle held size before left)) ∧
      ∀ on, Layer.Own handle on →
        ((∀ size left,
          (pipeline.top.truncate path on size).execute before =
              (.ok (), left) →
            pipeline.top.Resized path handle held size before left) ↔
          config.devices.mode ≠ .erasure) := by
  intro before
  rcases top_of_unaligned assembled unaligned with ⟨-, fits, same, stands⟩
  rw [← same]
  -- The file as it was made.
  have known := serves
  rw [← Devices.filePlaces_of_follows follows path] at known
  rcases Devices.create_empty_answers known follows.fits mode fresh with
    ⟨opened, answers⟩
  rw [create_of_unaligned stands] at created
  rcases (Session.onStorage_answers answers).eq_of_ok created with
    ⟨rfl, later, -, holds⟩
  by_cases plain : coder.mode = .erasure
  · have stays := follows.trans later
    have inBooks : before.storage.InBooks coder pipeline.devices.count
        (Holds opened) path := by
      refine (preserves_of_unaligned stands serves plain).leave own ?_
      refine Devices.inBooks_of_erasure plain stays
        ⟨_, 0, holds, List.length_replicate, fun content member => ?_⟩
      rw [List.eq_of_mem_replicate member, List.length_nil]
    rcases inBooks with ⟨held, booked⟩
    have stops : pipeline.top.Stops path ⟨opened⟩ _ _ :=
      stops_of_unaligned stands serves plain
    refine ⟨held, fun on own => ?_, fun on size own => ?_, fun on own => ?_⟩
    · exact (stops.fileSize on held before own booked).answer_eq
    · rcases stops.truncate on size held before own booked with
        ⟨left, ran, lacks⟩
      exact ⟨left, ran, absurd plain, fun _ grows =>
        stops.not_resized (lacks grows) grows⟩
    · refine ⟨fun resizes => ?_, absurd plain⟩
      rcases stops.truncate on (held + 1) held before own booked with
        ⟨left, ran, lacks⟩
      have grows := Nat.lt_succ_self held
      exact absurd (resizes _ left ran) (stops.not_resized (lacks grows) grows)
  · have file : pipeline.top.ByteFile path ⟨opened⟩ _ :=
      byteFile_of_unaligned stands serves plain fits
    have contains : ∃ bytes, before.storage.Contains coder
        pipeline.devices.count (Holds opened) bytes := by
      refine file.preserves.leave own ⟨[], ?_, _,
        Coder.decodes_nil plain fits.devices_pos, holds⟩
      exact (follows.trans later).eq plain
    rcases contains with ⟨bytes, contains⟩
    refine ⟨bytes.length, fun on own => ?_, fun on size own => ?_,
      fun on own => ⟨fun _ => plain, fun _ size left ran => ?_⟩⟩
    · exact (file.fileSize on bytes before own contains).answer_eq
    · rcases file.resized contains own size with ⟨left, ran, resized⟩
      exact ⟨left, ran, fun _ => resized, fun books => absurd books plain⟩
    · exact ((file.resized contains own size).eq_of_ok ran).2

/-- Two devices in memory without the aligning stage. -/
def unalignedConfig
    (mode : CoderMode)
    (layers : List StageKind) :
    Config where
  layers
  devices :=
    { mode
      paths := ["first", "second"]
      erasure := { data := 1, parity := 1 } }

/-- A file of four bytes that is cut past its end: two shares below a cipher
that leaves blocks as they are leave what they have to, and a code with one
data shard does not. -/
theorem truncate_resizes_iff_of_two_devices :
    (∃ (pipeline : Pipeline DeviceShelf) (coder : Coder)
        (registry : Registry) (handle : FileHandle)
        (made : State DeviceShelf),
      (assemble DeviceShelf.backend
          (unalignedConfig .xor [.cipher, .devices]) noPrompt).execute [] =
        (.ok (pipeline, coder, registry), []) ∧
      (pipeline.top.create ⟨["f"]⟩ 420).execute
          { storage := { coder, host := [] } } = (.ok handle, made) ∧
      ∃ held left, pipeline.top.Resized ⟨["f"]⟩ handle held 6
        (pipeline.top.leave ⟨["f"]⟩ [.write handle 0 [1, 2, 3, 4]] made)
        left) ∧
    ∃ (pipeline : Pipeline DeviceShelf) (coder : Coder)
        (registry : Registry) (handle : FileHandle)
        (made : State DeviceShelf),
      (assemble DeviceShelf.backend (unalignedConfig .erasure [.devices])
          noPrompt).execute [] = (.ok (pipeline, coder, registry), []) ∧
      (pipeline.top.create ⟨["f"]⟩ 420).execute
          { storage := { coder, host := [] } } = (.ok handle, made) ∧
      ∃ held left, ¬ pipeline.top.Resized ⟨["f"]⟩ handle held (held + 1)
        (pipeline.top.leave ⟨["f"]⟩ [.write handle 0 [1, 2, 3, 4]] made)
        left := by
  have own (handle : FileHandle) :
      ∀ request ∈ [FileRequest.write handle 0 [1, 2, 3, 4]],
        Layer.Own handle request.handle? :=
    fun request member => List.mem_singleton.mp member ▸ .inr rfl
  constructor
  · refine ⟨_, _, _, _, _, rfl, rfl, ?_⟩
    have distinct : ["first/f", "second/f"].Nodup := by decide
    rcases @truncate_resizes_iff _ DeviceShelf.backend
        (unalignedConfig .xor [.cipher, .devices]) noPrompt [] [] _ _ _ rfl
        (by decide) ⟨["f"]⟩ 420 _ (DeviceShelf.serves distinct)
        { storage := { coder := .xor, host := [] } } _ _
        ⟨Nat.lt_succ_self 1, rfl⟩ ⟨rfl, by decide, rfl⟩ rfl
        _ (own _) with
      ⟨held, -, cuts, -⟩
    rcases cuts none 6 (.inl rfl) with ⟨left, -, resized, -⟩
    exact ⟨held, left, resized (by decide)⟩
  · refine ⟨_, _, _, _, _, rfl, rfl, ?_⟩
    have distinct :
        ["first/f-00000.data", "second/f-00000.parity"].Nodup := by
      decide
    have fits := (@top_of_unaligned _ DeviceShelf.backend
      (unalignedConfig .erasure [.devices]) noPrompt [] [] _ _ _ rfl
      (by decide)).2.1
    rcases @truncate_resizes_iff _ DeviceShelf.backend
        (unalignedConfig .erasure [.devices]) noPrompt [] [] _ _ _ rfl
        (by decide) ⟨["f"]⟩ 420 _ (DeviceShelf.serves distinct)
        { storage := { coder := _, host := [] } } _ _
        ⟨fits, rfl⟩ ⟨rfl, by decide, rfl⟩ rfl _ (own _) with
      ⟨held, -, cuts, -⟩
    have grows := Nat.lt_succ_self held
    rcases cuts none (held + 1) (.inl rfl) with ⟨left, -, -, broken⟩
    exact ⟨held, left, broken rfl grows⟩

/-- A cut inside of a block of a code leaves the size that was asked for, and
the block is still read as a whole. -/
theorem truncate_keeps_block :
    ∃ pipeline coder registry,
      (assemble DeviceShelf.backend (unalignedConfig .erasure [.devices])
          noPrompt).execute [] = (.ok (pipeline, coder, registry), []) ∧
        ((do
          let handle ← pipeline.top.create ⟨["f"]⟩ 420
          let written ← pipeline.top.write ⟨["f"]⟩ handle 0 [0, 1, 2, 3]
          pipeline.top.truncate ⟨["f"]⟩ (some handle) 2
          let size ← pipeline.top.fileSize ⟨["f"]⟩ none
          let data ← pipeline.top.read ⟨["f"]⟩ handle 0 4
          return (written, size, data)).execute
            { storage := { coder, host := [] } }).1 =
          .ok (4, 2, [0, 1, 2, 3]) :=
  ⟨_, _, _, rfl, rfl⟩

end Pipeline

end Strata
