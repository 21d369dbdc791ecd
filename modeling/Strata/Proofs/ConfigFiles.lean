import Strata.Config.Decoding
import Strata.Config.Encoding
import Strata.Proofs.JsonDocuments

/-!
# Configuration files

What a configuration is written as is read back as the same configuration.
Each part has a decoder that restores it; a record is restored field by field,
as long as no two of its fields have the same name.
-/

namespace Strata

namespace Json

variable {α : Type}

/-! ## Decoders that restore what was encoded -/

/-- A decoder takes every value out of what it is encoded as. -/
def Restores
    (decode : Decoder α)
    (encode : α → Json) :
    Prop :=
  ∀ value, decode (encode value) = .ok value

theorem optional_restores
    {decode : Decoder α}
    {encode : α → Json}
    (restores : Restores decode encode)
    (present : ∀ value, encode value ≠ .null) :
    Restores (optional decode) (fun value => .ofOption (value.map encode)) := by
  intro value
  cases value with
  | none => rfl
  | some value =>
      show optional decode (encode value) = .ok (some value)
      unfold optional
      split
      · rename_i absent
        exact absurd absent (present value)
      · rw [restores value]
        rfl

theorem list_restores
    {decode : Decoder α}
    {encode : α → Json}
    (restores : Restores decode encode) :
    Restores (list decode) (fun values => .ofItems (values.map encode)) := by
  intro values
  have items : (values.map encode).mapM decode = .ok values := by
    induction values with
    | nil => rfl
    | cons value rest ih =>
        rw [List.map_cons, List.mapM_cons, restores value]
        simp [ih, bind, Except.bind, pure, Except.pure]
  simp [ofItems, list, items, close, bind, Except.bind, pure, Except.pure]

theorem natural_restores
    (expected : String) :
    Restores (natural expected) (fun number => .integer number) := by
  intro number
  have positive : (0 : Int) ≤ number := Int.natCast_nonneg number
  simp [natural, positive]

theorem text_restores
    (expected : String) :
    Restores (text expected) .string :=
  fun _ => rfl

/-! ## Records -/

/-- Setting the fields of a record in their order leads from one record to
another. -/
inductive Sets :
    List (Field α) → List (String × Json) → α → α → Prop where
  | nil (record : α) : Sets [] [] record record
  | cons {field : Field α} {fields : List (Field α)} {value : Json}
      {given : List (String × Json)} {record next final : α}
      (set : field.set record value = .ok next)
      (rest : Sets fields given next final) :
      Sets (field :: fields) ((field.name, value) :: given) record final

/-- A field is found under its name if no other one has it. -/
theorem find?_name
    {before behind : List (Field α)}
    {field : Field α}
    (fresh : field.name ∉ before.map (·.name)) :
    (before ++ field :: behind).find? (·.name == field.name) = some field := by
  have none : before.find? (·.name == field.name) = none := by
    rw [List.find?_eq_none]
    intro other member same
    rw [← eq_of_beq same] at fresh
    exact fresh (List.mem_map_of_mem member)
  rw [List.find?_append, none, Option.none_or]
  exact List.find?_cons_of_pos (beq_self_eq_true field.name)

/-- The fields that are given in their order are set, and their names are all
seen. -/
theorem setNamed_of_sets
    {before fields : List (Field α)}
    {given : List (String × Json)}
    {record final : α}
    (sets : Sets fields given record final)
    (distinct : ((before ++ fields).map (·.name)).Nodup) :
    setNamed (before ++ fields) (before.map (·.name)).reverse record
        (given.map fun (name, value) => (some name, value)) =
      .ok (((before ++ fields).map (·.name)).reverse, final) := by
  induction sets generalizing before with
  | nil record =>
      rw [List.append_nil]
      rfl
  | @cons field fields value given record next final set rest ih =>
      have fresh : field.name ∉ before.map (·.name) := by
        rw [List.map_append, List.map_cons] at distinct
        intro member
        exact (List.nodup_append.mp distinct).2.2 _ member _
          List.mem_cons_self rfl
      have unseen :
          (before.map (·.name)).reverse.contains field.name = false := by
        simpa using fresh
      have split : before ++ field :: fields =
          (before ++ [field]) ++ fields := by
        simp
      have seen : field.name :: (before.map (·.name)).reverse =
          ((before ++ [field]).map (·.name)).reverse := by
        simp
      rw [List.map_cons, setNamed, find?_name fresh]
      simp only [unseen, Bool.false_eq_true, if_false, set, bind, Except.bind]
      rw [seen, split]
      exact ih (split ▸ distinct)

/-- A record whose fields are given in their order is read. -/
theorem record_ofFields
    {fields : List (Field α)}
    {given : List (String × Json)}
    {initial final : α}
    (expected : String)
    (distinct : (fields.map (·.name)).Nodup)
    (sets : Sets fields given initial final) :
    record expected fields initial (.ofFields given) = .ok final := by
  have named := @setNamed_of_sets α [] fields given initial final sets distinct
  have complete : fields.find? (fun field =>
      field.required && !(fields.map (·.name)).reverse.contains field.name) =
        none := by
    rw [List.find?_eq_none]
    intro field member
    have seen : (fields.map (·.name)).reverse.contains field.name = true := by
      simpa using ⟨field, member, rfl⟩
    simp only [seen, Bool.not_true, Bool.and_false, Bool.false_eq_true,
      not_false_eq_true]
  simp only [List.nil_append, List.map_nil, List.reverse_nil] at named
  simp only [ofFields, record, named, close, complete, bind, Except.bind]
  rfl

/-- A field is set when its value is read. -/
theorem set_of_decoded
    {β : Type}
    {decode : Decoder β}
    {value : Json}
    {part : β}
    (decoded : decode value = .ok part)
    (change : β → α) :
    (do return change (← decode value)) = (.ok (change part) : Except Fault α) := by
  rw [decoded]
  rfl

theorem carrying_some
    (name form : String)
    (decode : Decoder α)
    (value : Json) :
    (carrying name form decode).decode (some value) = decode value :=
  rfl

/-- A choice that comes with a value is read. -/
theorem choice_ofField
    {variants : List (Variant α)}
    {variant : Variant α}
    {name : String}
    {value : Json}
    {chosen : α}
    (found : variants.find? (·.name == name) = some variant)
    (decoded : variant.decode (some value) = .ok chosen) :
    choice variants (.ofFields [(name, value)]) = .ok chosen := by
  simp only [ofFields, List.map_cons, List.map_nil, choice, Json.variant,
    found, decoded, close, List.isEmpty_nil, Bool.and_true, if_true, bind,
    Except.bind]
  rfl

end Json

namespace Config

open Json (Restores)

/-! ## The parts of a configuration -/

theorem stageKind_restores :
    Restores stageKind (fun kind => .string kind.name) := by
  intro kind
  cases kind <;> rfl

theorem cipherMode_restores :
    Restores cipherMode (fun mode => .string mode.name) := by
  intro mode
  cases mode <;> rfl

theorem coderMode_restores :
    Restores coderMode (fun mode => .string mode.name) := by
  intro mode
  cases mode <;> rfl

theorem keyMaterial_restores :
    Restores keyMaterial encodeKey := by
  intro material
  cases material with
  | hex digits => rfl
  | passphrase passphrase salt =>
      have parts : passphraseParts (.ofFields
          [("passphrase", .string passphrase), ("salt", .string salt)]) =
            .ok (passphrase, salt) :=
        Json.record_ofFields _ (by decide) (.cons rfl (.cons rfl (.nil _)))
      refine Json.choice_ofField rfl ?_
      rw [Json.carrying_some, parts]
      rfl
  | prompt salt =>
      have parts : promptParts (.ofFields [("salt", .string salt)]) =
          .ok salt :=
        Json.record_ofFields _ (by decide) (.cons rfl (.nil _))
      refine Json.choice_ofField rfl ?_
      rw [Json.carrying_some, parts]
      rfl

theorem encodeKey_ne_null
    (material : KeyMaterial) :
    encodeKey material ≠ .null := by
  cases material <;> exact nofun

theorem optionalText_restores :
    Restores (Json.optional text)
      (fun value => .ofOption (value.map .string)) :=
  Json.optional_restores (Json.text_restores _) (fun _ => nofun)

theorem optionalPath_restores :
    Restores (Json.optional hostPath)
      (fun value => .ofOption (value.map .string)) :=
  Json.optional_restores (Json.text_restores _) (fun _ => nofun)

theorem quantity_restores :
    Restores quantity encodeNat :=
  Json.natural_restores _

theorem cipherConfig_restores :
    Restores cipherConfig encodeCipher := by
  intro config
  have mode := cipherMode_restores config.mode
  have key := Json.optional_restores keyMaterial_restores encodeKey_ne_null
    config.key
  have iv := optionalText_restores config.iv
  exact Json.record_ofFields _ (by decide)
    (.cons (Json.set_of_decoded mode _) <|
      .cons (Json.set_of_decoded key _) <|
        .cons (Json.set_of_decoded iv _) <| .nil _)

theorem erasureShape_restores :
    Restores erasureShape (fun shape =>
      .ofFields [("k", encodeNat shape.data), ("m", encodeNat shape.parity)]) := by
  intro shape
  have data := quantity_restores shape.data
  have parity := quantity_restores shape.parity
  exact Json.record_ofFields _ (by decide)
    (.cons (Json.set_of_decoded data _) <|
      .cons (Json.set_of_decoded parity _) <| .nil _)

theorem deviceConfig_restores :
    Restores deviceConfig encodeDevices := by
  intro config
  have mode := coderMode_restores config.mode
  have paths := Json.list_restores (Json.text_restores "path string") config.paths
  have count := Json.optional_restores quantity_restores (fun _ => nofun)
    config.count
  have erasure := erasureShape_restores config.erasure
  exact Json.record_ofFields _ (by decide)
    (.cons (Json.set_of_decoded mode _) <|
      .cons (Json.set_of_decoded paths _) <|
        .cons (Json.set_of_decoded count _) <|
          .cons (Json.set_of_decoded erasure _) <| .nil _)

theorem decode_restores :
    Restores decode encode := by
  intro config
  have size := Json.natural_restores "u64" config.blockSize
  have layers := Json.list_restores stageKind_restores config.layers
  have cipher := cipherConfig_restores config.cipher
  have devices := deviceConfig_restores config.devices
  have workers := quantity_restores config.workerThreads
  have directory := optionalPath_restores config.latencyDirectory
  have level := optionalText_restores config.logLevel
  exact Json.record_ofFields _ (by decide)
    (.cons (Json.set_of_decoded size _) <|
      .cons (Json.set_of_decoded layers _) <|
        .cons (Json.set_of_decoded cipher _) <|
          .cons (Json.set_of_decoded devices _) <|
            .cons (Json.set_of_decoded workers _) <|
              .cons (Json.set_of_decoded directory _) <|
                .cons (Json.set_of_decoded level _) <| .nil _)

/-! ## Whole files -/

/-- The numbers of a configuration fit into 64 bits. -/
structure Sized
    (config : Config) :
    Prop where
  blockSize : config.blockSize ≤ Json.wordLimit
  workerThreads : config.workerThreads ≤ Json.wordLimit
  data : config.devices.erasure.data ≤ Json.wordLimit
  parity : config.devices.erasure.parity ≤ Json.wordLimit
  count : ∀ count ∈ config.devices.count, count ≤ Json.wordLimit

theorem isWhole_encodeNat
    {number : Nat}
    (fits : number ≤ Json.wordLimit) :
    (encodeNat number).IsWhole := by
  constructor
  · exact Int.le_trans (by decide) (Int.natCast_nonneg number)
  · exact Int.ofNat_le.mpr fits

theorem allWhole_strings
    {α : Type}
    (text : α → String)
    (values : List α) :
    Json.AllWhole (values.map fun value => .string (text value)) := by
  induction values with
  | nil => trivial
  | cons value rest ih => exact ⟨trivial, ih⟩

theorem isWhole_optionalText
    (value : Option String) :
    (Json.ofOption (value.map .string)).IsWhole := by
  cases value <;> trivial

theorem isWhole_encodeKey
    (material : KeyMaterial) :
    (encodeKey material).IsWhole := by
  cases material with
  | hex digits => exact ⟨rfl, rfl, trivial, trivial⟩
  | passphrase passphrase salt =>
      exact ⟨rfl, rfl, ⟨rfl, rfl, trivial, rfl, trivial, trivial⟩, trivial⟩
  | prompt salt => exact ⟨rfl, rfl, ⟨rfl, rfl, trivial, trivial⟩, trivial⟩

/-- A configuration is written without faults and fractions. -/
theorem isWhole_encode
    {config : Config}
    (sized : config.Sized) :
    config.encode.IsWhole := by
  have cipher : (encodeCipher config.cipher).IsWhole := by
    have key : (Json.ofOption (config.cipher.key.map encodeKey)).IsWhole := by
      cases config.cipher.key with
      | none => trivial
      | some material => exact isWhole_encodeKey material
    exact ⟨rfl, rfl, trivial, rfl, key, rfl, isWhole_optionalText _, trivial⟩
  have devices : (encodeDevices config.devices).IsWhole := by
    have count : (Json.ofOption (config.devices.count.map encodeNat)).IsWhole := by
      cases counted : config.devices.count with
      | none => trivial
      | some count => exact isWhole_encodeNat (sized.count count counted)
    exact ⟨rfl, rfl, trivial, rfl, ⟨rfl, allWhole_strings id _⟩, rfl, count,
      rfl,
      ⟨rfl, rfl, isWhole_encodeNat sized.data, rfl,
        isWhole_encodeNat sized.parity, trivial⟩,
      trivial⟩
  exact ⟨rfl, rfl, isWhole_encodeNat sized.blockSize, rfl,
    ⟨rfl, allWhole_strings StageKind.name _⟩, rfl, cipher, rfl, devices, rfl,
    isWhole_encodeNat sized.workerThreads, rfl, isWhole_optionalText _, rfl,
    isWhole_optionalText _, trivial⟩

/-- The text of a configuration is read back, whether the configuration is
valid or not. -/
theorem ofText_toText
    {config : Config}
    (sized : config.Sized) :
    ofText config.toText = .ok config := by
  have written := Json.read_write (isWhole_encode sized)
  simp only [ofText, toText, written, decode_restores config, Json.close,
    bind, Except.bind, if_true]
  rfl

end Config

/-! ## Bytes -/

theorem toList_loop
    (bytes : ByteArray)
    (position : Nat)
    (done : List UInt8) :
    ByteArray.toList.loop bytes position done =
      done.reverse ++ bytes.data.toList.drop position := by
  induction position, done using ByteArray.toList.loop.induct bytes with
  | case1 position done inside ih =>
      have there : position < bytes.data.toList.length := inside
      have entry : bytes.get! position = bytes.data.toList[position] := by
        cases bytes with
        | mk data => exact getElem!_pos data position inside
      rw [ByteArray.toList.loop, if_pos inside, ih, List.reverse_cons,
        List.append_assoc, List.singleton_append, entry,
        ← List.drop_eq_getElem_cons there]
  | case2 position done outside =>
      rw [ByteArray.toList.loop, if_neg outside]
      rw [List.drop_of_length_le (by simpa using outside), List.append_nil]

theorem toArray_toList
    (bytes : ByteArray) :
    ByteArray.mk bytes.toList.toArray = bytes := by
  have all := toList_loop bytes 0 []
  rw [ByteArray.toList, all]
  rfl

/-- The bytes of a text stand for the text. -/
theorem fromUTF8?_toUTF8
    (text : String) :
    String.fromUTF8? ⟨text.toUTF8.toList.toArray⟩ = some text := by
  rw [toArray_toList]
  exact dif_pos text.isValidUTF8

namespace Config

/-- A file that holds the text of a valid configuration is loaded as this
configuration. -/
theorem load_toText
    {config : Config}
    (valid : config.validate = .ok ())
    (sized : config.Sized) :
    load (.ok config.toText.toUTF8.toList) = .ok config := by
  have unbroken : config.breach? = none := by
    unfold validate at valid
    cases breach : config.breach? with
    | none => rfl
    | some breach =>
        rw [breach] at valid
        cases valid
  simp only [load, fromUTF8?_toUTF8, ofText_toText sized, unbroken]

/-- A configuration whose texts have to be escaped. -/
def escapedConfig : Config where
  blockSize := 65536
  cipher :=
    { mode := .deterministic
      key := some (.passphrase "\"quoted\\\n\x00\x1f\x7f" "\u00e9\u20ac")
      iv := some "" }
  devices :=
    { mode := .erasure
      paths := ["/a b", "\t/\x08\x0c", ""]
      count := some 3 }
  workerThreads := 18446744073709551615
  logLevel := some "null"

theorem load_toText_of_escapedConfig :
    escapedConfig.validate = .ok () ∧
      load (.ok escapedConfig.toText.toUTF8.toList) = .ok escapedConfig := by
  have valid : escapedConfig.validate = .ok () := by decide +kernel
  have sized : escapedConfig.Sized := by
    constructor <;> decide +kernel
  exact ⟨valid, load_toText valid sized⟩

end Config

end Strata
