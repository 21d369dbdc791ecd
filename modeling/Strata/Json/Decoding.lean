import Strata.Json.Value
import Strata.Text.Pieces

/-!
# Taking JSON values apart

A decoder takes a value apart in reading order and reports the first fault
that it meets: either the text is no JSON from some place on, or a value is
not of the kind that is expected there.

A record may be written as an object or as an array of its fields in order.
Fields of other names are passed over, and no field may occur twice.  A choice
between names may be written as the name alone or as an object whose only
field has that name.
-/

namespace Strata.Json

/-- Why a value cannot be decoded. -/
inductive Fault where
  /-- The text is no JSON. -/
  | malformed
  /-- A value is not what it is expected to be. -/
  | mismatch (reason : String)
  deriving DecidableEq, Repr, Inhabited

/-- What takes values of a type out of JSON. -/
abbrev Decoder
    (α : Type) :=
  Json → Except Fault α

/-- A name between the marks that messages put around names. -/
def marked
    (name : String) :
    String :=
  "`" ++ name ++ "`"

/-- The fault of a value of the wrong kind. -/
def wrongKind
    (value : Json)
    (expected : String) :
    Fault :=
  match value.kind? with
  | some kind =>
    .mismatch ("invalid type: " ++ kind ++ ", expected " ++ expected)
  | none => .malformed

/-- Passes over a value. -/
def pass
    (value : Json) :
    Except Fault Unit :=
  if value.isFormed then .ok () else .error .malformed

/-- Refuses an array or object that is not closed. -/
def close
    (closed : Bool) :
    Except Fault Unit :=
  if closed then .ok () else .error .malformed

/-- A natural number. -/
def natural
    (expected : String) :
    Decoder Nat
  | .integer value =>
    if 0 ≤ value then
      .ok value.toNat
    else
      .error (.mismatch
        ("invalid value: integer " ++ marked (toString value) ++
          ", expected " ++ expected))
  | value => .error (wrongKind value expected)

/-- A text. -/
def text
    (expected : String) :
    Decoder String
  | .string content => .ok content
  | value => .error (wrongKind value expected)

/-- Nothing. -/
def unit :
    Decoder Unit
  | .null => .ok ()
  | value => .error (wrongKind value "unit")

/-- A value that may be null. -/
def optional
    {α : Type}
    (decode : Decoder α) :
    Decoder (Option α)
  | .null => .ok none
  | value => (decode value).map some

/-- A list of values. -/
def list
    {α : Type}
    (decode : Decoder α) :
    Decoder (List α)
  | .array items closed => do
    let values ← items.mapM decode
    close closed
    return values
  | value => .error (wrongKind value "a sequence")

/-! ## Records -/

/-- A field of a record and how to set it. -/
structure Field
    (α : Type) where
  name : String
  /-- Whether the field has to be given. -/
  required : Bool
  set : α → Json → Except Fault α

/-- Sets fields by their names, where some are already set. -/
def setNamed
    {α : Type}
    (fields : List (Field α))
    (seen : List String)
    (record : α) :
    List (Option String × Json) → Except Fault (List String × α)
  | [] => .ok (seen, record)
  | (none, _) :: _ => .error .malformed
  | (some name, value) :: rest =>
    match fields.find? (·.name == name) with
    | none => do
      pass value
      setNamed fields seen record rest
    | some field =>
      if seen.contains name then
        .error (.mismatch ("duplicate field " ++ marked name))
      else do
        let record ← field.set record value
        setNamed fields (name :: seen) record rest

/-- The fault of an array that ends too early. -/
def wrongLength
    (given : Nat)
    (expected : String)
    (fields : Nat) :
    Fault :=
  .mismatch
    ("invalid length " ++ toString given ++ ", expected " ++ expected ++
      " with " ++ toString fields ++
      (if fields = 1 then " element" else " elements"))

/-- Sets fields in their order; gives the items that are left over. -/
def setInOrder
    {α : Type}
    (closed : Bool)
    (short : Nat → Fault)
    (position : Nat)
    (record : α) :
    List (Field α) → List Json → Except Fault (List Json × α)
  | [], items => .ok (items, record)
  | field :: fields, item :: items => do
    let record ← field.set record item
    setInOrder closed short (position + 1) record fields items
  | field :: fields, [] => do
    close closed
    if field.required then
      throw (short position)
    setInOrder closed short (position + 1) record fields []

/-- A record; the fields that are not given keep their values. -/
def record
    {α : Type}
    (expected : String)
    (fields : List (Field α))
    (initial : α) :
    Decoder α
  | .object given closed => do
    let (seen, record) ← setNamed fields [] initial given
    close closed
    match fields.find? fun field =>
        field.required && !seen.contains field.name with
    | some field => throw (.mismatch ("missing field " ++ marked field.name))
    | none => return record
  | .array items closed => do
    let (left, record) ←
      setInOrder closed (wrongLength · expected fields.length) 0 initial
        fields items
    close (closed && left.isEmpty)
    return record
  | value => .error (wrongKind value expected)

/-! ## Choices -/

/-- A name that can be chosen, and what it stands for; a value comes with the
name if it is the name of a field. -/
structure Variant
    (α : Type) where
  name : String
  decode : Option Json → Except Fault α

/-- A name that stands for a value of its own. -/
def plain
    {α : Type}
    (name : String)
    (value : α) :
    Variant α where
  name
  decode given := do
    if let some given := given then
      unit given
    return value

/-- A name that comes with a value. -/
def carrying
    {α : Type}
    (name form : String)
    (decode : Decoder α) :
    Variant α where
  name
  decode given :=
    match given with
    | some given => decode given
    | none =>
      .error (.mismatch ("invalid type: unit variant, expected " ++ form))

/-- The variant of a name. -/
def variant
    {α : Type}
    (variants : List (Variant α))
    (name : String) :
    Except Fault (Variant α) :=
  match variants.find? (·.name == name) with
  | some variant => .ok variant
  | none =>
    .error (.mismatch
      ("unknown variant " ++ marked name ++ ", expected one of " ++
        String.intercalate ", " (variants.map fun variant =>
          marked variant.name)))

/-- A choice between names. -/
def choice
    {α : Type}
    (variants : List (Variant α)) :
    Decoder α
  | .string name => do
    let variant ← variant variants name
    variant.decode none
  | .object ((some name, value) :: rest) closed => do
    let variant ← variant variants name
    let chosen ← variant.decode (some value)
    close (closed && rest.isEmpty)
    return chosen
  | _ => .error .malformed

end Strata.Json
