import Strata.Json.Number

/-!
# Reading JSON

Reading never fails as a whole: it gives the value with its faults in place,
and the rest of the text unless there was a fault.  What is left behind a
document may only be blanks.
-/

namespace Strata.Json

/-- Whether a character may stand between two tokens. -/
def isBlank
    (character : Char) :
    Bool :=
  character == ' ' || character == '\n' || character == '\t' ||
    character == '\r'

/-- A text without the blanks that it begins with. -/
def skipBlanks
    (text : List Char) :
    List Char :=
  text.dropWhile isBlank

/-! ## Texts -/

/-- The characters of a text so far, the last one first. -/
structure Collected where
  characters : List Char := []
  /-- The first half of a pair of escapes that waits for the second one. -/
  pending : Option Nat := none
  /-- Whether every escape so far stands for something. -/
  sound : Bool := true
  deriving DecidableEq, Repr

namespace Collected

/-- Adds a character. -/
def push
    (collected : Collected)
    (character : Char) :
    Collected :=
  { characters := character :: collected.characters
    sound := collected.sound && collected.pending.isNone }

/-- Adds an escaped code unit.  A unit of the upper half of the pairs waits
for one of the lower half, and neither stands for anything alone. -/
def pushUnit
    (collected : Collected)
    (unit : Nat) :
    Collected :=
  match collected.pending with
  | none =>
    if 0xd800 ≤ unit ∧ unit ≤ 0xdbff then
      { collected with pending := some unit }
    else if 0xdc00 ≤ unit ∧ unit ≤ 0xdfff then
      { collected with sound := false }
    else
      collected.push (Char.ofNat unit)
  | some upper =>
    if 0xdc00 ≤ unit ∧ unit ≤ 0xdfff then
      { characters :=
          Char.ofNat (0x10000 + (upper - 0xd800) * 0x400 + (unit - 0xdc00)) ::
            collected.characters
        sound := collected.sound }
    else
      { collected with pending := none, sound := false }

/-- The text that was collected. -/
def toJson
    (collected : Collected) :
    Json :=
  if collected.sound && collected.pending.isNone then
    .string (String.ofList collected.characters.reverse)
  else
    .valueless

end Collected

/-- The value of a hexadecimal digit. -/
def hexValue?
    (digit : Char) :
    Option Nat :=
  if '0' ≤ digit ∧ digit ≤ '9' then
    some (digit.toNat - '0'.toNat)
  else if 'a' ≤ digit ∧ digit ≤ 'f' then
    some (digit.toNat - 'a'.toNat + 10)
  else if 'A' ≤ digit ∧ digit ≤ 'F' then
    some (digit.toNat - 'A'.toNat + 10)
  else
    none

/-- The code unit of four hexadecimal digits. -/
def unit?
    (first second third fourth : Char) :
    Option Nat := do
  return (← hexValue? first) * 0x1000 + (← hexValue? second) * 0x100 +
    (← hexValue? third) * 0x10 + (← hexValue? fourth)

/-- The character that a letter behind a backslash stands for. -/
def escape? :
    Char → Option Char
  | '"' => some '"'
  | '\\' => some '\\'
  | '/' => some '/'
  | 'b' => some '\x08'
  | 'f' => some '\x0c'
  | 'n' => some '\n'
  | 'r' => some '\r'
  | 't' => some '\t'
  | _ => none

/-- Reads a text behind its opening quote. -/
def readText
    (collected : Collected) :
    List Char → Json × Option (List Char)
  | [] => (.broken, none)
  | '"' :: rest => (collected.toJson, some rest)
  | '\\' :: 'u' :: first :: second :: third :: fourth :: rest =>
    match unit? first second third fourth with
    | some unit => readText (collected.pushUnit unit) rest
    | none => (.broken, none)
  | '\\' :: letter :: rest =>
    match escape? letter with
    | some character => readText (collected.push character) rest
    | none => (.broken, none)
  | character :: rest =>
    if character < ' ' then
      (.broken, none)
    else
      readText (collected.push character) rest

/-! ## Values -/

/-- The name that a text stands for as a name of a field. -/
def name? :
    Json → Option String
  | .string name => some name
  | _ => none

mutual

/-- Reads a value. -/
def readValue :
    (fuel : Nat) → List Char → Json × Option (List Char)
  | 0, _ => (.broken, none)
  | fuel + 1, text =>
    match skipBlanks text with
    | '"' :: rest => readText {} rest
    | '[' :: rest =>
      match skipBlanks rest with
      | ']' :: rest => (.array [] true, some rest)
      | rest =>
        let (items, rest) := readItems fuel rest
        (.array items rest.isSome, rest)
    | '\x7b' :: rest =>
      match skipBlanks rest with
      | '\x7d' :: rest => (.object [] true, some rest)
      | rest =>
        let (fields, rest) := readFields fuel rest
        (.object fields rest.isSome, rest)
    | 'n' :: 'u' :: 'l' :: 'l' :: rest => (.null, some rest)
    | 't' :: 'r' :: 'u' :: 'e' :: rest => (.boolean true, some rest)
    | 'f' :: 'a' :: 'l' :: 's' :: 'e' :: rest => (.boolean false, some rest)
    | rest =>
      match number? rest with
      | some (number, rest) => (number, some rest)
      | none => (.broken, none)

/-- Reads the items of an array up to its end. -/
def readItems :
    (fuel : Nat) → List Char → List Json × Option (List Char)
  | 0, _ => ([], none)
  | fuel + 1, text =>
    match readValue fuel text with
    | (item, none) => ([item], none)
    | (item, some rest) =>
      match skipBlanks rest with
      | ']' :: rest => ([item], some rest)
      | ',' :: rest =>
        let (items, rest) := readItems fuel rest
        (item :: items, rest)
      | _ => ([item], none)

/-- Reads the fields of an object up to its end. -/
def readFields :
    (fuel : Nat) → List Char →
      List (Option String × Json) × Option (List Char)
  | 0, _ => ([], none)
  | fuel + 1, text =>
    match skipBlanks text with
    | '"' :: rest =>
      match readText {} rest with
      | (_, none) => ([], none)
      | (name, some rest) =>
        match skipBlanks rest with
        | ':' :: rest =>
          match readValue fuel rest with
          | (value, none) => ([(name? name, value)], none)
          | (value, some rest) =>
            match skipBlanks rest with
            | '\x7d' :: rest => ([(name? name, value)], some rest)
            | ',' :: rest =>
              let (fields, rest) := readFields fuel rest
              ((name? name, value) :: fields, rest)
            | _ => ([(name? name, value)], none)
        | _ => ([(name? name, .broken)], none)
    | _ => ([], none)

end

/-- The fuel that reading a text takes: every character is the first one of at
most two steps. -/
def readingFuel
    (text : List Char) :
    Nat :=
  2 * text.length + 2

/-- Reads a text, and tells whether nothing but a value and blanks is in it. -/
def read
    (text : String) :
    Json × Bool :=
  let characters := text.toList
  match readValue (readingFuel characters) characters with
  | (value, none) => (value, false)
  | (value, some rest) => (value, (skipBlanks rest).isEmpty)

end Strata.Json
