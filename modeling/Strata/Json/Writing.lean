import Strata.Json.Value

/-!
# Writing JSON

A value is written over several lines: every item of an array and every field
of an object has a line of its own, indented by two spaces more than the line
it belongs to.  An empty array or object stays on its line.
-/

namespace Strata.Json

/-- A character inside a written text. -/
def escapedInText
    (character : Char) :
    List Char :=
  if character = '"' ∨ character = '\\' then
    ['\\', character]
  else if character = '\x08' then
    ['\\', 'b']
  else if character = '\x0c' then
    ['\\', 'f']
  else if character = '\n' then
    ['\\', 'n']
  else if character = '\r' then
    ['\\', 'r']
  else if character = '\t' then
    ['\\', 't']
  else if character < ' ' then
    ['\\', 'u', '0', '0', Nat.digitChar (character.toNat / 16),
      Nat.digitChar (character.toNat % 16)]
  else
    [character]

/-- A written text. -/
def writtenText
    (text : String) :
    List Char :=
  '"' :: text.toList.flatMap escapedInText ++ ['"']

/-- The start of a line at a depth. -/
def newLine
    (depth : Nat) :
    List Char :=
  '\n' :: List.replicate (2 * depth) ' '

mutual

/-- A written value whose line has the given depth. -/
def written
    (depth : Nat) :
    Json → List Char
  | .null => "null".toList
  | .boolean true => "true".toList
  | .boolean false => "false".toList
  | .integer value => (toString value).toList
  | .real bits => (Text.Decimal.ofBits bits).toList
  | .string text => writtenText text
  | .array [] _ => ['[', ']']
  | .array (item :: items) _ =>
    '[' :: newLine (depth + 1) ++ written (depth + 1) item ++
      writtenItems (depth + 1) items ++ newLine depth ++ [']']
  | .object [] _ => ['\x7b', '\x7d']
  | .object ((name, value) :: fields) _ =>
    '\x7b' :: newLine (depth + 1) ++ writtenText (name.getD "") ++ [':', ' '] ++
      written (depth + 1) value ++ writtenFields (depth + 1) fields ++
      newLine depth ++ ['\x7d']
  | .valueless => []
  | .broken => []

/-- The items behind the first one. -/
def writtenItems
    (depth : Nat) :
    List Json → List Char
  | [] => []
  | item :: items =>
    ',' :: newLine depth ++ written depth item ++ writtenItems depth items

/-- The fields behind the first one. -/
def writtenFields
    (depth : Nat) :
    List (Option String × Json) → List Char
  | [] => []
  | (name, value) :: fields =>
    ',' :: newLine depth ++ writtenText (name.getD "") ++ [':', ' '] ++
      written depth value ++ writtenFields depth fields

end

/-- The text of a value. -/
def write
    (value : Json) :
    String :=
  String.ofList (written 0 value)

end Strata.Json
