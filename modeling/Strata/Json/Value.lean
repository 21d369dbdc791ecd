import Strata.Text.Decimal
import Strata.Text.Quoted

/-!
# JSON values

A value as it was read from a text that may be at fault.  A fault does not
hide what stands before it: an array or an object that is not closed has the
items up to the fault, and a value that is no value at all is `broken`.  So
whoever takes a value apart in reading order meets a fault exactly where it
stands in the text.
-/

namespace Strata

/-- A JSON value. -/
inductive Json where
  | null
  | boolean (value : Bool)
  | integer (value : Int)
  /-- A number that is no integer of 64 bits, as the bits of the fraction that
  it is taken for. -/
  | real (bits : UInt64)
  | string (text : String)
  | array (items : List Json) (closed : Bool)
  /-- The names and values; a name that stands for no text is missing. -/
  | object (fields : List (Option String × Json)) (closed : Bool)
  /-- A text or a number in the right form that stands for nothing. -/
  | valueless
  /-- The place where a text ceases to be JSON. -/
  | broken
  deriving Repr, Inhabited

namespace Json

/-- The array of the given items. -/
def ofItems
    (items : List Json) :
    Json :=
  .array items true

/-- The object of the given fields. -/
def ofFields
    (fields : List (String × Json)) :
    Json :=
  .object (fields.map fun (name, value) => (some name, value)) true

/-- The value, or null if there is none. -/
def ofOption :
    Option Json → Json
  | some value => value
  | none => .null

/-- Whether the text of a value has the right form. -/
def isFormed :
    Json → Bool
  | .array _ closed => closed
  | .object _ closed => closed
  | .broken => false
  | _ => true

/-- What a message calls a value, if it is one. -/
def kind? :
    Json → Option String
  | .null => some "null"
  | .boolean true => some "boolean `true`"
  | .boolean false => some "boolean `false`"
  | .integer value => some ("integer `" ++ toString value ++ "`")
  | .real bits =>
    some ("floating point `" ++ Text.Decimal.ofBits bits ++ "`")
  | .string text => some ("string " ++ Text.quoted text)
  | .array _ _ => some "sequence"
  | .object _ _ => some "map"
  | .valueless => none
  | .broken => none

end Json

end Strata
