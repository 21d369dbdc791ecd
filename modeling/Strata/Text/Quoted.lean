import Strata.Text.Shown

/-!
# Quoted text in messages

A message that names a character or a text puts it between quotes.  Inside,
a backslash and the surrounding quote are escaped with a backslash, the tab,
the line ends and the null character have their letters, and every other
hidden character is written as `\u{…}` with its code point in hexadecimal.
-/

namespace Strata.Text

/-- One character between `quote` marks. -/
def escaped
    (quote character : Char) :
    List Char :=
  if character = quote ∨ character = '\\' then
    ['\\', character]
  else if character = '\t' then
    ['\\', 't']
  else if character = '\n' then
    ['\\', 'n']
  else if character = '\r' then
    ['\\', 'r']
  else if character = '\x00' then
    ['\\', '0']
  else if isShown character then
    [character]
  else
    ['\\', 'u', '\x7b'] ++ Nat.toDigits 16 character.toNat ++ ['\x7d']

/-- A character in single quotes. -/
def quotedCharacter
    (character : Char) :
    String :=
  String.ofList (['\''] ++ escaped '\'' character ++ ['\''])

/-- A text in double quotes. -/
def quoted
    (text : String) :
    String :=
  String.ofList (['"'] ++ text.toList.flatMap (escaped '"') ++ ['"'])

end Strata.Text
