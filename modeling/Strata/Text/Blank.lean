/-!
# Blank characters

The characters that Unicode gives the property `White_Space`, and the text
that is left when they are taken off both ends.
-/

namespace Strata.Text

/-- The characters with the Unicode property `White_Space`, in order. -/
def blanks :
    List Char :=
  ['\t', '\n', '\x0b', '\x0c', '\r', ' ', '\u0085', '\u00a0', '\u1680',
    '\u2000', '\u2001', '\u2002', '\u2003', '\u2004', '\u2005', '\u2006',
    '\u2007', '\u2008', '\u2009', '\u200a', '\u2028', '\u2029', '\u202f',
    '\u205f', '\u3000']

/-- Whether a character is blank. -/
def isBlank
    (character : Char) :
    Bool :=
  blanks.contains character

/-- The characters without the blanks at either end. -/
def trimBlanks
    (characters : List Char) :
    List Char :=
  ((characters.dropWhile isBlank).reverse.dropWhile isBlank).reverse

/-- The text without the blanks at either end. -/
def trim
    (text : String) :
    String :=
  String.ofList (trimBlanks text.toList)

end Strata.Text
