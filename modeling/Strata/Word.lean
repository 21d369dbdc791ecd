/-!
# Words

Sizes and offsets are words of sixty-four bits.  A sum or a product that does
not fit into a word loses what is above it, so that it starts over from zero.
-/

namespace Strata

/-- How many words there are, two to the power of sixty-four. -/
def wordCount : Nat :=
  0x10000000000000000

/-- What a word keeps of a number. -/
def wrapped
    (number : Nat) :
    Nat :=
  number % wordCount

theorem wrapped_of_lt
    {number : Nat}
    (fits : number < wordCount) :
    wrapped number = number :=
  Nat.mod_eq_of_lt fits

end Strata
