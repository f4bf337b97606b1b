import RecursiveDescent.Unicode.Alphabetic
import RecursiveDescent.Unicode.Numeric
import RecursiveDescent.Unicode.WhiteSpace

/-!
# Classes of characters

Digits and letters of either case are meant beyond ASCII here, except where the name says so.
-/
namespace RecursiveDescent.Unicode

def isLetter (c : Char) : Bool :=
  alphabetic.mem c

def isAlphanumeric (c : Char) : Bool :=
  alphabetic.mem c || numeric.mem c

def isWhiteSpace (c : Char) : Bool :=
  whiteSpace.mem c

def isAsciiDigit (c : Char) : Bool :=
  '0' ≤ c && c ≤ '9'

def isAsciiUpper (c : Char) : Bool :=
  'A' ≤ c && c ≤ 'Z'

def isAsciiLower (c : Char) : Bool :=
  'a' ≤ c && c ≤ 'z'

example : isLetter 'ß' ∧ isAlphanumeric '٣' ∧ ¬ isAsciiDigit '٣' := by decide +kernel

end RecursiveDescent.Unicode
