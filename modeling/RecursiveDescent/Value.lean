import RecursiveDescent.Text.Span
import RecursiveDescent.Unicode.Class

/-!
# Values of grammars

What grammars produce: characters and texts, what is put together from them, and the integers and
operations that are made of them afterwards. Integers have 64 bits and wrap around.
-/
namespace RecursiveDescent

namespace Text

def trim (t : Text) : Text :=
  ((t.dropWhile Unicode.isWhiteSpace).reverse.dropWhile Unicode.isWhiteSpace).reverse

/-- The number that ends with the digits of the text, `n` being what stands before them. -/
def digitsAfter? (n : Nat) : Text → Option Nat
  | [] => some n
  | c :: rest =>
    if Unicode.isAsciiDigit c then digitsAfter? (10 * n + (c.toNat - '0'.toNat)) rest else none

def digits? : Text → Option Nat
  | [] => none
  | c :: rest => digitsAfter? 0 (c :: rest)

/-- Digits with or without a sign. -/
def integer? : Text → Option Int
  | '-' :: rest => (digits? rest).map fun n => -(n : Int)
  | '+' :: rest => (digits? rest).map Int.ofNat
  | t => (digits? t).map Int.ofNat

def decimal (n : Int) : Text :=
  (toString n).toList

end Text

inductive Value where
  | char (c : Char)
  | text (t : Text)
  | unit
  | absent
  | present (v : Value)
  | list (vs : List Value)
  | pair (left right : Value)
  | located (v : Value) (span : Span)
  | int (n : Int64)
  | operation (operator left right : Value)

namespace Value

mutual

/-- All text in the value, in order; operations stand in round brackets. -/
def toText : Value → Text
  | .char c => [c]
  | .text t => t
  | .unit => []
  | .absent => []
  | .present v => v.toText
  | .list vs => listToText vs
  | .pair l r => l.toText ++ r.toText
  | .located v _ => v.toText
  | .int n => Text.decimal n.toInt
  | .operation op l r => '(' :: (l.toText ++ op.toText ++ r.toText ++ [')'])

def listToText : List Value → Text
  | [] => []
  | v :: vs => v.toText ++ listToText vs

end

/-- The integer a text stands for; zero if it stands for none of 64 bits. -/
def intOfText (t : Text) : Int64 :=
  match t.integer? with
  | some n => if Int64.minValue.toInt ≤ n ∧ n ≤ Int64.maxValue.toInt then Int64.ofInt n else 0
  | none => 0

def toInt : Value → Int64
  | .int n => n
  | v => intOfText v.toText

/-- A value that is no pair is taken for a pair with nothing. -/
def toPair : Value → Value × Value
  | .pair l r => (l, r)
  | v => (v, .unit)

/-- The items of a list, the characters of anything else. -/
def size : Value → Nat
  | .list vs => vs.length
  | v => v.toText.length

/-! ## Values made of values -/

def asText (v : Value) : Value :=
  .text v.toText

def asInt (v : Value) : Value :=
  .int v.toInt

def asSize (v : Value) : Value :=
  .int (Int64.ofNat v.size)

def negate (v : Value) : Value :=
  .int (-v.toInt)

def double (v : Value) : Value :=
  .int (2 * v.toInt)

/-- `a` to the power of the last `bits` binary digits of `e`. -/
def powerBits (a : Int64) (e : Nat) : Nat → Int64
  | 0 => 1
  | bits + 1 =>
    let rest := powerBits (a * a) (e / 2) bits
    if e % 2 = 1 then a * rest else rest

/-- Negative exponents give zero, and large ones lose all but 32 bits. -/
def power (a b : Int64) : Int64 :=
  if b < 0 then 0 else powerBits a b.toInt.toNat 32

/-- Division goes towards zero, and by zero gives zero. An unknown operator gives its right
operand. -/
def calculate (operator : Text) (a b : Int64) : Int64 :=
  match operator with
  | ['+'] => a + b
  | ['-'] => a - b
  | ['*'] => a * b
  | ['/'] => if b = 0 then 0 else a / b
  | ['^'] => power a b
  | _ => b

def arithmetic (operator left right : Value) : Value :=
  .int (calculate operator.toText.trim left.toInt right.toInt)

/-! ## Tests on values -/

def isNonempty (v : Value) : Bool :=
  !v.toText.isEmpty

def isOneOf (texts : List Text) (v : Value) : Bool :=
  texts.contains v.toText

def isLongerThan (n : Nat) (v : Value) : Bool :=
  n < v.toText.length

example : (calculate ['^'] 3 5, calculate ['/'] (-7) 2, calculate ['?'] 1 2) = (243, -3, 2) := by
  decide

example :
    (intOfText ['-', '1', '2'], intOfText ['+'], intOfText ['1', '_', '0']) = (-12, 0, 0) := by
  decide

end Value

end RecursiveDescent
