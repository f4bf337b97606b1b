import RecursiveDescent.Text.Basic

/-!
# Symbols and lines

Parsers read a text symbol by symbol: a code point is a symbol, and so is the pair `\r\n`, which
reads as `\n` and is two bytes wide. A line ends with `\n`, with `\r\n`, or with a `\r` that no
`\n` follows.
-/
namespace RecursiveDescent

structure Symbol where
  char : Char
  width : Nat
deriving DecidableEq

def isLineBreak (c : Char) : Bool :=
  c == '\r' || c == '\n'

namespace Text

def firstSymbol? : Text → Option Symbol
  | '\r' :: '\n' :: _ => some ⟨'\n', 2⟩
  | c :: _ => some ⟨c, c.utf8Size⟩
  | [] => none

/-- The offsets just after each line break of a text that begins at offset `start`. -/
def lineEnds : Nat → Text → List Nat
  | _, [] => []
  | start, '\r' :: '\n' :: rest => (start + 2) :: lineEnds (start + 2) rest
  | start, c :: rest =>
    if isLineBreak c then (start + 1) :: lineEnds (start + 1) rest
    else lineEnds (start + c.utf8Size) rest

/-- The offsets at which lines begin. The empty text has no lines. -/
def lineStarts : Text → List Nat
  | [] => []
  | c :: rest => 0 :: lineEnds 0 (c :: rest)

/-- Takes every line break off the end. -/
def trimLineBreaks (t : Text) : Text :=
  (t.reverse.dropWhile isLineBreak).reverse

example : firstSymbol? ['\r', '\n', 'x'] = some ⟨'\n', 2⟩ ∧
    firstSymbol? ['\r', 'x'] = some ⟨'\r', 1⟩ := by decide

example : lineStarts ['a', '\r', '\r', '\n', 'é', '\n'] = [0, 2, 4, 7] := by decide

end Text

end RecursiveDescent
