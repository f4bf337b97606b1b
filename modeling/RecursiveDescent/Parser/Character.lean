import RecursiveDescent.Parser.Basic
import RecursiveDescent.Unicode.Class

/-!
# Parsers of one character, of runs of characters, and of the end

All of them read a line break `\r\n` as the character `\n`.
-/
namespace RecursiveDescent

namespace Text

/-- Bytes of the longest run of accepted symbols at the beginning. -/
def runLength (accepts : Char → Bool) : Text → Nat
  | '\r' :: '\n' :: rest => if accepts '\n' then 2 + runLength accepts rest else 0
  | c :: rest => if accepts c then c.utf8Size + runLength accepts rest else 0
  | [] => 0

end Text

namespace Parser

def endOfFile : String := "Reached the end of file while parsing"

/-- Over the symbol ahead. -/
def takeSymbol (expected : String) : Run Span := do
  match ← Run.take 1 with
  | some (_, span) => return span
  | none => Run.failAtEnd endOfFile expected

def codePoint (label : String) (c : Char) : Parser Char where
  label
  run := do
    let expected := String.singleton c
    match (← Run.reader).peek? with
    | none => Run.failAtEnd endOfFile expected
    | some d =>
      if d = c then return ⟨d, ← takeSymbol expected⟩
      else Run.failHere s!"Failed to parse {label}" expected (String.singleton d)

/-- One accepted character. At the end it fails as it does for a character that is refused. -/
def oneWhere (label message expected : String) (accepts : Char → Bool) : Parser Char where
  label
  run := do
    match (← Run.reader).peek? with
    | some c =>
      if accepts c then return ⟨c, ← takeSymbol label⟩
      else Run.failHere message expected (String.singleton c)
    | none => Run.failAtEnd message expected

def satisfy (label : String) (accepts : Char → Bool) : Parser Char :=
  oneWhere label "Char parser with predicate failed." label accepts

def oneOf (label : String) (chars : Text) : Parser Char :=
  let listed := String.ofList chars.quoted
  oneWhere label s!"Failed to parse {label}" s!"one of {listed}" chars.contains

def noneOf (label : String) (chars : Text) : Parser Char :=
  let listed := String.ofList chars.quoted
  oneWhere label s!"Failed to parse {label}" s!"none of {listed}" (!chars.contains ·)

/-- As many accepted symbols as there are, perhaps none. -/
def takeWhile (label : String) (accepts : Char → Bool) : Parser Text where
  label
  run := do
    match ← Run.takeBytes ((← Run.reader).remaining.runLength accepts) with
    | some (text, span) => return ⟨text, span⟩
    | none => Run.failAtEnd endOfFile label

def spaces : Parser Text :=
  takeWhile "spaces" Unicode.isWhiteSpace

def endOfInput : Parser Unit where
  label := "end of input"
  run := do
    if (← Run.reader).atEnd then return ⟨(), .empty (← Run.position)⟩
    else Run.failHere "Expected end of input" endMark (← Run.found)

end Parser

end RecursiveDescent
