import RecursiveDescent.Parser.Basic

/-!
# Parsers that break their word

A leaky parser fails without giving back what it took. A handmade one may report another span than
the one it took.
-/
namespace RecursiveDescent

inductive ReportedSpan where
  | real
  | empty
  | reversed
deriving DecidableEq

/-- What is reported for the span `s`. -/
def ReportedSpan.of (s : Span) : ReportedSpan → Span
  | .real => s
  | .empty => .empty s.start
  | .reversed => ⟨s.stop, s.start⟩

namespace Parser

def leaky {α : Type} (label : String) (count : Nat) : Parser α where
  label
  run := do
    let _ ← Run.take count
    Run.failHere "leaked" "anything" "nothing"

def handmade (label : String) (count : Nat) (reported : ReportedSpan) : Parser Text where
  label
  run := do
    match ← Run.take count with
    | some (text, span) => return ⟨text, reported.of span⟩
    | none => Run.failAtEnd "custom ran out" label

end Parser

end RecursiveDescent
