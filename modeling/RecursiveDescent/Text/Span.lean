import RecursiveDescent.Text.Symbol

/-!
# Positions and spans

Lines and columns count from one, and columns count symbols. A span from a later to an earlier
offset covers nothing.
-/
namespace RecursiveDescent

/-- A byte offset into a text, and the line and column there. -/
structure Position where
  offset : Nat
  line : Nat
  column : Nat
deriving DecidableEq

namespace Position

/-- The beginning of a text. -/
def start : Position := ⟨0, 1, 1⟩

/-- Behind the symbol `s`: a line further if it is a line break, else a column. -/
def after (p : Position) (s : Symbol) : Position :=
  if isLineBreak s.char then ⟨p.offset + s.width, p.line + 1, 1⟩
  else ⟨p.offset + s.width, p.line, p.column + 1⟩

def render (p : Position) : String :=
  s!"Line {p.line}, Column {p.column}, Offset {p.offset}"

end Position

/-- From `start` up to `stop`, the latter left out. -/
structure Span where
  start : Position
  stop : Position
deriving DecidableEq

namespace Span

def empty (p : Position) : Span := ⟨p, p⟩

def byteLength (s : Span) : Nat :=
  s.stop.offset - s.start.offset

def isEmpty (s : Span) : Bool :=
  s.byteLength == 0

/-- The text covered; nothing if the span does not fit the text. -/
def slice (s : Span) (t : Text) : Text :=
  (t.slice? s.start.offset s.stop.offset).getD []

theorem isEmpty_empty (p : Position) : (Span.empty p).isEmpty = true := by
  simp [empty, isEmpty, byteLength]

example : (⟨⟨3, 1, 4⟩, ⟨1, 1, 2⟩⟩ : Span).isEmpty ∧
    (⟨⟨3, 1, 4⟩, ⟨1, 1, 2⟩⟩ : Span).slice ['a', 'b', 'c', 'd'] = [] := by decide

end Span

end RecursiveDescent
