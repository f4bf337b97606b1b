import RecursiveDescent.Parser.Basic

/-!
# One parser after the other

Each parser starts where the one before it stopped, and the failure of one undoes them all.
-/
namespace RecursiveDescent.Parser

variable {α β γ : Type}

def inOrderFailed : String := "Sequence parser failed."

/-- The parsers left, with the value of the one before them. -/
def inOrderFrom (label : String) (start : Position) :
    Option α → List (Parser α) → Run (Match α)
  | some value, [] => do return ⟨value, ⟨start, ← Run.position⟩⟩
  | none, [] => do Run.failHere inOrderFailed label (← Run.found)
  | _, p :: rest => do
    let m ← p.run.enclosing start inOrderFailed
    inOrderFrom label start (some m.value) rest

/-- All parsers in turn; the value is the last one's. -/
def inOrder (label : String) (parsers : List (Parser α)) : Parser α where
  label
  run := do inOrderFrom label (← Run.position) none parsers

def andThen (left : Parser α) (right : Parser β) : Parser (α × β) where
  label := s!"{left.label} then {right.label}"
  run := do
    let start ← Run.position
    let l ← left.run.enclosing start "Left of Then failed"
    let r ← right.run.enclosing start "Right of Then failed"
    return ⟨(l.value, r.value), ⟨start, r.next⟩⟩

/-- The first value of a pair; the span is that of both. -/
def fst (pair : Parser (α × β)) : Parser α where
  label := pair.label
  run := do
    let m ← pair.run.enclosing (← Run.position) "KeepLeft failed."
    return m.map Prod.fst

/-- The second value of a pair; the span is that of both. -/
def snd (pair : Parser (α × β)) : Parser β where
  label := pair.label
  run := do
    let m ← pair.run.enclosing (← Run.position) "KeepRight failed."
    return m.map Prod.snd

/-- What stands between two delimiters; the span is that of all three. -/
def between (opening : Parser α) (content : Parser β) (closing : Parser γ) : Parser β where
  label := s!"{content.label} between {opening.label} and {closing.label}"
  run := do
    let enclosed := fst (andThen (snd (andThen opening content)) closing)
    enclosed.run.enclosing (← Run.position) "Between combinator failed."

end RecursiveDescent.Parser
