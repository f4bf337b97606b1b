import RecursiveDescent.Parser.Basic

/-!
# Alternatives, guards and lookahead

These parsers run their parts from one position. What a part did to the reader before it failed is
undone.
-/
namespace RecursiveDescent.Parser

variable {α : Type}

def choiceFailed : String := "Or combinator failed"

/-- The alternatives left, with the failure of the one before them. -/
def choiceFrom (label : String) (start : Position) :
    Option Failure → List (Parser α) → Run (Match α)
  | some cause, [] => do Run.fail (cause.enclose choiceFailed (← Run.reader))
  | none, [] => do Run.failHere choiceFailed label (← Run.found)
  | _, p :: rest => do
    match ← p.run.observe with
    | .ok m => return m
    | .error f =>
      Run.rewind start
      choiceFrom label start (some f) rest

/-- The first alternative that succeeds. If all fail, the failure of the last one is the cause. -/
def choice (label : String) (alternatives : List (Parser α)) : Parser α where
  label
  run := do choiceFrom label (← Run.position) none alternatives

def either (first second : Parser α) : Parser α :=
  choice s!"{first.label} or {second.label}" [first, second]

def allOfFailed : String := "AllOf combinator failed"

/-- The parsers left, with the match of the one before them. -/
def allOfFrom (label : String) (start : Position) :
    Option (Match α) → List (Parser α) → Run (Match α)
  | some m, [] => return m
  | none, [] => do Run.failHere allOfFailed label (← Run.found)
  | _, p :: rest => do
    Run.rewind start
    let m ← p.run.enclosing start allOfFailed
    allOfFrom label start (some m) rest

/-- All parsers have to succeed from one position; the last one counts. -/
def allOf (label : String) (parsers : List (Parser α)) : Parser α where
  label
  run := do allOfFrom label (← Run.position) none parsers

def optional (p : Parser α) : Parser (Option α) where
  label := s!"optional {p.label}"
  run := do
    let start ← Run.position
    match ← p.run.orNothing start with
    | some m => return m.map some
    | none => return ⟨none, .empty start⟩

/-- Succeeds without taking anything where `p` fails. -/
def notAhead (label : String) (p : Parser α) : Parser Unit where
  label
  run := do
    let start ← Run.position
    match ← p.run.lookAhead start with
    | .ok m =>
      let text := String.ofList (m.text (← Run.input))
      Run.failHere "Negative lookahead failed: unexpected match" label text
    | .error _ => return ⟨(), .empty start⟩

/-- What `notAhead` is called where it has no label of its own. -/
def notAheadLabel (p : Parser α) : String :=
  s!"not {p.label}"

def attempt (p : Parser α) : Parser α where
  label := p.label
  run := do p.run.enclosing (← Run.position) "Attempt failed"

end RecursiveDescent.Parser
