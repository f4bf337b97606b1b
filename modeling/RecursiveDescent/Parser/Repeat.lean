import RecursiveDescent.Parser.Basic

/-!
# Repetition

A repetition goes in rounds, and stops by itself after a round that takes nothing. A round that is
not the last takes a byte or more, so there are at most as many rounds as bytes ahead, and one.
-/
namespace RecursiveDescent.Parser

variable {α β : Type}

/-- Items until one fails or takes nothing. The latter is kept. -/
def items (item : Parser α) : Nat → Run (List α)
  | 0 => Run.exhaust
  | rounds + 1 => do
    match ← item.run.orNothing (← Run.position) with
    | none => return []
    | some m =>
      if m.span.isEmpty then return [m.value]
      else return m.value :: (← items item rounds)

def many (item : Parser α) : Parser (List α) where
  label := s!"zero or more {item.label}"
  run := do
    let start ← Run.position
    let values ← items item (← Run.rounds)
    return ⟨values, ⟨start, ← Run.position⟩⟩

/-- The items after the first one, which ends the repetition if it took nothing. -/
def itemsAfter (first : Match α) (item : Parser α) : Run (List α) := do
  if first.span.isEmpty then return []
  else items item (← Run.rounds)

/-- Fails at its start if there is no item, as one that was expected once and found zero times. -/
def many1 (item : Parser α) : Parser (List α) where
  label := s!"one or more {item.label}"
  run := do
    let start ← Run.position
    match ← item.run.observe with
    | .error cause =>
      Run.rewind start
      let f := cause.enclose "Many1 parser failed." (← Run.reader)
      Run.fail
        ((f.withExpected s!"{item.label} at least once").withFound s!"{item.label} zero times")
    | .ok first =>
      let rest ← itemsAfter first item
      return ⟨first.value :: rest, ⟨start, ← Run.position⟩⟩

def sepByFailed : String := "SeparatedBy combinator failed."

/-- In each round a delimiter and an item, until there is no delimiter or a round takes nothing. -/
def delimitedItems (item : Parser α) (delimiter : Parser β) (start : Position) :
    Nat → Run (List α)
  | 0 => Run.exhaust
  | rounds + 1 => do
    let checkpoint ← Run.position
    match ← delimiter.run.orNothing checkpoint with
    | none => return []
    | some _ =>
      let m ← item.run.enclosing start sepByFailed
      if checkpoint.offset < (← Run.position).offset then
        return m.value :: (← delimitedItems item delimiter start rounds)
      else return [m.value]

/-- Items with a delimiter between two, one item at least. A delimiter has to be followed by an
item. -/
def sepBy (item : Parser α) (delimiter : Parser β) : Parser (List α) where
  label := s!"{item.label} separated by {delimiter.label}"
  run := do
    let start ← Run.position
    let first ← item.run.enclosing start sepByFailed
    let rest ← delimitedItems item delimiter start (← Run.rounds)
    return ⟨first.value :: rest, ⟨start, ← Run.position⟩⟩

/-- An item that takes something. -/
def progressing (item : Parser α) (ending : Parser β) : Run (Match α) := do
  let m ← item.run
  if m.span.isEmpty then
    Run.failHere s!"{item.label} made no progress" ending.label (← Run.found)
  else return m

def itemsTill (item : Parser α) (ending : Parser β) (start : Position) : Nat → Run (List α)
  | 0 => Run.exhaust
  | rounds + 1 => do
    match ← ending.run.lookAhead (← Run.position) with
    | .ok _ => return []
    | .error _ =>
      let m ← (progressing item ending).enclosing start "ManyTill combinator failed."
      return m.value :: (← itemsTill item ending start rounds)

/-- Items up to where `ending` would succeed. -/
def manyTill (item : Parser α) (ending : Parser β) : Parser (List α) where
  label := s!"{item.label} until {ending.label}"
  run := do
    let start ← Run.position
    let values ← itemsTill item ending start (← Run.rounds)
    return ⟨values, ⟨start, ← Run.position⟩⟩

end RecursiveDescent.Parser
