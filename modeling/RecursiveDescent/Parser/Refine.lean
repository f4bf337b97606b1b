import RecursiveDescent.Parser.Character

/-!
# Changing what a parser gives

`map` shields what is around it from a failure of its part. The others pass the failure on as it
is, with the reader where the part left it.
-/
namespace RecursiveDescent.Parser

variable {α β : Type}

def map (f : α → β) (p : Parser α) : Parser β where
  label := p.label
  run := do
    let m ← p.run.enclosing (← Run.position) "Map parser failed"
    return m.map f

/-- Refuses values that are not accepted, and gives back what they took. -/
def filter (label : String) (accepts : α → Bool) (p : Parser α) : Parser α where
  label
  run := do
    let start ← Run.position
    let m ← p.run
    if accepts m.value then return m
    else
      Run.rewind start
      let text := String.ofList (m.text (← Run.input))
      Run.failHere s!"Filter rejected {p.label}" label text

/-- The value together with its span. -/
def withSpan (p : Parser α) : Parser (α × Span) where
  label := p.label
  run := do
    let m ← p.run
    return ⟨(m.value, m.span), m.span⟩

/-- Takes the white space behind `p` too. -/
def lexeme (p : Parser α) : Parser α where
  label := p.label
  run := do
    let m ← p.run
    let trailing ← spaces.run
    return ⟨m.value, ⟨m.span.start, trailing.next⟩⟩

/-- Logs the attempt and how it ends. -/
def traced (node : NodeId) (name : String) (p : Parser α) : Parser α where
  label := p.label
  run := do
    Run.emit (.trying node name (← Run.position))
    match ← p.run.observe with
    | .ok m =>
      Run.emit (.matched node name (m.text (← Run.input)) m.span)
      return m
    | .error f =>
      Run.emit (.failed node name f)
      Run.fail f

end RecursiveDescent.Parser
