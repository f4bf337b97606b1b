import RecursiveDescent.Run

/-!
# Parsers

A parser has a label, by which failures name it, and a run that ends, if it succeeds, with a match:
a value and the span it covered. Parsers are expected to leave the reader where it was when they
fail, and at the end of a span that begins where it was when they succeed.
-/
namespace RecursiveDescent

structure Match (α : Type) where
  value : α
  span : Span

namespace Match

variable {α β : Type}

/-- Where the match says that the reader stood after it. -/
def next (m : Match α) : Position :=
  m.span.stop

def map (f : α → β) (m : Match α) : Match β :=
  ⟨f m.value, m.span⟩

/-- What the match covered of the text `t`. -/
def text (m : Match α) (t : Text) : Text :=
  m.span.slice t

end Match

structure Parser (α : Type) where
  label : String
  run : Run (Match α)

namespace Parser

variable {α β : Type}

/-- The same parser under another label. -/
def labelled (p : Parser α) (label : String) : Parser α :=
  ⟨label, p.run⟩

/-- The same parser with its value put into another type; failures stay as they are. -/
def recast (f : α → β) (p : Parser α) : Parser β :=
  ⟨p.label, Match.map f <$> p.run⟩

/-- Runs over a text from its start, with nothing built before. -/
def parse (p : Parser α) (input : Text) : Outcome (Match α) :=
  p.run ⟨Reader.start input, Store.empty⟩

/-- Runs over one text after the other. What is built stays built, and each outcome has the log of
its own run only. -/
def parseAll (p : Parser α) (store : Store) : List Text → List (Outcome (Match α))
  | [] => []
  | input :: rest =>
    let outcome := p.run ⟨Reader.start input, store.clearLog⟩
    outcome :: parseAll p outcome.state.store rest

end Parser

end RecursiveDescent
