import RecursiveDescent.Parser.Basic

/-!
# Parsers built on first use

A deferred rule is built when it is first run. A recursive rule is entered from inside its body by
references, which are good once the rule is built and until it is dropped.
-/
namespace RecursiveDescent.Parser

variable {α : Type}

/-- Logs the build and marks the rule as built, unless it is built already. -/
def build (kind : RuleKind) (rule : NodeId) (label : String) : Run Unit := do
  unless (← Run.store).isBuilt rule do
    Run.emit (.building kind rule label)
    Run.modifyStore (·.markBuilt rule)

def deferred (kind : RuleKind) (rule : NodeId) (label : String) (body : Run (Match α)) :
    Parser α where
  label
  run := do
    build kind rule label
    body

def unavailable (label : String) : Run α := do
  Run.failHere s!"Recursive rule {label} is no longer available" label (← Run.found)

/-- A reference to `rule`, whose body `enter` runs. -/
def reference (rule : NodeId) (label : String) (enter : Run (Match α)) : Parser α where
  label
  run := do
    if (← Run.store).isAvailable rule then enter else unavailable label

end RecursiveDescent.Parser
