import RecursiveDescent.Failure
import RecursiveDescent.Text.Quoted

/-!
# What parsers leave behind

Apart from moving the reader, parsers do two things that can be seen: a deferred rule is built
when it is first used, and traced parsers report what they try. The store keeps which rules are
built and which were dropped afterwards, and the log of these events, oldest first.
-/
namespace RecursiveDescent

/-- Where a node stands in its grammar: the branches taken from the root, the last one first. -/
abbrev NodeId := List Nat

inductive RuleKind where
  | lazy
  | recursive
deriving DecidableEq

inductive Event where
  | building (kind : RuleKind) (rule : NodeId) (label : String)
  | trying (node : NodeId) (name : String) (position : Position)
  | matched (node : NodeId) (name : String) (text : Text) (span : Span)
  | failed (node : NodeId) (name : String) (failure : Failure)
deriving DecidableEq

def RuleKind.render : RuleKind → String
  | .lazy => "lazy"
  | .recursive => "recursive"

namespace Event

/-- The line of the log: builds are for debugging, attempts for tracing. -/
def render : Event → String
  | .building kind _ label => s!"DEBUG Building {kind.render} parser {label}"
  | .trying _ name position => s!"TRACE Trying {name} at {position.render}"
  | .matched _ name text span =>
    let quoted := String.ofList text.quoted
    s!"TRACE {name} matched {quoted} from {span.start.render} to {span.stop.render}"
  | .failed _ name failure => s!"TRACE {name} failed: {failure.top.render}"

end Event

structure Store where
  /-- One entry for each time a rule was built. -/
  built : List NodeId
  dropped : List NodeId
  log : Array Event
deriving DecidableEq

namespace Store

def empty : Store := ⟨[], [], #[]⟩

def isBuilt (s : Store) (rule : NodeId) : Bool :=
  s.built.contains rule

/-- A rule can be entered by reference once it is built and until it is dropped. -/
def isAvailable (s : Store) (rule : NodeId) : Bool :=
  s.isBuilt rule && !s.dropped.contains rule

def emit (s : Store) (e : Event) : Store :=
  { s with log := s.log.push e }

def markBuilt (s : Store) (rule : NodeId) : Store :=
  { s with built := rule :: s.built }

def drop (s : Store) (rule : NodeId) : Store :=
  { s with dropped := rule :: s.dropped }

def clearLog (s : Store) : Store :=
  { s with log := #[] }

end Store

end RecursiveDescent
