import RecursiveDescent.Grammar.Parser

/-!
# The life of a deferred rule

A lazy or recursive rule seen from outside. It is built when it first parses. While a recursive
rule is being built it gives out a handle. The handle may be tried on a text there and then, when
the rule is not available yet; afterwards it parses as the rule does, until the rule is dropped.
-/
namespace RecursiveDescent

structure Deferred where
  kind : RuleKind
  label : String
  body : Grammar
  /-- What the handle is tried on while the rule is being built. -/
  probe : Option Text

namespace Deferred

/-- What is known of the rule at one time. -/
structure Life where
  store : Store
  probed : Option (Outcome (Match Value))

inductive Request where
  | label
  | parse (input : Text)
  | parseByHandle (r : Reader)
  | drop
deriving DecidableEq

inductive Answer where
  | nothing
  | label (s : String)
  | outcome (o : Outcome (Match Value))
  | byHandle (label : String) (o : Outcome (Match Value))

namespace Life

def start : Life := ⟨Store.empty, none⟩

def isBuilt (life : Life) : Bool :=
  life.store.isBuilt []

def isDropped (life : Life) : Bool :=
  life.store.dropped.contains []

/-- How often the rule was built. -/
def builds (life : Life) : Nat :=
  life.store.built.count []

def clearLog (life : Life) : Life :=
  { life with store := life.store.clearLog }

end Life

variable (d : Deferred)

/-- The rule as the root of a grammar. -/
def grammar : Grammar :=
  match d.kind with
  | .lazy => .lazy d.label d.body
  | .recursive => .recursive d.label d.body

def parser : Parser Value :=
  d.grammar.toParser []

/-- A reference to the rule from outside its body. -/
def handle : Parser Value where
  label := d.label
  run := fun s =>
    let enter := Grammar.enter (d.grammar.depthFor s.reader.bytesLeft + 1)
    (Parser.reference [] d.label (enter ⟨d.label, [], d.body⟩ [])).run s

/-- What becomes of the handle while the rule is being built. -/
def tryHandle (store : Store) : Option (Outcome (Match Value)) :=
  match d.kind with
  | .lazy => none
  | .recursive => d.probe.map fun text => d.handle.run ⟨Reader.start text, store⟩

/-- The rule does not count as built before the handle has been tried. -/
def build (life : Life) : Life :=
  if life.isBuilt then life
  else
    let store := life.store.emit (.building d.kind [] d.label)
    let probed := d.tryHandle store
    ⟨((probed.map (·.state.store)).getD store).markBuilt [], probed⟩

/-- There is a handle once a recursive rule has been built. -/
def hasHandle (life : Life) : Bool :=
  d.kind == .recursive && life.isBuilt

/-- A dropped rule does not answer any more, but its handle does. -/
def answer (life : Life) : Request → Answer × Life
  | .label => (if life.isDropped then .nothing else .label d.label, life)
  | .parse input =>
    if life.isDropped then (.nothing, life)
    else
      let built := d.build life
      let o := d.parser.run ⟨Reader.start input, built.store⟩
      (.outcome o, { built with store := o.state.store })
  | .parseByHandle r =>
    if d.hasHandle life then
      let o := d.handle.run ⟨r, life.store⟩
      (.byHandle d.handle.label o, { life with store := o.state.store })
    else (.nothing, life)
  | .drop => (.nothing, { life with store := life.store.drop [] })

/-- Each answer with the life after it, whose log holds only what that answer took. -/
def answers (life : Life) : List Request → List (Answer × Life)
  | [] => []
  | request :: rest =>
    let next := d.answer life.clearLog request
    next :: answers next.2 rest

end Deferred

end RecursiveDescent
