import RecursiveDescent.Grammar.Basic
import RecursiveDescent.Parser.Choice
import RecursiveDescent.Parser.Deferred
import RecursiveDescent.Parser.InOrder
import RecursiveDescent.Parser.Literal
import RecursiveDescent.Parser.Operators
import RecursiveDescent.Parser.Refine
import RecursiveDescent.Parser.Repeat

/-!
# The parser of a grammar

Each node is read as a parser of values, by recursion on the grammar. The body of a rule is not
below the references to it, so entering it costs one unit of an explicit depth, and a run that has
none left is exhausted.
-/
namespace RecursiveDescent

/-- A recursive rule and the node it stands at. -/
structure Rule where
  label : String
  node : NodeId
  body : Grammar

/-- The rules around a node, the innermost first. -/
abbrev Scope := List Rule

namespace Grammar

def ofOption : Option Value → Value
  | none => .absent
  | some v => .present v

mutual

/-- The parser of a node; `enter` runs the body of a rule, given the rules around that. -/
def parser (enter : Rule → Scope → Run (Match Value)) (scope : Scope) (node : NodeId) :
    Grammar → Parser Value
  | .codePoint label c => (Parser.codePoint label c).recast .char
  | .literal label text => (Parser.literal label text).recast .text
  | .literalIgnoringCase label text => (Parser.literalIgnoringCase label text).recast .text
  | .oneOf label chars => (Parser.oneOf label chars).recast .char
  | .noneOf label chars => (Parser.noneOf label chars).recast .char
  | .satisfy label accepts => (Parser.satisfy label accepts).recast .char
  | .takeWhile label accepts => (Parser.takeWhile label accepts).recast .text
  | .endOfInput => Parser.endOfInput.recast fun _ => .unit
  | .choice label gs => Parser.choice label (parsers enter scope node 0 gs)
  | .either a b =>
    Parser.either (parser enter scope (0 :: node) a) (parser enter scope (1 :: node) b)
  | .allOf label gs => Parser.allOf label (parsers enter scope node 0 gs)
  | .inOrder label gs => Parser.inOrder label (parsers enter scope node 0 gs)
  | .andThen a b =>
    (Parser.andThen (parser enter scope (0 :: node) a) (parser enter scope (1 :: node) b)).recast
      fun v => .pair v.1 v.2
  | .fst g => Parser.fst ((parser enter scope (0 :: node) g).recast Value.toPair)
  | .snd g => Parser.snd ((parser enter scope (0 :: node) g).recast Value.toPair)
  | .many g => (Parser.many (parser enter scope (0 :: node) g)).recast .list
  | .many1 g => (Parser.many1 (parser enter scope (0 :: node) g)).recast .list
  | .optional g => (Parser.optional (parser enter scope (0 :: node) g)).recast ofOption
  | .notAhead label g =>
    let part := parser enter scope (0 :: node) g
    (Parser.notAhead (label.getD part.notAheadLabel) part).recast fun _ => .unit
  | .attempt g => Parser.attempt (parser enter scope (0 :: node) g)
  | .map f g => Parser.map f (parser enter scope (0 :: node) g)
  | .filter label accepts g => Parser.filter label accepts (parser enter scope (0 :: node) g)
  | .withSpan g =>
    (Parser.withSpan (parser enter scope (0 :: node) g)).recast fun v => .located v.1 v.2
  | .lexeme g => Parser.lexeme (parser enter scope (0 :: node) g)
  | .traced name g => Parser.traced node name (parser enter scope (0 :: node) g)
  | .between opening content closing =>
    Parser.between (parser enter scope (0 :: node) opening)
      (parser enter scope (1 :: node) content) (parser enter scope (2 :: node) closing)
  | .sepBy item delimiter =>
    (Parser.sepBy (parser enter scope (0 :: node) item)
      (parser enter scope (1 :: node) delimiter)).recast .list
  | .manyTill item ending =>
    (Parser.manyTill (parser enter scope (0 :: node) item)
      (parser enter scope (1 :: node) ending)).recast .list
  | .chainLeft combine operand operator =>
    Parser.chainLeft (parser enter scope (0 :: node) operand)
      ((parser enter scope (1 :: node) operator).recast combine)
  | .chainRight combine operand operator =>
    Parser.chainRight (parser enter scope (0 :: node) operand)
      ((parser enter scope (1 :: node) operator).recast combine)
  | .lazy label g =>
    Parser.deferred .lazy node label (parser enter scope (0 :: node) g).run
  | .recursive label g =>
    Parser.deferred .recursive node label
      (parser enter (⟨label, node, g⟩ :: scope) (0 :: node) g).run
  | .reference label =>
    match scope.dropWhile (·.label != label) with
    | rule :: outer => Parser.reference rule.node label (enter rule outer)
    | [] => ⟨label, Parser.unavailable label⟩
  | .alias g => parser enter scope (0 :: node) g
  | .labelled label g => (parser enter scope (0 :: node) g).labelled label
  | .custom p => p

/-- The parsers of the branches of a node, the first of which is branch `i`. -/
def parsers (enter : Rule → Scope → Run (Match Value)) (scope : Scope) (node : NodeId) (i : Nat) :
    List Grammar → List (Parser Value)
  | [] => []
  | g :: gs => parser enter scope (i :: node) g :: parsers enter scope node (i + 1) gs

end

/-- Runs the body of a rule, in which rules can be entered to the given depth. -/
def enter : Nat → Rule → Scope → Run (Match Value)
  | 0, _, _ => Run.exhaust
  | depth + 1, rule, outer =>
    (parser (enter depth) (rule :: outer) (0 :: rule.node) rule.body).run

/-- The parser of a whole grammar, whose root stands at `node`, with rules entered to the given
depth. -/
def parserWithin (depth : Nat) (node : NodeId) (g : Grammar) : Parser Value :=
  parser (enter depth) [] node g

/-- Deep enough for every run that ends, unless it has parsers of one's own that go back or keep
state: else a run that enters a rule twice at one offset, the second time from within the first,
does so for ever. -/
def depthFor (g : Grammar) (bytesLeft : Nat) : Nat :=
  g.recursiveRules * (bytesLeft + 1) + 1

/-- The parser of a whole grammar, each run of which has the depth its input asks for. -/
def toParser (node : NodeId) (g : Grammar) : Parser Value where
  label := (g.parserWithin 0 node).label
  run := fun s => (g.parserWithin (g.depthFor s.reader.bytesLeft) node).run s

end Grammar

end RecursiveDescent
