import RecursiveDescent.Parser.Handmade
import RecursiveDescent.Unicode.Class
import RecursiveDescent.Value

/-!
# Grammars

Grammars are parsers as data. A reference stands for the innermost recursive rule around it that
has its label. A leaf may also be a parser of one's own, of which nothing is known.
-/
namespace RecursiveDescent

inductive Grammar where
  | codePoint (label : String) (c : Char)
  | literal (label : String) (text : Text)
  | literalIgnoringCase (label : String) (text : Text)
  | oneOf (label : String) (chars : Text)
  | noneOf (label : String) (chars : Text)
  | satisfy (label : String) (accepts : Char → Bool)
  | takeWhile (label : String) (accepts : Char → Bool)
  | endOfInput
  | choice (label : String) (alternatives : List Grammar)
  | either (first second : Grammar)
  | allOf (label : String) (parts : List Grammar)
  | inOrder (label : String) (parts : List Grammar)
  | andThen (left right : Grammar)
  | fst (pair : Grammar)
  | snd (pair : Grammar)
  | many (item : Grammar)
  | many1 (item : Grammar)
  | optional (part : Grammar)
  /-- Named after its part if it has no label of its own. -/
  | notAhead (label : Option String) (part : Grammar)
  | attempt (part : Grammar)
  | map (f : Value → Value) (part : Grammar)
  | filter (label : String) (accepts : Value → Bool) (part : Grammar)
  | withSpan (part : Grammar)
  | lexeme (part : Grammar)
  | traced (name : String) (part : Grammar)
  | between (opening content closing : Grammar)
  | sepBy (item delimiter : Grammar)
  | manyTill (item ending : Grammar)
  /-- `combine` is given the operator's value, then the left and the right operand's. -/
  | chainLeft (combine : Value → Value → Value → Value) (operand operator : Grammar)
  | chainRight (combine : Value → Value → Value → Value) (operand operator : Grammar)
  | lazy (label : String) (body : Grammar)
  | recursive (label : String) (body : Grammar)
  | reference (label : String)
  /-- Another way to hold the same part. -/
  | alias (part : Grammar)
  | labelled (label : String) (part : Grammar)
  | custom (p : Parser Value)

namespace Grammar

def anyChar : Grammar := .satisfy "any character" fun _ => true

def digit : Grammar := .satisfy "digit" Unicode.isAsciiDigit

def letter : Grammar := .satisfy "letter" Unicode.isLetter

def alphanumeric : Grammar := .satisfy "alphanumeric" Unicode.isAlphanumeric

def whitespace : Grammar := .satisfy "whitespace" Unicode.isWhiteSpace

def spaces : Grammar := .takeWhile "spaces" Unicode.isWhiteSpace

def leaky (label : String) (count : Nat) : Grammar :=
  .custom (Parser.leaky label count)

def handmade (label : String) (count : Nat) (reported : ReportedSpan) : Grammar :=
  .custom ((Parser.handmade label count reported).recast .text)

mutual

/-- How many nodes are recursive rules. -/
def recursiveRules : Grammar → Nat
  | .recursive _ g => recursiveRules g + 1
  | .either a b | .andThen a b | .sepBy a b | .manyTill a b | .chainLeft _ a b
  | .chainRight _ a b => recursiveRules a + recursiveRules b
  | .between a b c => recursiveRules a + recursiveRules b + recursiveRules c
  | .fst g | .snd g | .many g | .many1 g | .optional g | .notAhead _ g | .attempt g | .map _ g
  | .filter _ _ g | .withSpan g | .lexeme g | .traced _ g | .lazy _ g | .alias g
  | .labelled _ g => recursiveRules g
  | .choice _ gs | .allOf _ gs | .inOrder _ gs => recursiveRulesIn gs
  | .codePoint _ _ | .literal _ _ | .literalIgnoringCase _ _ | .oneOf _ _ | .noneOf _ _
  | .satisfy _ _ | .takeWhile _ _ | .endOfInput | .reference _ | .custom _ => 0

def recursiveRulesIn : List Grammar → Nat
  | [] => 0
  | g :: gs => recursiveRules g + recursiveRulesIn gs

end

end Grammar

end RecursiveDescent
