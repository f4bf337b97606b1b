import RecursiveDescent.Parser.Character
import RecursiveDescent.Text.Case

/-!
# Parsers of a given text

A text matches in whole symbols only: one that ends with `\r` does not match in front of `\n`.
-/
namespace RecursiveDescent.Parser

/-- Over the first `width` bytes of `rest`, the text ahead, unless they end inside a line break. -/
def takeMatch (expected : String) (rest : Text) (width : Nat) : Run (Match Text) := do
  match ← Run.takeBytes width with
  | some (text, span) => return ⟨text, span⟩
  | none =>
    let found := (rest.takeBytes? (width + 1)).getD rest
    Run.failHere "String ends inside a \\r\\n line break." expected (String.ofList found)

def literal (label : String) (text : Text) : Parser Text where
  label
  run := do
    let rest := (← Run.reader).remaining
    let expected := String.ofList text
    if text.isPrefixOf rest then takeMatch expected rest text.byteLength
    else if rest.isPrefixOf text then Run.failAtEnd endOfFile expected
    else Run.failHere "Strings do not match." expected (String.ofList (rest.take text.length))

/-- Compares the lower case of `text` with that of as many characters as `text` has, or of all
there are. -/
def literalIgnoringCase (label : String) (text : Text) : Parser Text where
  label
  run := do
    let rest := (← Run.reader).remaining
    let expected := String.ofList text
    let candidate : Text := rest.take text.length
    if candidate.lowercase = text.lowercase then takeMatch expected rest candidate.byteLength
    else if candidate.length < text.length ∧ candidate.lowercase.isPrefixOf text.lowercase then
      Run.failAtEnd endOfFile expected
    else
      Run.failHere "Strings do not match (case-insensitive)." expected (String.ofList candidate)

end RecursiveDescent.Parser
