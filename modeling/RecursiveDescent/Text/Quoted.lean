import RecursiveDescent.Text.Basic
import RecursiveDescent.Unicode.Printable

/-!
# Quoted texts

A quoted text stands between double quotes on one line, with all that would not be seen, or would
be mistaken, escaped.
-/
namespace RecursiveDescent.Text

/-- `\u` and the code point in braces, in lower-case hexadecimal digits. -/
def hexEscape (c : Char) : Text :=
  ['\\', 'u', '\x7b'] ++ Nat.toDigits 16 c.toNat ++ ['\x7d']

def escape (c : Char) : Text :=
  match c with
  | '"' => ['\\', '"']
  | '\\' => ['\\', '\\']
  | '\n' => ['\\', 'n']
  | '\r' => ['\\', 'r']
  | '\t' => ['\\', 't']
  | '\x00' => ['\\', '0']
  | c =>
    if Unicode.combining.mem c || Unicode.invisible.mem c then hexEscape c else [c]

def quoted (t : Text) : Text :=
  '"' :: t.flatMap escape ++ ['"']

end RecursiveDescent.Text
