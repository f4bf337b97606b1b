import RecursiveDescent.Text.Basic
import RecursiveDescent.Unicode.Cased
import RecursiveDescent.Unicode.Lowercase

/-!
# Texts in lower case

Each character is mapped on its own, with two exceptions: the dotted capital I becomes two
characters, and the capital sigma at the end of a word becomes a final sigma.
-/
namespace RecursiveDescent.Text

/-- A cased character comes next, behind characters that words look through. -/
def meetsCased (t : Text) : Bool :=
  match t.dropWhile Unicode.caseIgnorable.mem with
  | c :: _ => Unicode.cased.mem c
  | [] => false

/-- The lower case of `c` between the text before it, nearest character first, and the text
after it. -/
def lowercaseChar (before : Text) (c : Char) (rest : Text) : Text :=
  if c = '\u0130' then ['i', '\u0307']
  else if c = '\u03A3' then
    if meetsCased before && !meetsCased rest then ['\u03C2'] else ['\u03C3']
  else [Unicode.lowercase c]

def lowercaseAfter (before : Text) : Text → Text
  | [] => []
  | c :: rest => lowercaseChar before c rest ++ lowercaseAfter (c :: before) rest

def lowercase (t : Text) : Text :=
  lowercaseAfter [] t

example : lowercase ['Ο', 'Σ', ' ', 'Σ'] = ['ο', 'ς', ' ', 'σ'] := by decide +kernel

end RecursiveDescent.Text
