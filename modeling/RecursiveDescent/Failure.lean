import RecursiveDescent.Reader

/-!
# Failures

A failure is a chain of levels: the outermost says which parser failed, and each further one why
the level before it did. To run out of input is not a failure of its own kind; the innermost level
then has found the text `EOF`.
-/
namespace RecursiveDescent

/-- What stands for the character found at the end of the input. -/
def endMark : String := "EOF"

structure Level where
  message : String
  expected : String
  found : String
  position : Position
  /-- The line on which the parser failed. -/
  lineText : String
deriving DecidableEq

namespace Level

def render (l : Level) : String :=
  s!"{l.message} at {l.position.render}"

/-- The line with its number before it, and on a second line a caret under the column. -/
def caretLines (l : Level) : String :=
  let gutter := s!"{l.position.line}| "
  let indent := gutter.length + (l.position.column - 1)
  gutter ++ l.lineText ++ "\n" ++ String.ofList (List.replicate indent ' ') ++ "^"

def report (l : Level) : String :=
  s!"{l.message}\nAt: {l.position.render}\n" ++
    s!"{l.caretLines}\nExpected: {l.expected}\tGot: {l.found}"

end Level

structure Failure where
  top : Level
  /-- Why `top` failed, outermost first. -/
  causes : List Level
deriving DecidableEq

namespace Failure

/-- One level, where the reader stands. -/
def here (message expected found : String) (r : Reader) : Failure :=
  ⟨⟨message, expected, found, r.position, String.ofList r.currentLine⟩, []⟩

def levels (f : Failure) : List Level :=
  f.top :: f.causes

/-- A new level around `cause`, where the reader stands. It repeats what its cause expected and
found. -/
def enclose (message : String) (r : Reader) (cause : Failure) : Failure :=
  ⟨⟨message, cause.top.expected, cause.top.found, r.position, String.ofList r.currentLine⟩,
    cause.levels⟩

def withExpected (f : Failure) (expected : String) : Failure :=
  { f with top := { f.top with expected } }

def withFound (f : Failure) (found : String) : Failure :=
  { f with top := { f.top with found } }

def root (f : Failure) : Level :=
  f.causes.getLastD f.top

/-- The input ran out at the root, as far as the text found there tells. -/
def ranOut (f : Failure) : Bool :=
  f.root.found == endMark

def depth (f : Failure) : Nat :=
  f.levels.length

def report (f : Failure) : String :=
  "\n\n".intercalate (f.levels.map Level.report)

theorem root_enclose (message : String) (r : Reader) (cause : Failure) :
    (cause.enclose message r).root = cause.root := by
  simp only [enclose, root, levels, List.getLastD_cons]

end Failure

end RecursiveDescent
