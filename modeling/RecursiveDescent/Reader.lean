import RecursiveDescent.Text.Span

/-!
# Readers

A reader is a text and a position in it. It goes forward by whole symbols, by bytes as long as
these are whole symbols, or to the next line, and back to positions it has been at. A movement
that cannot be made leaves it where it is.

Two misuses are faults and have no answer: to take zero symbols inside a code point, and to go
back to a position past the end. In machine words there is a third fault, a movement on which a
number becomes greater than a word can hold.
-/
namespace RecursiveDescent

inductive Fault where
  | insideCodePoint
  | pastEnd
  | overflow
deriving DecidableEq

/-- Numbers are below the limit, if there is one. -/
abbrev Limit := Option Nat

namespace Limit

/-- That of a machine word. -/
def word : Limit :=
  some UInt64.size

def admits (limit : Limit) (n : Nat) : Bool :=
  limit.all (n < ·)

def holds (limit : Limit) (p : Position) : Bool :=
  limit.admits p.offset && limit.admits p.line && limit.admits p.column

end Limit

structure Reader where
  input : Text
  position : Position
deriving DecidableEq

namespace Reader

/-- A position past the end is moved back to the end, its line and column kept. -/
def startAt (input : Text) (p : Position) : Reader :=
  ⟨input, { p with offset := min p.offset input.byteLength }⟩

def start (input : Text) : Reader :=
  startAt input Position.start

def offset (r : Reader) : Nat :=
  r.position.offset

/-- The text ahead; none inside a code point. -/
def remaining (r : Reader) : Text :=
  (r.input.dropBytes? r.offset).getD []

def bytesLeft (r : Reader) : Nat :=
  r.input.byteLength - r.offset

def atEnd (r : Reader) : Bool :=
  r.input.byteLength ≤ r.offset

def peek? (r : Reader) : Option Char :=
  r.remaining.firstSymbol?.map (·.char)

def rewind (r : Reader) (p : Position) : Except Fault Reader :=
  if p.offset ≤ r.input.byteLength then .ok ⟨r.input, p⟩ else .error .pastEnd

/-- Over one symbol. -/
def step? (r : Reader) : Option Reader :=
  r.remaining.firstSymbol?.map fun s => ⟨r.input, r.position.after s⟩

/-- Over `n` symbols. -/
def steps? : Nat → Reader → Option Reader
  | 0, r => some r
  | n + 1, r => r.step?.bind (steps? n)

/-- Symbol by symbol to the offset `target`, over at most the given number of symbols. -/
def reach? (target : Nat) : Nat → Reader → Option Reader
  | 0, r => if r.offset = target then some r else none
  | n + 1, r =>
    if r.offset < target then r.step?.bind (reach? target n)
    else if r.offset = target then some r
    else none

/-- The reader at `next`, with the text it has passed. -/
def passTo (r next : Reader) : Except Fault (Text × Reader) :=
  match r.input.slice? r.offset next.offset with
  | some t => .ok (t, next)
  | none => .error .insideCodePoint

/-- Takes `n` symbols, or nothing if there are fewer. -/
def take (r : Reader) (n : Nat) : Except Fault (Option (Text × Reader)) :=
  match r.steps? n with
  | some next => (r.passTo next).map some
  | none => .ok none

/-- Takes exactly `n` bytes, or nothing if they do not end with a symbol. A symbol has a byte or
more, so `n` symbols are enough. -/
def takeBytes (r : Reader) (n : Nat) : Except Fault (Option (Text × Reader)) :=
  match r.reach? (r.offset + n) n with
  | some next => (r.passTo next).map some
  | none => .ok none

/-- At the beginning of the next line. -/
def nextLine? (r : Reader) : Option Reader :=
  let line : Text := r.remaining.takeWhile (!isLineBreak ·)
  let rest : Text := r.remaining.dropWhile (!isLineBreak ·)
  rest.firstSymbol?.map fun s =>
    ⟨r.input, ⟨r.offset + line.byteLength + s.width, r.position.line + 1, 1⟩⟩

/-- Over at most `n` symbols, for as long as `goesOn`, a position on the way exceeds the limit. -/
def outgrows (limit : Limit) (goesOn : Reader → Bool) : Nat → Reader → Bool
  | 0, _ => false
  | n + 1, r =>
    goesOn r && match r.step? with
      | some next => !limit.holds next.position || outgrows limit goesOn n next
      | none => false

/-- `take` with numbers below the limit. -/
def takeIn (r : Reader) (limit : Limit) (n : Nat) : Except Fault (Option (Text × Reader)) :=
  if r.outgrows limit (fun _ => true) n then .error .overflow else r.take n

/-- `takeBytes` with numbers below the limit: that of the target comes first, and then those of the
positions in front of it. -/
def takeBytesIn (r : Reader) (limit : Limit) (n : Nat) : Except Fault (Option (Text × Reader)) :=
  if !limit.admits (r.offset + n) || r.outgrows limit (·.offset < r.offset + n) n then
    .error .overflow
  else r.takeBytes n

/-- `nextLine?` with numbers below the limit. -/
def nextLineIn (r : Reader) (limit : Limit) : Except Fault (Option Reader) :=
  match r.nextLine? with
  | some next => if limit.holds next.position then .ok (some next) else .error .overflow
  | none => .ok none

/-- Which of the lines, counted from zero, the reader is on. -/
def lineIndex? (r : Reader) : Option Nat :=
  match (r.input.lineStarts.takeWhile (· ≤ r.offset)).length with
  | 0 => none
  | n + 1 => some n

/-- From where to where the given line goes, its break included. -/
def lineBounds (r : Reader) (i : Nat) : Nat × Nat :=
  (r.input.lineStarts[i]?.getD 0, r.input.lineStarts[i + 1]?.getD r.input.byteLength)

/-- The line the reader is on, without its break; the whole text if it has no lines. -/
def currentLine (r : Reader) : Text :=
  match r.lineIndex? with
  | none => r.input
  | some i =>
    let (first, last) := r.lineBounds i
    ((r.input.slice? first last).getD []).trimLineBreaks

example : ((start ['\r', '\n', 'x']).steps? 2).map (·.position) = some ⟨3, 2, 2⟩ := by decide

example : (start ['\r', '\n']).takeBytes 1 = .ok none := rfl

example : (startAt ['é'] ⟨1, 1, 1⟩).take 0 = .error .insideCodePoint := rfl

example : (startAt ['a'] ⟨0, 1, 255⟩).takeIn (some 256) 2 = .error .overflow := rfl

example : (startAt ['a', '\n', 'b', '\r', '\n'] ⟨2, 2, 1⟩).currentLine = ['b'] := by decide

end Reader

end RecursiveDescent
