import Mathlib.Data.List.Forall2
import RecursiveDescent.Failure
import RecursiveDescent.Proofs.Cut
import RecursiveDescent.Value

/-!
# A text in front

What becomes of positions, readers, values and failures when a text is put in front of the one that
is read: offsets grow by the bytes of that text, and nothing else changes that a reader can tell by
looking ahead.
-/
namespace RecursiveDescent

def Position.behind (front : Text) (p : Position) : Position :=
  { p with offset := p.offset + front.byteLength }

def Span.behind (front : Text) (s : Span) : Span :=
  ⟨s.start.behind front, s.stop.behind front⟩

def Reader.behind (front : Text) (r : Reader) : Reader :=
  ⟨front ++ r.input, r.position.behind front⟩

namespace Value

mutual

def behind (front : Text) : Value → Value
  | .present v => .present (v.behind front)
  | .list vs => .list (listBehind front vs)
  | .pair l r => .pair (l.behind front) (r.behind front)
  | .located v s => .located (v.behind front) (s.behind front)
  | .operation op l r => .operation (op.behind front) (l.behind front) (r.behind front)
  | .char c => .char c
  | .text t => .text t
  | .unit => .unit
  | .absent => .absent
  | .int n => .int n

def listBehind (front : Text) : List Value → List Value
  | [] => []
  | v :: vs => v.behind front :: listBehind front vs

end

end Value

section Spans

variable (front : Text)

theorem Position.after_behind (p : Position) (s : Symbol) :
    (p.behind front).after s = (p.after s).behind front := by
  rw [after, after]
  split <;> simp only [behind, Nat.add_right_comm]

theorem Span.isEmpty_behind (s : Span) : (s.behind front).isEmpty = s.isEmpty := by
  have hsub : s.stop.offset + front.byteLength - (s.start.offset + front.byteLength) =
      s.stop.offset - s.start.offset := by omega
  rw [isEmpty, isEmpty, byteLength, byteLength]
  simp only [behind, Position.behind, hsub]

/-- Behind the text in front, a span covers what it covered before. -/
theorem Span.slice_behind (s : Span) (t : Text) :
    (s.behind front).slice (front ++ t) = s.slice t :=
  congrArg (·.getD []) (Text.slice?_front front t s.start.offset s.stop.offset)

end Spans

namespace Reader

variable (front : Text) (r : Reader)

theorem offset_behind : (r.behind front).offset = r.offset + front.byteLength := rfl

theorem remaining_behind : (r.behind front).remaining = r.remaining := by
  rw [remaining, remaining, offset_behind, Nat.add_comm]
  exact congrArg (·.getD []) (Text.dropBytes?_add front r.input r.offset)

theorem peek?_behind : (r.behind front).peek? = r.peek? := by
  rw [peek?, peek?, remaining_behind]

theorem bytesLeft_behind : (r.behind front).bytesLeft = r.bytesLeft := by
  rw [bytesLeft, bytesLeft, offset_behind, behind, Text.byteLength_append]
  omega

theorem atEnd_behind : (r.behind front).atEnd = r.atEnd := by
  rw [atEnd, atEnd, offset_behind, behind, Text.byteLength_append, decide_eq_decide]
  omega

/-- A position that can be gone back to can be so behind a text, moved along. -/
theorem rewind_behind (p : Position) :
    (r.behind front).rewind (p.behind front) = (r.rewind p).map (behind front) := by
  rw [rewind, rewind, behind, Text.byteLength_append, Position.behind]
  by_cases inside : p.offset ≤ r.input.byteLength
  · rw [if_pos inside, if_pos (by dsimp only; omega)]
    rfl
  · rw [if_neg inside, if_neg (by dsimp only; omega)]
    rfl

/-- The reader steps in the same way behind a text. -/
theorem step?_behind : (r.behind front).step? = r.step?.map (behind front) := by
  rw [step?, step?, remaining_behind, Option.map_map]
  congr 1
  funext s
  rw [Function.comp_apply, behind, behind, Position.after_behind]

theorem steps?_behind (n : Nat) : (r.behind front).steps? n = (r.steps? n).map (behind front) := by
  induction n generalizing r with
  | zero => rfl
  | succ n ih =>
    rw [steps?, steps?, step?_behind, Option.bind_map, Option.map_bind]
    exact Option.bind_congr fun r' _ => ih r'

theorem reach?_behind (target n : Nat) :
    reach? (target + front.byteLength) n (r.behind front) =
      (reach? target n r).map (behind front) := by
  induction n generalizing r with
  | zero =>
    rw [reach?, reach?, offset_behind]
    by_cases here : r.offset = target
    · rw [if_pos here, if_pos (by omega), Option.map_some]
    · rw [if_neg here, if_neg (by omega), Option.map_none]
  | succ n ih =>
    rw [reach?, reach?, offset_behind]
    by_cases ahead : r.offset < target
    · rw [if_pos ahead, if_pos (by omega), step?_behind, Option.bind_map, Option.map_bind]
      exact Option.bind_congr fun r' _ => ih r'
    · rw [if_neg ahead, if_neg (by omega)]
      by_cases here : r.offset = target
      · rw [if_pos here, if_pos (by omega), Option.map_some]
      · rw [if_neg here, if_neg (by omega), Option.map_none]

/-- What a movement ends with, behind the text in front. -/
def movedBehind (moved : Option (Text × Reader)) : Option (Text × Reader) :=
  moved.map fun m => (m.1, m.2.behind front)

theorem passTo_behind (next : Reader) :
    ((r.behind front).passTo (next.behind front)).map some =
      ((r.passTo next).map some).map (movedBehind front) := by
  have sliced := Text.slice?_front front r.input r.offset next.offset
  rw [passTo, passTo, offset_behind, offset_behind, behind, sliced]
  cases r.input.slice? r.offset next.offset <;> rfl

/-- What is taken behind a text is the same, at a place moved by that text. -/
theorem take_behind (n : Nat) :
    (r.behind front).take n = (r.take n).map (movedBehind front) := by
  rw [take, take, steps?_behind]
  cases r.steps? n with
  | none => rfl
  | some next => exact passTo_behind front r next

theorem takeBytes_behind (n : Nat) :
    (r.behind front).takeBytes n = (r.takeBytes n).map (movedBehind front) := by
  rw [takeBytes, takeBytes, offset_behind, Nat.add_right_comm, reach?_behind]
  cases reach? (r.offset + n) n r with
  | none => rfl
  | some next => exact passTo_behind front r next

end Reader

/-- The level tells the same, behind the text in front; which line it shows is left open. -/
structure Level.Behind (front : Text) (l l' : Level) : Prop where
  message : l'.message = l.message
  expected : l'.expected = l.expected
  found : l'.found = l.found
  position : l'.position = l.position.behind front
  lineText : front = [] → l'.lineText = l.lineText

def Failure.Behind (front : Text) (f f' : Failure) : Prop :=
  List.Forall₂ (Level.Behind front) f.levels f'.levels

namespace Failure

variable {front : Text} {f f' : Failure}

theorem behind_here (message expected found : String) (r : Reader) :
    (here message expected found r).Behind front
      (here message expected found (r.behind front)) := by
  refine .cons ⟨rfl, rfl, rfl, rfl, ?_⟩ .nil
  rintro rfl
  rfl

theorem Behind.top (h : f.Behind front f') : f.top.Behind front f'.top :=
  (List.forall₂_cons.mp h).1

/-- A level that is put on top is moved as those below it. -/
theorem Behind.enclose (h : f.Behind front f') (message : String) (r : Reader) :
    (f.enclose message r).Behind front (f'.enclose message (r.behind front)) := by
  refine .cons ⟨rfl, h.top.expected, h.top.found, rfl, ?_⟩ h
  rintro rfl
  rfl

theorem Behind.restate (h : f.Behind front f') (expected found : String) :
    ((f.withExpected expected).withFound found).Behind front
      ((f'.withExpected expected).withFound found) :=
  .cons ⟨h.top.message, rfl, rfl, h.top.position, h.top.lineText⟩ (List.forall₂_cons.mp h).2

end Failure

end RecursiveDescent
