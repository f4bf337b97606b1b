import RecursiveDescent.Proofs.Front
import RecursiveDescent.Run

/-!
# Corresponding runs

Two runs correspond if, from readers one of which has a text in front of what the other reads, they
end alike: with related values, with failures that tell the same, or halted for the same reason,
and with the readers still so. Each operation of runs has one rule; what is known of the two stores
is left open, as long as it does not depend on the log.
-/
namespace RecursiveDescent

structure Correspondence where
  /-- What the second reader has in front of the text of the first. -/
  front : Text
  stores : Store → Store → Prop
  emit {s s' : Store} (e e' : Event) : stores s s' → stores (s.emit e) (s'.emit e')

namespace Correspondence

variable {α β : Type} (C : Correspondence)

structure States (s s' : State) : Prop where
  reader : s'.reader = s.reader.behind C.front
  store : C.stores s.store s'.store

inductive Outcomes (R : α → α → Prop) : Outcome α → Outcome α → Prop
  | ok {a a' : α} {s s' : State} : R a a' → C.States s s' → Outcomes R (.ok a s) (.ok a' s')
  | failed {f f' : Failure} {s s' : State} : f.Behind C.front f' → C.States s s' →
    Outcomes R (.failed f s) (.failed f' s')
  | halted {cause : Halt} {s s' : State} : Outcomes R (.halted cause s) (.halted cause s')

inductive Results (R : α → α → Prop) : Except Failure α → Except Failure α → Prop
  | ok {a a' : α} : R a a' → Results R (.ok a) (.ok a')
  | error {f f' : Failure} : f.Behind C.front f' → Results R (.error f) (.error f')

def Runs (R : α → α → Prop) (r r' : Run α) : Prop :=
  ∀ s s', C.States s s' → C.Outcomes R (r s) (r' s')

variable {C} {R : α → α → Prop} {S : β → β → Prop} {r r' : Run α}

theorem runs_pure {a a' : α} (h : R a a') : C.Runs R (pure a) (pure a') :=
  fun _ _ hs => .ok h hs

/-- Runs that correspond go on in corresponding ways. -/
theorem runs_bind {next next' : α → Run β} (h : C.Runs R r r')
    (hnext : ∀ a a', R a a' → C.Runs S (next a) (next' a')) :
    C.Runs S (r >>= next) (r' >>= next') := by
  intro s s' hs
  rw [Run.bind_apply, Run.bind_apply]
  have outcomes := h s s' hs
  generalize r s = o at outcomes ⊢
  generalize r' s' = o' at outcomes ⊢
  cases outcomes with
  | ok ha ht => exact hnext _ _ ha _ _ ht
  | failed hf ht => exact .failed hf ht
  | halted => exact .halted

theorem runs_map {f f' : α → β} (h : C.Runs R r r') (hf : ∀ a a', R a a' → S (f a) (f' a')) :
    C.Runs S (f <$> r) (f' <$> r') :=
  runs_bind h fun a a' ha => runs_pure (hf a a' ha)

theorem runs_fail {f f' : Failure} (h : f.Behind C.front f') :
    C.Runs R (Run.fail f) (Run.fail f') :=
  fun _ _ hs => .failed h hs

theorem runs_exhaust : C.Runs R (Run.exhaust : Run α) Run.exhaust :=
  fun _ _ _ => .halted

/-- Failures that are looked at correspond as failures do that are raised. -/
theorem runs_observe (h : C.Runs R r r') : C.Runs (C.Results R) r.observe r'.observe := by
  intro s s' hs
  have outcomes := h s s' hs
  rw [Run.observe, Run.observe]
  generalize r s = o at outcomes ⊢
  generalize r' s' = o' at outcomes ⊢
  cases outcomes with
  | ok ha ht => exact .ok (.ok ha) ht
  | failed hf ht => exact .ok (.error hf) ht
  | halted => exact .halted

/-! ## The reader and the store -/

theorem runs_reader : C.Runs (fun r r' => r' = r.behind C.front) Run.reader Run.reader :=
  fun _ _ hs => .ok hs.reader hs

theorem runs_position :
    C.Runs (fun p p' => p' = p.behind C.front) Run.position Run.position :=
  fun _ _ hs => .ok (congrArg Reader.position hs.reader) hs

theorem runs_input : C.Runs (fun t t' => t' = C.front ++ t) Run.input Run.input :=
  fun _ _ hs => .ok (congrArg Reader.input hs.reader) hs

theorem runs_rounds : C.Runs Eq Run.rounds Run.rounds := by
  intro s s' hs
  refine .ok ?_ hs
  rw [hs.reader, Reader.bytesLeft_behind]

theorem runs_found : C.Runs Eq Run.found Run.found := by
  apply runs_bind runs_reader
  rintro r _ rfl
  rw [Reader.peek?_behind]
  cases r.peek? <;> exact runs_pure rfl

theorem runs_emit (e e' : Event) : C.Runs (fun _ _ => True) (Run.emit e) (Run.emit e') :=
  fun _ _ hs => .ok trivial ⟨hs.reader, C.emit e e' hs.store⟩

/-- To go back behind the text in front is to go back by as much less. -/
theorem runs_rewind (p : Position) :
    C.Runs (fun _ _ => True) (Run.rewind p) (Run.rewind (p.behind C.front)) := by
  intro s s' hs
  rw [Run.rewind, Run.rewind, hs.reader, Reader.rewind_behind]
  cases s.reader.rewind p with
  | ok r => exact .ok trivial ⟨rfl, hs.store⟩
  | error f => exact .halted

/-- The same text taken, from a place behind the text in front. -/
def TakenBehind (front : Text) (m m' : Text × Span) : Prop :=
  m'.1 = m.1 ∧ m'.2 = m.2.behind front

/-- A movement corresponds to that which moves behind the text in front. -/
theorem runs_advance {move move' : Reader → Except Fault (Option (Text × Reader))}
    (moves : ∀ r, move' (r.behind C.front) = (move r).map (Reader.movedBehind C.front)) :
    C.Runs (Option.Rel (TakenBehind C.front)) (Run.advance move) (Run.advance move') := by
  intro s s' hs
  rw [Run.advance, Run.advance, hs.reader, moves]
  cases move s.reader with
  | ok moved =>
    cases moved with
    | none => exact .ok .none hs
    | some moved => exact .ok (.some ⟨rfl, rfl⟩) ⟨rfl, hs.store⟩
  | error f => exact .halted

theorem runs_take (n : Nat) :
    C.Runs (Option.Rel (TakenBehind C.front)) (Run.take n) (Run.take n) :=
  runs_advance fun r => r.take_behind C.front n

theorem runs_takeBytes (n : Nat) :
    C.Runs (Option.Rel (TakenBehind C.front)) (Run.takeBytes n) (Run.takeBytes n) :=
  runs_advance fun r => r.takeBytes_behind C.front n

/-! ## Failing, and going back after a failure -/

theorem runs_failHere (message expected found : String) :
    C.Runs R (Run.failHere message expected found) (Run.failHere message expected found) := by
  apply runs_bind runs_reader
  rintro r _ rfl
  exact runs_fail (Failure.behind_here message expected found r)

theorem runs_enclosing (h : C.Runs R r r') (p : Position) (message : String) :
    C.Runs R (r.enclosing p message) (r'.enclosing (p.behind C.front) message) := by
  apply runs_bind (runs_observe h)
  intro _ _ ended
  rcases ended with ha | hf
  · exact runs_pure ha
  · apply runs_bind (runs_rewind p)
    intro _ _ _
    apply runs_bind runs_reader
    rintro r _ rfl
    exact runs_fail (hf.enclose message r)

theorem runs_orNothing (h : C.Runs R r r') (p : Position) :
    C.Runs (Option.Rel R) (r.orNothing p) (r'.orNothing (p.behind C.front)) := by
  apply runs_bind (runs_observe h)
  intro _ _ ended
  rcases ended with ha | hf
  · exact runs_pure (.some ha)
  · exact runs_bind (runs_rewind p) fun _ _ _ => runs_pure .none

theorem runs_lookAhead (h : C.Runs R r r') (p : Position) :
    C.Runs (C.Results R) (r.lookAhead p) (r'.lookAhead (p.behind C.front)) := by
  apply runs_bind (runs_observe h)
  intro result result' hresult
  exact runs_bind (runs_rewind p) fun _ _ _ => runs_pure hresult

end Correspondence

end RecursiveDescent
