import RecursiveDescent.Run

/-!
# How runs end

`Ends` says of a run from one state what is known of its value and of its failure, together with
the state each leaves, and which causes may halt it. Each operation of runs has one rule, which
turns what is asked of it into what is asked of its parts; nothing else here looks into a run.
-/
namespace RecursiveDescent

def Reader.found (r : Reader) : String :=
  match r.peek? with
  | some c => String.singleton c
  | none => endMark

namespace Outcome

variable {α β : Type} {outcome : Outcome α} {b : β}

def result? : Outcome α → Option α
  | .ok a _ => some a
  | .failed _ _ | .halted _ _ => none

def failure? : Outcome α → Option Failure
  | .failed f _ => some f
  | .ok _ _ | .halted _ _ => none

theorem exists_ok_of_result? {f : α → β} (h : outcome.result?.map f = some b) :
    ∃ a s, outcome = .ok a s ∧ f a = b := by
  cases outcome with
  | ok a s => exact ⟨a, s, rfl, Option.some.inj h⟩
  | failed _ _ | halted _ _ => cases h

theorem exists_failed_of_failure? {f : Failure → β} (h : outcome.failure?.map f = some b) :
    ∃ g s, outcome = .failed g s ∧ f g = b := by
  cases outcome with
  | failed g s => exact ⟨g, s, rfl, Option.some.inj h⟩
  | ok _ _ | halted _ _ => cases h

end Outcome

namespace Run

variable {α β : Type}

def Ends (r : Run α) (halts : Halt → Prop) (s : State) (good : α → State → Prop)
    (bad : Failure → State → Prop) : Prop :=
  match r s with
  | .ok a t => good a t
  | .failed f t => bad f t
  | .halted cause _ => halts cause

variable {halts : Halt → Prop} {s : State} {good good' : α → State → Prop}
variable {bad bad' : Failure → State → Prop}

/-- A run that neither fails nor halts gives a result. -/
theorem Ends.exists_ok {r : Run α} (h : r.Ends halts s good bad)
    (goesOn : ∀ cause, ¬ halts cause) (succeeds : ∀ f t, ¬ bad f t) :
    ∃ a t, r s = .ok a t ∧ good a t := by
  rw [Ends] at h
  cases hr : r s with
  | ok a t =>
    rw [hr] at h
    exact ⟨a, t, rfl, h⟩
  | failed f t =>
    rw [hr] at h
    exact absurd h (succeeds f t)
  | halted cause t =>
    rw [hr] at h
    exact absurd h (goesOn cause)

/-- What is known at the end of a run may be weakened. -/
theorem Ends.mono {r : Run α} (h : r.Ends halts s good bad)
    (hgood : ∀ a t, good a t → good' a t) (hbad : ∀ f t, bad f t → bad' f t) :
    r.Ends halts s good' bad' := by
  rw [Ends] at h ⊢
  cases hr : r s with
  | ok a t => rw [hr] at h; exact hgood a t h
  | failed f t => rw [hr] at h; exact hbad f t h
  | halted cause t => rw [hr] at h; exact h

theorem Ends.imp_ok {r : Run α} (h : r.Ends halts s good bad)
    (weaker : ∀ a t, good a t → good' a t) : r.Ends halts s good' bad :=
  h.mono weaker fun _ _ => id

theorem Ends.imp_failed {r : Run α} (h : r.Ends halts s good bad)
    (weaker : ∀ f t, bad f t → bad' f t) : r.Ends halts s good bad' :=
  h.mono (fun _ _ => id) weaker

/-- What never fails may be asked for any failure. -/
theorem Ends.of_never_fails {r : Run α} (h : r.Ends halts s good fun _ _ => False)
    (weaker : ∀ a t, good a t → good' a t) : r.Ends halts s good' bad' :=
  h.mono weaker fun _ _ => False.elim

theorem ends_pure {a : α} : (pure a : Run α).Ends halts s good bad ↔ good a s := Iff.rfl

/-- What a run ends in is what the next one begins in. -/
theorem ends_bind {r : Run α} {next : α → Run β} {good : β → State → Prop} :
    (r >>= next).Ends halts s good bad ↔
      r.Ends halts s (fun a t => (next a).Ends halts t good bad) bad := by
  rw [Ends, bind_apply, Ends]
  cases r s <;> rfl

theorem ends_map {r : Run α} {f : α → β} {good : β → State → Prop} :
    (f <$> r).Ends halts s good bad ↔ r.Ends halts s (fun a t => good (f a) t) bad :=
  ends_bind

theorem ends_fail {f : Failure} : (fail f : Run α).Ends halts s good bad ↔ bad f s := Iff.rfl

theorem ends_exhaust : (exhaust : Run α).Ends halts s good bad ↔ halts .exhausted := Iff.rfl

/-- A failure that is looked at is a result as any other. -/
theorem ends_observe {r : Run α} {good : Except Failure α → State → Prop} :
    r.observe.Ends halts s good bad ↔
      r.Ends halts s (fun a t => good (.ok a) t) (fun f t => good (.error f) t) := by
  rw [Ends, observe, Ends]
  cases r s <;> rfl

/-! ## The reader and the store -/

theorem ends_reader {good : Reader → State → Prop} :
    reader.Ends halts s good bad ↔ good s.reader s := Iff.rfl

theorem ends_position {good : Position → State → Prop} :
    position.Ends halts s good bad ↔ good s.reader.position s := Iff.rfl

theorem ends_input {good : Text → State → Prop} :
    input.Ends halts s good bad ↔ good s.reader.input s := Iff.rfl

theorem ends_store {good : Store → State → Prop} :
    store.Ends halts s good bad ↔ good s.store s := Iff.rfl

theorem ends_modifyStore {f : Store → Store} {good : Unit → State → Prop} :
    (modifyStore f).Ends halts s good bad ↔ good () ⟨s.reader, f s.store⟩ := Iff.rfl

theorem ends_emit {e : Event} {good : Unit → State → Prop} :
    (emit e).Ends halts s good bad ↔ good () ⟨s.reader, s.store.emit e⟩ := Iff.rfl

theorem ends_rounds {good : Nat → State → Prop} :
    rounds.Ends halts s good bad ↔ good (s.reader.bytesLeft + 1) s := Iff.rfl

theorem ends_found {good : String → State → Prop} :
    found.Ends halts s good bad ↔ good s.reader.found s := by
  rw [found, ends_bind, ends_reader, Reader.found]
  cases s.reader.peek? <;> rfl

/-- Going back either arrives or is a fault. -/
theorem ends_rewind {p : Position} {good : Unit → State → Prop} :
    (rewind p).Ends halts s good bad ↔
      match s.reader.rewind p with
      | .ok r => good () ⟨r, s.store⟩
      | .error f => halts (.fault f) := by
  rw [Ends, rewind]
  cases s.reader.rewind p <;> rfl

theorem ends_rewind_of_ok {p : Position} {r : Reader} (back : s.reader.rewind p = .ok r)
    {good : Unit → State → Prop} :
    (rewind p).Ends halts s good bad ↔ good () ⟨r, s.store⟩ := by
  rw [ends_rewind, back]

theorem ends_advance {move : Reader → Except Fault (Option (Text × Reader))}
    {good : Option (Text × Span) → State → Prop} :
    (advance move).Ends halts s good bad ↔
      match move s.reader with
      | .ok (some (text, r)) => good (some (text, ⟨s.reader.position, r.position⟩)) ⟨r, s.store⟩
      | .ok none => good none s
      | .error f => halts (.fault f) := by
  rw [Ends, advance]
  cases move s.reader with
  | ok moved => cases moved <;> rfl
  | error f => rfl

/-! ## Failing, and going back after a failure -/

theorem ends_failHere {message expected found : String} :
    (failHere message expected found : Run α).Ends halts s good bad ↔
      bad (.here message expected found s.reader) s := Iff.rfl

theorem ends_failAtEnd {message expected : String} :
    (failAtEnd message expected : Run α).Ends halts s good bad ↔
      bad (.here message expected endMark s.reader) s := Iff.rfl

/-- The level is put on top where the run has gone back to. -/
theorem ends_enclosing {r : Run α} {start : Position} {message : String} :
    (r.enclosing start message).Ends halts s good bad ↔
      r.Ends halts s good fun f t =>
        (rewind start).Ends halts t (fun _ u => bad (f.enclose message u.reader) u) bad := by
  simp only [enclosing, ends_bind, ends_observe, ends_pure, ends_reader, ends_fail]

theorem ends_orNothing {r : Run α} {start : Position} {good : Option α → State → Prop} :
    (r.orNothing start).Ends halts s good bad ↔
      r.Ends halts s (fun a t => good (some a) t) fun _ t =>
        (rewind start).Ends halts t (fun _ u => good none u) bad := by
  simp only [orNothing, ends_bind, ends_observe, ends_pure]

/-- Whether it succeeds or fails, the run goes back and tells which. -/
theorem ends_lookAhead {r : Run α} {start : Position} {good : Except Failure α → State → Prop} :
    (r.lookAhead start).Ends halts s good bad ↔
      r.Ends halts s
        (fun a t => (rewind start).Ends halts t (fun _ u => good (.ok a) u) bad)
        (fun f t => (rewind start).Ends halts t (fun _ u => good (.error f) u) bad) := by
  simp only [lookAhead, ends_bind, ends_observe, ends_pure]

/-! ## Runs that give a value -/

section GivesValue

variable {r : Run α} {t : State} {a : α} {start : Position}

/-- A run in two parts succeeds if the first does, and the second from there. -/
theorem bind_eq_ok_iff {next : α → Run β} {b : β} :
    (r >>= next) s = .ok b t ↔ ∃ a u, r s = .ok a u ∧ next a u = .ok b t := by
  rw [bind_apply]
  constructor
  · intro h
    cases hr : r s with
    | ok a u =>
      rw [hr] at h
      exact ⟨a, u, rfl, h⟩
    | failed f u | halted cause u =>
      rw [hr] at h
      cases h
  · rintro ⟨a, u, hr, hnext⟩
    rw [hr]
    exact hnext

/-- The failure of a run in two parts is that of the one or of the other. -/
theorem bind_eq_failed_iff {next : α → Run β} {f : Failure} :
    (r >>= next) s = .failed f t ↔
      r s = .failed f t ∨ ∃ a u, r s = .ok a u ∧ next a u = .failed f t := by
  rw [bind_apply]
  cases r s with
  | ok a u =>
    constructor
    · exact fun h => .inr ⟨a, u, rfl, h⟩
    · rintro (h | ⟨b, v, same, h⟩)
      · cases h
      · cases same
        exact h
  | failed g u =>
    constructor
    · rintro ⟨⟩
      exact .inl rfl
    · rintro (h | ⟨b, v, same, -⟩)
      · cases h
        rfl
      · cases same
  | halted cause u =>
    constructor
    · nofun
    · rintro (h | ⟨b, v, same, -⟩)
      · cases h
      · cases same

theorem enclosing_eq_ok_iff {message : String} :
    r.enclosing start message s = .ok a t ↔ r s = .ok a t := by
  rw [enclosing, bind_apply, observe]
  cases r s with
  | ok b u => exact Iff.rfl
  | failed f u =>
    show (rewind start >>= _) u = .ok a t ↔ _
    rw [bind_apply, rewind]
    cases u.reader.rewind start <;> exact ⟨nofun, nofun⟩
  | halted cause u => exact ⟨nofun, nofun⟩

theorem orNothing_eq_some_iff :
    r.orNothing start s = .ok (some a) t ↔ r s = .ok a t := by
  rw [orNothing, bind_apply, observe]
  cases r s with
  | ok b u =>
    show Outcome.ok (some b) u = .ok (some a) t ↔ _
    simp only [Outcome.ok.injEq, Option.some.injEq]
  | failed f u =>
    show (rewind start >>= _) u = .ok (some a) t ↔ _
    rw [bind_apply, rewind]
    cases u.reader.rewind start <;> exact ⟨nofun, nofun⟩
  | halted cause u => exact ⟨nofun, nofun⟩

/-- Nothing is given where the run failed and could be taken back. -/
theorem orNothing_eq_none_iff :
    r.orNothing start s = .ok none t ↔
      ∃ f u back, r s = .failed f u ∧ u.reader.rewind start = .ok back ∧ t = ⟨back, u.store⟩ := by
  rw [orNothing, bind_apply, observe]
  cases r s with
  | ok b u =>
    constructor
    · nofun
    · rintro ⟨f, v, back, failed, -⟩
      cases failed
  | failed f u =>
    show (rewind start >>= _) u = .ok none t ↔ _
    rw [bind_apply, rewind]
    constructor
    · intro h
      cases hback : u.reader.rewind start with
      | ok back =>
        rw [hback] at h
        cases h
        exact ⟨f, u, back, rfl, hback, rfl⟩
      | error fault =>
        rw [hback] at h
        cases h
    · rintro ⟨g, v, back, failed, hback, rfl⟩
      cases failed
      rw [hback]
      rfl
  | halted cause u =>
    constructor
    · nofun
    · rintro ⟨f, v, back, failed, -⟩
      cases failed

end GivesValue

/-! ## Runs one after the other -/

instance : LawfulMonad Run :=
  .mk' Run
    (by
      intro α r
      funext s
      change (r >>= fun a => pure (id a)) s = r s
      rw [bind_apply]
      cases r s <;> rfl)
    (fun _ _ => rfl)
    (by
      intro α β γ r f g
      funext s
      rw [bind_apply, bind_apply, bind_apply]
      cases r s <;> rfl)

section OneAfterTheOther

variable {r : Run α} {start : Reader} {t : State} {a : α} {f : Failure} {cause : Halt}

theorem bind_of_ok (ran : r s = .ok a t) (next : α → Run β) : (r >>= next) s = next a t := by
  rw [bind_apply, ran]

theorem bind_of_failed (ran : r s = .failed f t) (next : α → Run β) :
    (r >>= next) s = .failed f t := by
  rw [bind_apply, ran]

theorem bind_of_halted (ran : r s = .halted cause t) (next : α → Run β) :
    (r >>= next) s = .halted cause t := by
  rw [bind_apply, ran]

theorem enclosing_of_ok (ran : r s = .ok a t) (p : Position) (message : String) :
    r.enclosing p message s = .ok a t :=
  enclosing_eq_ok_iff.mpr ran

theorem enclosing_of_halted (ran : r s = .halted cause t) (p : Position) (message : String) :
    r.enclosing p message s = .halted cause t := by
  rw [enclosing, bind_apply, observe, ran]

theorem orNothing_of_ok (ran : r s = .ok a t) (p : Position) :
    r.orNothing p s = .ok (some a) t :=
  orNothing_eq_some_iff.mpr ran

theorem orNothing_of_halted (ran : r s = .halted cause t) (p : Position) :
    r.orNothing p s = .halted cause t := by
  rw [orNothing, bind_apply, observe, ran]

/-- From anywhere in its text a reader goes back to where it stood. -/
theorem rewind_to (input : t.reader.input = start.input)
    (inText : start.offset ≤ start.input.byteLength) :
    rewind start.position t = .ok () ⟨start, t.store⟩ := by
  have inside : start.position.offset ≤ t.reader.input.byteLength := input ▸ inText
  rw [rewind, Reader.rewind, if_pos inside, input]

theorem enclosing_of_failed (ran : r s = .failed f t) (input : t.reader.input = start.input)
    (inText : start.offset ≤ start.input.byteLength) (message : String) :
    r.enclosing start.position message s =
      .failed (f.enclose message start) ⟨start, t.store⟩ := by
  rw [enclosing, bind_apply, observe, ran]
  exact bind_of_ok (rewind_to input inText) _

theorem orNothing_of_failed (ran : r s = .failed f t) (input : t.reader.input = start.input)
    (inText : start.offset ≤ start.input.byteLength) :
    r.orNothing start.position s = .ok none ⟨start, t.store⟩ := by
  rw [orNothing, bind_apply, observe, ran]
  exact bind_of_ok (rewind_to input inText) _

end OneAfterTheOther

end Run

end RecursiveDescent
