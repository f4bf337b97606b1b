import RecursiveDescent.Proofs.Walk
import RecursiveDescent.Session

/-!
# Counting below a limit

Below a limit a movement is what it is without one, unless a number exceeds the limit: a number of a
position behind one of the symbols on the way, or the offset that bytes are to be taken up to. Then
the movement is a fault. Nothing else that a session does with its reader counts anything.
-/
namespace RecursiveDescent

namespace Reader

variable {limit : Limit} {goesOn : Reader → Bool} {r q : Reader} {n : Nat}

def StepOutgrows (limit : Limit) (r : Reader) : Prop :=
  ∃ next, r.step? = some next ∧ limit.holds next.position = false

/-- Some number exceeds the limit on the way over `n` symbols, or up to the end. -/
def TakeOutgrows (limit : Limit) (n : Nat) (r : Reader) : Prop :=
  ∃ k < n, ∃ q, r.steps? k = some q ∧ q.StepOutgrows limit

/-- Some number exceeds the limit on the way over `n` bytes, or the offset behind them does. -/
def TakeBytesOutgrows (limit : Limit) (n : Nat) (r : Reader) : Prop :=
  limit.admits (r.offset + n) = false ∨
    ∃ q, r.Reaches q ∧ q.offset < r.offset + n ∧ q.StepOutgrows limit

def NextLineOutgrows (limit : Limit) (r : Reader) : Prop :=
  ∃ next, r.nextLine? = some next ∧ limit.holds next.position = false

theorem goesOn_of_outgrows (h : r.outgrows limit goesOn n = true) : goesOn r = true := by
  cases n with
  | zero => cases h
  | succ n =>
    rw [outgrows, Bool.and_eq_true] at h
    exact h.1

/-- A walk that goes on behind a symbol goes on in front of it too. So it gets to where a number
exceeds the limit exactly if it goes on there. -/
theorem outgrows_iff
    (stays : ∀ {q next : Reader}, q.step? = some next → goesOn next = true → goesOn q = true) :
    r.outgrows limit goesOn n = true ↔
      ∃ k < n, ∃ q, r.steps? k = some q ∧ goesOn q = true ∧ q.StepOutgrows limit := by
  induction n generalizing r with
  | zero => simp [outgrows]
  | succ n ih =>
    constructor
    · intro h
      have goes := goesOn_of_outgrows h
      rw [outgrows, goes, Bool.true_and] at h
      cases step : r.step? with
      | none => simp [step] at h
      | some next =>
        rw [step] at h
        cases held : limit.holds next.position with
        | false => exact ⟨0, Nat.succ_pos n, r, rfl, goes, next, step, held⟩
        | true =>
          obtain ⟨k, fewer, q, walked, there, further⟩ := ih.mp (by simpa [held] using h)
          refine ⟨k + 1, Nat.succ_lt_succ fewer, q, ?_, there, further⟩
          rw [steps?, step]
          exact walked
    · rintro ⟨k, fewer, q, walked, there, next, step, held⟩
      cases k with
      | zero =>
        obtain rfl : r = q := Option.some.inj walked
        simp [outgrows, there, step, held]
      | succ k =>
        obtain ⟨first, begins, walked⟩ := Option.bind_eq_some_iff.mp walked
        have later := ih.mpr ⟨k, Nat.lt_of_succ_lt_succ fewer, q, walked, there, next, step, held⟩
        rw [outgrows, stays begins (goesOn_of_outgrows later), begins]
        simp [later]

theorem outgrows_take_iff :
    r.outgrows limit (fun _ => true) n = true ↔ r.TakeOutgrows limit n := by
  rw [outgrows_iff fun _ _ => rfl]
  simp only [true_and, TakeOutgrows]

/-- So many symbols have so many bytes, or more. -/
theorem add_le_offset_of_steps? {k : Nat} (h : r.steps? k = some q) : r.offset + k ≤ q.offset := by
  induction k generalizing r with
  | zero =>
    obtain rfl : r = q := Option.some.inj h
    exact Nat.le_refl _
  | succ k ih =>
    obtain ⟨first, begins, walked⟩ := Option.bind_eq_some_iff.mp h
    have onward := offset_lt_of_step? begins
    have further := ih walked
    omega

/-- Short of the amount asked for, some step takes a number past the limit. -/
theorem outgrows_takeBytes_iff :
    r.outgrows limit (·.offset < r.offset + n) n = true ↔
      ∃ q, r.Reaches q ∧ q.offset < r.offset + n ∧ q.StepOutgrows limit := by
  rw [outgrows_iff]
  · constructor
    · rintro ⟨k, -, q, walked, before, further⟩
      exact ⟨q, ⟨k, walked⟩, of_decide_eq_true before, further⟩
    · rintro ⟨q, ⟨k, walked⟩, before, further⟩
      have passed := add_le_offset_of_steps? walked
      exact ⟨k, by omega, q, walked, decide_eq_true before, further⟩
  · intro q next step before
    have onward := offset_lt_of_step? step
    exact decide_eq_true (Nat.lt_trans onward (of_decide_eq_true before))

/-! ## The movements -/

theorem takeIn_of_outgrows (h : r.TakeOutgrows limit n) :
    r.takeIn limit n = .error .overflow := by
  rw [takeIn, if_pos (outgrows_take_iff.mpr h)]

/-- Where no number exceeds the limit, machine words count as numbers do. -/
theorem takeIn_eq (h : ¬ r.TakeOutgrows limit n) : r.takeIn limit n = r.take n := by
  rw [takeIn, if_neg fun outgrown => h (outgrows_take_iff.mp outgrown)]

theorem takeBytesIn_of_outgrows (h : r.TakeBytesOutgrows limit n) :
    r.takeBytesIn limit n = .error .overflow := by
  rw [takeBytesIn, if_pos]
  rcases h with target | further
  · simp [target]
  · simp [outgrows_takeBytes_iff.mpr further]

theorem takeBytesIn_eq (h : ¬ r.TakeBytesOutgrows limit n) :
    r.takeBytesIn limit n = r.takeBytes n := by
  rw [takeBytesIn, if_neg]
  rw [Bool.or_eq_true, Bool.not_eq_true', outgrows_takeBytes_iff]
  exact h

theorem nextLineIn_of_outgrows (h : r.NextLineOutgrows limit) :
    r.nextLineIn limit = .error .overflow := by
  obtain ⟨next, line, held⟩ := h
  simp [nextLineIn, line, held]

theorem nextLineIn_eq (h : ¬ r.NextLineOutgrows limit) :
    r.nextLineIn limit = .ok r.nextLine? := by
  rw [nextLineIn]
  cases line : r.nextLine? with
  | none => rfl
  | some next =>
    cases held : limit.holds next.position with
    | true => simp [held]
    | false => exact absurd ⟨next, line, held⟩ h

end Reader

namespace Session

/-- On the way that the command has the reader go, a number exceeds the limit. -/
def Command.Outgrows (limit : Limit) (r : Reader) : Command → Prop
  | .take n => r.TakeOutgrows limit n
  | .takeBytes n => r.TakeBytesOutgrows limit n
  | .nextLine => r.NextLineOutgrows limit
  | _ => False

variable {limit : Limit} {s : Session} {command : Command}

/-- Without a limit no number is too great. -/
theorem not_outgrows_none (r : Reader) (command : Command) : ¬ command.Outgrows none r := by
  have step (q : Reader) : ¬ q.StepOutgrows none := by
    rintro ⟨next, -, held⟩
    cases held
  intro outgrows
  cases command with
  | take n =>
    obtain ⟨k, -, q, -, further⟩ := outgrows
    exact step q further
  | takeBytes n =>
    rcases outgrows with target | ⟨q, -, -, further⟩
    · cases target
    · exact step q further
  | nextLine =>
    obtain ⟨next, -, held⟩ := outgrows
    cases held
  | _ => exact outgrows

/-- A movement of the reader as a command: what was taken, nothing, or a fault. -/
theorem act_advance (s : Session) (move : Reader → Except Fault (Option (Text × Reader))) :
    s.act (takenReply <$> Run.advance move) =
      match move s.reader with
      | .ok (some (text, r)) => (.ok (.taken text ⟨s.reader.position, r.position⟩), s.withReader r)
      | .ok none => (.ok .nothing, s)
      | .error f => (.error (.fault f), s) := by
  show s.act (Run.advance move >>= fun moved => pure (takenReply moved)) = _
  rw [act, Run.bind_apply, Run.advance, reader]
  cases move s.state.reader with
  | ok moved => cases moved <;> rfl
  | error f => rfl

/-- A command on which a number exceeds the limit is a fault and leaves the session as it was. -/
theorem perform_of_outgrows (grammars : List (String × Grammar))
    (h : command.Outgrows limit s.reader) :
    s.perform grammars limit command = (.error (.fault .overflow), s) := by
  cases command with
  | take n => rw [perform, act_advance, Reader.takeIn_of_outgrows h]
  | takeBytes n => rw [perform, act_advance, Reader.takeBytesIn_of_outgrows h]
  | nextLine => rw [perform, Reader.nextLineIn_of_outgrows h]
  | _ => exact h.elim

/-- Where all numbers are below the limit, a command does the same without one. -/
theorem perform_eq (grammars : List (String × Grammar))
    (h : ¬ command.Outgrows limit s.reader) :
    s.perform grammars limit command = s.perform grammars none command := by
  have unlimited := not_outgrows_none s.reader command
  cases command with
  | take n =>
    simp only [perform, act_advance, Reader.takeIn_eq h, Reader.takeIn_eq unlimited]
  | takeBytes n =>
    simp only [perform, act_advance, Reader.takeBytesIn_eq h, Reader.takeBytesIn_eq unlimited]
  | nextLine => simp only [perform, Reader.nextLineIn_eq h, Reader.nextLineIn_eq unlimited]
  | _ => rfl

end Session

end RecursiveDescent
