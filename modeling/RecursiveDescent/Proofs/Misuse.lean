import RecursiveDescent.Proofs.LineTracking
import RecursiveDescent.Proofs.Safety

/-!
# Misuses of a reader

A session may put its reader anywhere in the text, inside a code point too, and what it asks for
past the end is moved back to it. Wherever the reader stands, it can be misused in two ways: to take
nothing inside a code point, and to go back to a position past the end. Without a limit for numbers
nothing else that a session does with its reader is a fault. In machine words there is one fault
more, which is no misuse: on the way a number exceeds the limit.
-/
namespace RecursiveDescent

/-- An offset in a text is between two code points or inside one. -/
theorem Text.cut_cases {n : Nat} {t : Text} (h : n ≤ t.byteLength) :
    (t.dropBytes? n).isSome ∨ ∃ (before : Text) (c : Char) (after : Text),
      t = before ++ c :: after ∧ before.byteLength < n ∧ n < before.byteLength + c.utf8Size := by
  fun_induction dropBytes? n t with
  | case1 => simp
  | case2 => simp [byteLength] at h
  | case3 n c rest hle ih =>
    simp only [byteLength] at h
    rcases ih (by omega) with cut | ⟨before, d, after, rfl, hbefore, hafter⟩
    · exact .inl cut
    · refine .inr ⟨c :: before, d, after, rfl, ?_, ?_⟩ <;> simp only [byteLength] <;> omega
  | case4 n c rest hle =>
    refine .inr ⟨[], c, rest, rfl, ?_, ?_⟩ <;> simp only [byteLength] <;> omega

namespace Reader

/-- Behind some of the bytes of a code point, but not all. -/
def InsideCodePoint (r : Reader) : Prop :=
  ∃ (before : Text) (c : Char) (after : Text), r.input = before ++ c :: after ∧
    before.byteLength < r.offset ∧ r.offset < before.byteLength + c.utf8Size

/-- The reader is over the text `t`, and not past its end. -/
structure Within (t : Text) (r : Reader) : Prop where
  input : r.input = t
  offset_le : r.offset ≤ t.byteLength

variable {r r' : Reader} {t : Text} {n : Nat} {f : Fault}

theorem InsideCodePoint.not_onBoundary (h : r.InsideCodePoint) : ¬ r.OnBoundary := by
  obtain ⟨before, c, after, hinput, hbefore, hafter⟩ := h
  obtain ⟨k, hk⟩ : ∃ k, r.offset = before.byteLength + (k + 1) :=
    ⟨r.offset - before.byteLength - 1, by omega⟩
  have wide : ¬ c.utf8Size ≤ k + 1 := by omega
  rw [OnBoundary, hinput, hk, Text.dropBytes?_add, Text.dropBytes?, if_neg wide]
  simp

/-- In the text a reader stands inside a code point or on a boundary. -/
theorem insideCodePoint_iff (h : r.offset ≤ r.input.byteLength) :
    r.InsideCodePoint ↔ ¬ r.OnBoundary := by
  constructor
  · exact InsideCodePoint.not_onBoundary
  · intro hb
    rcases Text.cut_cases h with cut | inside
    · exact absurd cut hb
    · exact inside

theorem within_startAt (input : Text) (p : Position) : (startAt input p).Within input :=
  ⟨rfl, Nat.min_le_right _ _⟩

/-! ## Inside a code point -/

theorem step?_inside (h : ¬ r.OnBoundary) : r.step? = none :=
  step?_eq_none (remaining_eq_nil h)

theorem passTo_inside (h : ¬ r.OnBoundary) : r.passTo r = .error .insideCodePoint := by
  have uncut : r.input.dropBytes? r.offset = none := by simpa [OnBoundary] using h
  simp [passTo, Text.slice?, uncut]

/-- There is no way out, other than back. -/
theorem eq_of_reaches_inside (h : ¬ r.OnBoundary) (walk : r.Reaches r') : r' = r := by
  obtain ⟨n, hn⟩ := walk
  cases n with
  | zero => exact (Option.some.inj hn).symm
  | succ n => simp [steps?, step?_inside h] at hn

theorem not_stepOutgrows_inside (h : ¬ r.OnBoundary) (limit : Limit) :
    ¬ r.StepOutgrows limit := by
  rintro ⟨next, step, -⟩
  cases (step?_inside h).symm.trans step

theorem not_takeOutgrows_inside (h : ¬ r.OnBoundary) (limit : Limit) (n : Nat) :
    ¬ r.TakeOutgrows limit n := by
  rintro ⟨k, -, q, walked, further⟩
  rw [eq_of_reaches_inside h ⟨k, walked⟩] at further
  exact not_stepOutgrows_inside h limit further

theorem not_takeBytesOutgrows_inside (h : ¬ r.OnBoundary) {limit : Limit} {n : Nat}
    (target : limit.admits (r.offset + n) = true) : ¬ r.TakeBytesOutgrows limit n := by
  rintro (beyond | ⟨q, walk, -, further⟩)
  · cases target.symm.trans beyond
  · rw [eq_of_reaches_inside h walk] at further
    exact not_stepOutgrows_inside h limit further

/-- Taking nothing is the one movement inside a code point that is a fault. -/
theorem take_inside (h : ¬ r.OnBoundary) (n : Nat) :
    r.take n = if n = 0 then .error .insideCodePoint else .ok none := by
  cases n with
  | zero => simp [take, steps?, passTo_inside h, Except.map]
  | succ n => simp [take, steps?, step?_inside h]

theorem takeBytes_inside (h : ¬ r.OnBoundary) (n : Nat) :
    r.takeBytes n = if n = 0 then .error .insideCodePoint else .ok none := by
  cases n with
  | zero => simp [takeBytes, reach?, passTo_inside h, Except.map]
  | succ n => simp [takeBytes, reach?, step?_inside h]

theorem nextLine?_inside (h : ¬ r.OnBoundary) : r.nextLine? = none := by
  simp [nextLine?, remaining_eq_nil h, Text.firstSymbol?]

/-! ## Faults -/

/-- To take symbols is a fault only if none are asked for, inside a code point. -/
theorem take_eq_error_iff :
    r.take n = .error f ↔ ¬ r.OnBoundary ∧ n = 0 ∧ f = .insideCodePoint := by
  by_cases hb : r.OnBoundary
  · have moves := moves_take hb n
    generalize r.take n = result at moves ⊢
    cases moves <;> simp [hb]
  · rw [take_inside hb]
    by_cases hn : n = 0 <;> simp [hn, hb, eq_comm]

theorem takeBytes_eq_error_iff :
    r.takeBytes n = .error f ↔ ¬ r.OnBoundary ∧ n = 0 ∧ f = .insideCodePoint := by
  by_cases hb : r.OnBoundary
  · have moves := moves_takeBytes hb n
    generalize r.takeBytes n = result at moves ⊢
    cases moves <;> simp [hb]
  · rw [takeBytes_inside hb]
    by_cases hn : n = 0 <;> simp [hn, hb, eq_comm]

/-- To go back is a fault only if it is past the end. -/
theorem rewind_eq_error_iff {p : Position} :
    r.rewind p = .error f ↔ r.input.byteLength < p.offset ∧ f = .pastEnd := by
  by_cases inside : p.offset ≤ r.input.byteLength
  · simp [rewind, inside, Nat.not_lt.mpr inside]
  · simp [rewind, inside, Nat.lt_of_not_le inside, eq_comm]

/-- What is passed on the way over one symbol, wherever the reader stands. -/
theorem exists_passed_of_step? (h : r.step? = some r') :
    ∃ passed, r.passTo r' = .ok (passed, r') := by
  obtain ⟨head, -, ahead, -, rfl⟩ := exists_head_of_step? h
  exact ⟨head, passTo_past (onBoundary_of_step? h) ahead⟩

/-! ## Staying in the text -/

/-- No walk leads out of the text, wherever it begins. -/
theorem Within.of_reaches (h : r.Within t) (walk : r.Reaches r') : r'.Within t := by
  by_cases hb : r.OnBoundary
  · have inside := (walk.onBoundary hb).offset_le
    rw [walk.input, h.input] at inside
    exact ⟨walk.input.trans h.input, inside⟩
  · rw [eq_of_reaches_inside hb walk]
    exact h

theorem Within.rewind {p : Position} (h : r.Within t) (back : r.rewind p = .ok r') :
    r'.Within t := by
  by_cases inside : p.offset ≤ r.input.byteLength
  · simp only [Reader.rewind, if_pos inside] at back
    cases back
    exact ⟨h.input, by rw [← h.input]; exact inside⟩
  · simp [Reader.rewind, inside] at back

end Reader

namespace Session

/-- The commands for the reader itself. To run a parser is none, nor is to draw a caret, which asks
the last failure only. -/
def Command.drives : Command → Bool
  | .parse _ | .caretLines => false
  | _ => true

/-- The misuses. To go back to a position that was saved is none. -/
inductive Misuses (r : Reader) : Command → Fault → Prop
  | takeNothing : r.InsideCodePoint → Misuses r (.take 0) .insideCodePoint
  | takeNoBytes : r.InsideCodePoint → Misuses r (.takeBytes 0) .insideCodePoint
  | rewindPastEnd {p : Position} : r.input.byteLength < p.offset →
    Misuses r (.rewindTo p) .pastEnd

/-- The commands that name a number or a position, which may be a wrong one. -/
def Command.measures : Command → Bool
  | .take _ | .takeBytes _ | .rewindTo _ => true
  | _ => false

theorem Misuses.measures {r : Reader} {command : Command} {f : Fault}
    (h : Misuses r command f) : command.measures = true := by
  cases h <;> rfl

section Misuses

variable {r : Reader} {n : Nat} {f : Fault}

theorem misuses_take_iff :
    Misuses r (.take n) f ↔ r.InsideCodePoint ∧ n = 0 ∧ f = .insideCodePoint := by
  constructor
  · intro misuse
    cases misuse with
    | takeNothing inside => exact ⟨inside, rfl, rfl⟩
  · rintro ⟨inside, rfl, rfl⟩
    exact .takeNothing inside

theorem misuses_takeBytes_iff :
    Misuses r (.takeBytes n) f ↔ r.InsideCodePoint ∧ n = 0 ∧ f = .insideCodePoint := by
  constructor
  · intro misuse
    cases misuse with
    | takeNoBytes inside => exact ⟨inside, rfl, rfl⟩
  · rintro ⟨inside, rfl, rfl⟩
    exact .takeNoBytes inside

theorem misuses_rewindTo_iff {p : Position} :
    Misuses r (.rewindTo p) f ↔ r.input.byteLength < p.offset ∧ f = .pastEnd := by
  constructor
  · intro misuse
    cases misuse with
    | rewindPastEnd past => exact ⟨past, rfl⟩
  · rintro ⟨past, rfl⟩
    exact .rewindPastEnd past

end Misuses

/-- The reader stays in the text, and so does all that the session keeps. -/
structure Within (t : Text) (s : Session) : Prop where
  reader : s.reader.Within t
  saved : ∀ entry ∈ s.saved, entry.2.offset ≤ t.byteLength
  forks : ∀ entry ∈ s.forks, entry.2.Within t

variable {t : Text} {s : Session}

/-! ## What a command does -/

theorem act_rewind (s : Session) (p : Position) :
    s.act ((fun _ => .nothing) <$> Run.rewind p) =
      match s.reader.rewind p with
      | .ok r => (.ok .nothing, s.withReader r)
      | .error f => (.error (.fault f), s) := by
  show s.act (Run.rewind p >>= fun _ => pure .nothing) = _
  rw [act, Run.bind_apply, Run.rewind, reader]
  cases s.state.reader.rewind p <;> rfl

theorem act_advance_error_iff (s : Session)
    (move : Reader → Except Fault (Option (Text × Reader))) (cause : Halt) :
    (s.act (takenReply <$> Run.advance move)).1 = .error cause ↔
      ∃ f, cause = .fault f ∧ move s.reader = .error f := by
  rw [act_advance]
  split <;> rename_i moved <;> simp [moved, eq_comm]

/-- A command that goes back is a fault if going back is. -/
theorem act_rewind_error_iff (s : Session) (p : Position) (cause : Halt) :
    (s.act ((fun _ => .nothing) <$> Run.rewind p)).1 = .error cause ↔
      ∃ f, cause = .fault f ∧ s.reader.rewind p = .error f := by
  rw [act_rewind]
  split <;> rename_i back <;> simp [back, eq_comm]

theorem Within.withReader (h : s.Within t) {r : Reader} (hr : r.Within t) :
    (s.withReader r).Within t :=
  ⟨hr, h.saved, h.forks⟩

theorem Within.advance (h : s.Within t) {move : Reader → Except Fault (Option (Text × Reader))}
    (moves : ∀ text r, move s.reader = .ok (some (text, r)) → s.reader.Reaches r) :
    (s.act (takenReply <$> Run.advance move)).2.Within t := by
  rw [act_advance]
  split
  · rename_i text r moved
    exact h.withReader (h.reader.of_reaches (moves text r moved))
  · exact h
  · exact h

theorem Within.rewind (h : s.Within t) (p : Position) :
    (s.act ((fun _ => .nothing) <$> Run.rewind p)).2.Within t := by
  rw [act_rewind]
  split
  · rename_i r back
    exact h.withReader (h.reader.rewind back)
  · exact h

/-- One command: the session stays in its text, also when the command is a fault. -/
theorem perform_within (grammars : List (String × Grammar)) (limit : Limit) (h : s.Within t)
    {command : Command} (drives : command.drives = true) :
    (s.perform grammars limit command).2.Within t := by
  by_cases outgrows : command.Outgrows limit s.reader
  · rw [perform_of_outgrows grammars outgrows]
    exact h
  rw [perform_eq grammars outgrows]
  have unlimited := not_outgrows_none s.reader command
  cases command with
  | take n =>
    refine h.advance fun _ _ moved => ?_
    rw [Reader.takeIn_eq unlimited] at moved
    exact Reader.reaches_of_take moved
  | takeBytes n =>
    refine h.advance fun _ _ moved => ?_
    rw [Reader.takeBytesIn_eq unlimited] at moved
    exact Reader.reaches_of_takeBytes moved
  | nextLine =>
    rw [perform, Reader.nextLineIn_eq unlimited]
    cases hnext : s.reader.nextLine? with
    | none => exact h
    | some r => exact h.withReader (h.reader.of_reaches (Reader.reaches_of_nextLine? hnext))
  | save slot =>
    refine ⟨h.reader, ?_, h.forks⟩
    rintro entry (_ | ⟨_, kept⟩)
    · exact h.reader.offset_le
    · exact h.saved entry kept
  | rewind slot =>
    rw [perform]
    cases s.saved.lookup slot with
    | none => exact h
    | some p => exact h.rewind p
  | rewindTo p => exact h.rewind p
  | fork slot => exact ⟨h.reader, h.saved, List.forall_mem_cons.mpr ⟨h.reader, h.forks⟩⟩
  | swap slot =>
    rw [perform]
    cases hslot : s.forks.lookup slot with
    | none => exact h
    | some other =>
      have there := h.forks _ (mem_of_lookup hslot)
      exact ⟨there, h.saved, List.forall_mem_cons.mpr ⟨h.reader, h.forks⟩⟩
  | enclose message =>
    rw [perform]
    cases s.last <;> exact ⟨h.reader, h.saved, h.forks⟩
  | expectInstead expected =>
    rw [perform]
    cases s.last <;> exact ⟨h.reader, h.saved, h.forks⟩
  | parse name => cases drives
  | caretLines => cases drives
  | failHere message expected found | failAtEnd message expected | peek | remaining | input
  | currentLine | atEnd | lineIndex | lineStarts | position =>
    exact ⟨h.reader, h.saved, h.forks⟩

/-- A reply to a command that cannot be a misuse. -/
theorem reply_error_iff {r : Reader} {command : Command} (safe : command.measures = false)
    (reply : Reply) (cause : Halt) :
    (.ok reply : Except Halt Reply) = .error cause ↔
      ∃ f, cause = .fault f ∧ Misuses r command f := by
  constructor
  · intro same
    cases same
  · rintro ⟨f, -, misuse⟩
    rw [misuse.measures] at safe
    cases safe

/-- One command without a limit: it is a fault if and only if it is a misuse. -/
theorem perform_error_iff (grammars : List (String × Grammar)) (h : s.Within t)
    {command : Command} (drives : command.drives = true) (cause : Halt) :
    (s.perform grammars none command).1 = .error cause ↔
      ∃ f, cause = .fault f ∧ Misuses s.reader command f := by
  have unlimited := not_outgrows_none s.reader command
  have stuck : s.reader.InsideCodePoint ↔ ¬ s.reader.OnBoundary :=
    Reader.insideCodePoint_iff (by rw [h.reader.input]; exact h.reader.offset_le)
  cases command with
  | take n =>
    refine (act_advance_error_iff s _ cause).trans ?_
    simp only [Reader.takeIn_eq unlimited, Reader.take_eq_error_iff, misuses_take_iff, stuck]
  | takeBytes n =>
    refine (act_advance_error_iff s _ cause).trans ?_
    simp only [Reader.takeBytesIn_eq unlimited, Reader.takeBytes_eq_error_iff,
      misuses_takeBytes_iff, stuck]
  | rewindTo p =>
    refine (act_rewind_error_iff s p cause).trans ?_
    simp only [Reader.rewind_eq_error_iff, misuses_rewindTo_iff]
  | rewind slot =>
    rw [perform]
    cases hslot : s.saved.lookup slot with
    | none => exact reply_error_iff rfl _ cause
    | some p =>
      have kept : p.offset ≤ s.reader.input.byteLength := by
        rw [h.reader.input]
        exact h.saved _ (mem_of_lookup hslot)
      refine (act_rewind_error_iff s p cause).trans ?_
      refine exists_congr fun f => and_congr_right fun _ => ?_
      rw [Reader.rewind_eq_error_iff]
      refine ⟨fun past => absurd kept (Nat.not_le.mpr past.1), fun misuse => ?_⟩
      cases misuse
  | nextLine =>
    rw [perform, Reader.nextLineIn_eq unlimited]
    cases s.reader.nextLine? <;> exact reply_error_iff rfl _ cause
  | swap slot =>
    rw [perform]
    cases s.forks.lookup slot <;> exact reply_error_iff rfl _ cause
  | enclose message =>
    rw [perform]
    cases s.last <;> exact reply_error_iff rfl _ cause
  | expectInstead expected =>
    rw [perform]
    cases s.last <;> exact reply_error_iff rfl _ cause
  | parse name => cases drives
  | caretLines => cases drives
  | save slot | fork slot | failHere message expected found | failAtEnd message expected | peek
  | remaining | input | currentLine | atEnd | lineIndex | lineStarts | position =>
    exact reply_error_iff rfl _ cause

/-- One command below a limit: a number exceeds the limit on the way, or the command is a misuse. -/
theorem perform_error_below_iff (grammars : List (String × Grammar)) (limit : Limit)
    (h : s.Within t) {command : Command} (drives : command.drives = true) (cause : Halt) :
    (s.perform grammars limit command).1 = .error cause ↔
      command.Outgrows limit s.reader ∧ cause = .fault .overflow ∨
        ¬ command.Outgrows limit s.reader ∧ ∃ f, cause = .fault f ∧ Misuses s.reader command f := by
  by_cases outgrows : command.Outgrows limit s.reader
  · rw [perform_of_outgrows grammars outgrows]
    simp [outgrows, eq_comm]
  · rw [perform_eq grammars outgrows, perform_error_iff grammars h drives]
    simp [outgrows]

/-- A whole session: up to its end, or to its first fault, the reader stays in the text. -/
theorem performAll_within (grammars : List (String × Grammar)) (limit : Limit) (h : s.Within t)
    {commands : List Command} (drives : ∀ command ∈ commands, command.drives = true) :
    (∀ told ∈ (performAll grammars s commands limit).1, told.2.offset ≤ t.byteLength) ∧
      (performAll grammars s commands limit).2.Within t := by
  induction commands generalizing s with
  | nil => exact ⟨nofun, h⟩
  | cons command commands ih =>
    obtain ⟨first, drives⟩ := List.forall_mem_cons.mp drives
    have next := perform_within grammars limit h first
    rw [performAll]
    generalize s.perform grammars limit command = result at next ⊢
    obtain ⟨reply, s'⟩ := result
    cases reply with
    | error cause => exact ⟨List.forall_mem_singleton.mpr next.reader.offset_le, next⟩
    | ok reply =>
      obtain ⟨told, final⟩ := ih next drives
      exact ⟨List.forall_mem_cons.mpr ⟨next.reader.offset_le, told⟩, final⟩

/-- Inside a code point nothing can be taken, and there is no next line. -/
theorem perform_inside (grammars : List (String × Grammar)) (limit : Limit)
    (inside : s.reader.InsideCodePoint) :
    (∀ n, 0 < n → s.perform grammars limit (.take n) = (.ok .nothing, s) ∧
      (limit.admits (s.reader.offset + n) = true →
        s.perform grammars limit (.takeBytes n) = (.ok .nothing, s))) ∧
      s.perform grammars limit .nextLine = (.ok (.flag false), s) := by
  have hb := inside.not_onBoundary
  have noLine : ¬ s.reader.NextLineOutgrows limit := by
    rintro ⟨next, line, -⟩
    cases (Reader.nextLine?_inside hb).symm.trans line
  refine ⟨fun n hn => ⟨?_, fun target => ?_⟩, ?_⟩
  · rw [perform, act_advance, Reader.takeIn_eq (Reader.not_takeOutgrows_inside hb limit n),
      Reader.take_inside hb, if_neg (Nat.pos_iff_ne_zero.mp hn)]
  · rw [perform, act_advance, Reader.takeBytesIn_eq (Reader.not_takeBytesOutgrows_inside hb target),
      Reader.takeBytes_inside hb, if_neg (Nat.pos_iff_ne_zero.mp hn)]
  · rw [perform, Reader.nextLineIn_eq noLine, Reader.nextLine?_inside hb]
    rfl

/-- Begun anywhere, and driven in any way, the reader of a session stays in its text. Whatever is
done next is a fault if and only if a number exceeds the limit on the way, or if it is a misuse; so
without a limit the misuses are all. On the way over a longer text, each symbol that is passed can
be cut out of it, and so can the line around the reader. -/
theorem faults_iff_misuses (input : Text) (p : Position) (grammars : List (String × Grammar))
    (commands : List Command) (drives : ∀ command ∈ commands, command.drives = true)
    (limit : Limit) :
    let run := (Session.start (Reader.startAt input p)).performAll grammars commands limit
    (∀ told ∈ run.1, told.2.offset ≤ input.byteLength) ∧
      run.2.reader.input = input ∧ run.2.reader.offset ≤ input.byteLength ∧
      (∀ next : Command, next.drives = true → ∀ cause,
        (run.2.perform grammars limit next).1 = .error cause ↔
          next.Outgrows limit run.2.reader ∧ cause = .fault .overflow ∨
            ¬ next.Outgrows limit run.2.reader ∧
              ∃ f, cause = .fault f ∧ Misuses run.2.reader next f) ∧
      (∀ next : Command, limit = none → ¬ next.Outgrows limit run.2.reader) ∧
      (run.2.reader.InsideCodePoint →
        (∀ n, 0 < n → run.2.perform grammars limit (.take n) = (.ok .nothing, run.2) ∧
          (limit.admits (run.2.reader.offset + n) = true →
            run.2.perform grammars limit (.takeBytes n) = (.ok .nothing, run.2))) ∧
        run.2.perform grammars limit .nextLine = (.ok (.flag false), run.2)) ∧
      run.2.reader.CutsFit ∧
      ∀ r r', run.2.reader.Reaches r → r.step? = some r' →
        ∃ passed, r.passTo r' = .ok (passed, r') := by
  intro run
  have start : (Session.start (Reader.startAt input p)).Within input :=
    ⟨Reader.within_startAt input p, nofun, nofun⟩
  obtain ⟨told, final⟩ := performAll_within grammars limit start drives
  refine ⟨told, final.reader.input, final.reader.offset_le, ?_, ?_, ?_, Reader.cutsFit _, ?_⟩
  · exact fun next drives cause => perform_error_below_iff grammars limit final drives cause
  · rintro next rfl
    exact not_outgrows_none run.2.reader next
  · exact fun inside => perform_inside grammars limit inside
  · exact fun r r' _ step => Reader.exists_passed_of_step? step

/-- Into a code point, out of it and back again, in machine words. -/
theorem faults_iff_misuses_inside :
    let input : Text := ['é', '\r', '\n']
    let commands : List Command :=
      [.take 1, .fork "end", .rewindTo ⟨1, 7, 7⟩, .save "inside", .takeBytes 1, .nextLine,
        .swap "end", .currentLine, .rewind "inside"]
    let s := ((Session.start (Reader.startAt input ⟨9, 1, 1⟩)).performAll [] commands).2
    (∀ command ∈ commands, command.drives = true) ∧ s.reader.InsideCodePoint ∧
      (s.perform [] .word (.takeBytes 0)).1 = .error (.fault .insideCodePoint) ∧
      (s.perform [] .word (.rewindTo ⟨5, 1, 1⟩)).1 = .error (.fault .pastEnd) ∧
      (s.perform [] .word (.takeBytes (UInt64.size - 1))).1 = .error (.fault .overflow) ∧
      s.perform [] .word (.take 2) = (.ok .nothing, s) := by
  intro input commands s
  have drives : ∀ command ∈ commands, command.drives = true := by decide
  obtain ⟨-, hinput, -, faults, -, idle, -⟩ :=
    faults_iff_misuses input ⟨9, 1, 1⟩ [] commands drives .word
  have inside : s.reader.InsideCodePoint := ⟨[], 'é', ['\r', '\n'], hinput, by decide, by decide⟩
  have fits : ¬ (Command.takeBytes 0).Outgrows .word s.reader :=
    Reader.not_takeBytesOutgrows_inside inside.not_onBoundary rfl
  have offset : s.reader.offset = 1 := rfl
  have beyond : (Command.takeBytes (UInt64.size - 1)).Outgrows .word s.reader := by
    refine .inl ?_
    rw [offset]
    decide
  refine ⟨drives, inside, ?_, ?_, ?_, ((idle inside).1 2 (by decide)).1⟩
  · exact (faults (.takeBytes 0) rfl _).mpr (.inr ⟨fits, _, rfl, .takeNoBytes inside⟩)
  · exact (faults (.rewindTo ⟨5, 1, 1⟩) rfl _).mpr
      (.inr ⟨nofun, _, rfl, .rewindPastEnd (by decide)⟩)
  · exact (faults (.takeBytes (UInt64.size - 1)) rfl _).mpr (.inl ⟨beyond, rfl⟩)

/-- More bytes than a word can count are asked for behind the only letter, and a letter is taken in
a column with the greatest number of a word. Neither is a misuse, and both are faults. -/
theorem faults_without_misuse :
    let s := ((Session.start (Reader.start ['a'])).performAll [] [.take 1]).2
    let u := Session.start (Reader.startAt ['a'] ⟨0, 1, UInt64.size - 1⟩)
    (s.perform [] .word (.takeBytes (UInt64.size - 1))).1 = .error (.fault .overflow) ∧
      (∀ f, ¬ Misuses s.reader (.takeBytes (UInt64.size - 1)) f) ∧
      (u.perform [] .word (.take 1)).1 = .error (.fault .overflow) ∧
      ∀ f, ¬ Misuses u.reader (.take 1) f := by
  refine ⟨rfl, fun f misuse => ?_, rfl, nofun⟩
  generalize amount : UInt64.size - 1 = n at misuse
  cases misuse with
  | takeNoBytes inside => cases amount

end Session

end RecursiveDescent
