import RecursiveDescent.Proofs.Ending
import RecursiveDescent.Proofs.Limits

/-!
# Lines and columns

A reader counts its line and column as it goes. However it is moved, and to whichever of its
earlier positions it goes back, they are what the line starts of its text tell of its offset,
counted on from where it began.
-/
namespace RecursiveDescent

namespace Text

def lineStartsIn (t : Text) (a b : Nat) : List Nat :=
  t.lineStarts.filter fun s => a < s ∧ s ≤ b

theorem lineStartsIn_append {walked rest : Text} (before : Text)
    (whole : ¬ SplitsBreak walked rest) :
    (before ++ (walked ++ rest)).lineStartsIn before.byteLength
      (before.byteLength + walked.byteLength) = lineEnds before.byteLength walked := by
  have nested : ∀ (a b : Nat) (starts : List Nat), starts.filter (fun s => a < s ∧ s ≤ b) =
      (starts.filter (a < ·)).filter (· ≤ b) := by
    intro a b starts
    rw [List.filter_filter]
    exact List.filter_congr fun s _ => by simp [and_comm]
  have inside : (lineEnds before.byteLength walked).filter
      (· ≤ before.byteLength + walked.byteLength) = lineEnds before.byteLength walked := by
    rw [List.filter_eq_self]
    exact fun s hs => decide_eq_true (le_of_mem_lineEnds hs).2
  have behind : (lineEnds (before.byteLength + walked.byteLength) rest).filter
      (· ≤ before.byteLength + walked.byteLength) = [] := by
    rw [List.filter_eq_nil_iff]
    intro s hs
    have := (le_of_mem_lineEnds hs).1
    simpa using this
  rw [lineStartsIn, nested, filter_lineStarts_append, lineEnds_append whole, List.filter_append,
    inside, behind, List.append_nil]

end Text

namespace Position

/-- What the line starts of `t` tell of the offset of `q`, counted on from `p`. -/
def CountsFrom (t : Text) (p q : Position) : Prop :=
  q.line = p.line + (t.lineStartsIn p.offset q.offset).length ∧
    match (t.lineStartsIn p.offset q.offset).getLast? with
    | some s => ∃ line, t.slice? s q.offset = some line ∧ q.column = 1 + line.length
    | none => ∃ line, t.slice? p.offset q.offset = some line ∧ q.column = p.column + line.length

theorem after_break {c : Char} (h : isLineBreak c = true) (p : Position) (width : Nat) :
    p.after ⟨c, width⟩ = ⟨p.offset + width, p.line + 1, 1⟩ := by
  rw [after, if_pos h]

theorem after_other {c : Char} (h : ¬ isLineBreak c = true) (p : Position) (width : Nat) :
    p.after ⟨c, width⟩ = ⟨p.offset + width, p.line, p.column + 1⟩ := by
  rw [after, if_neg h]

/-- For each line end that is passed the reader counts a line. -/
theorem line_past (p : Position) (t : Text) :
    (p.past t).line = p.line + (t.lineEnds p.offset).length := by
  fun_induction past p t with
  | case1 => rfl
  | case2 p rest ih =>
    rw [ih, after_break rfl, Text.lineEnds, List.length_cons]
    dsimp only
    omega
  | case3 p c rest single ih =>
    rw [ih, Text.lineEnds]
    · by_cases hc : isLineBreak c = true
      · rw [after_break hc, if_pos hc, Text.utf8Size_of_isLineBreak hc, List.length_cons]
        dsimp only
        omega
      · rw [after_other hc, if_neg hc]
    · exact single

/-- The column behind `t` counts what follows the last line start in it, if there is one. -/
def ColumnCounts (p : Position) (t : Text) : Prop :=
  ∃ a b : Text, t = a ++ b ∧
    match (t.lineEnds p.offset).getLast? with
    | some s => s = p.offset + a.byteLength ∧ (p.past t).column = 1 + b.length
    | none => a = [] ∧ (p.past t).column = p.column + b.length

/-- A line break in front: the counting starts anew behind it, unless there is another one. -/
theorem ColumnCounts.behind_break {p : Position} {t : Text} {line : Nat} (breakAhead : Text)
    (behind : ColumnCounts ⟨p.offset + breakAhead.byteLength, line, 1⟩ t)
    (hpast : p.past (breakAhead ++ t) = past ⟨p.offset + breakAhead.byteLength, line, 1⟩ t)
    (hends : Text.lineEnds p.offset (breakAhead ++ t) =
      (p.offset + breakAhead.byteLength) :: Text.lineEnds (p.offset + breakAhead.byteLength) t) :
    ColumnCounts p (breakAhead ++ t) := by
  obtain ⟨a, b, rfl, counts⟩ := behind
  refine ⟨breakAhead ++ a, b, (List.append_assoc breakAhead a b).symm, ?_⟩
  rw [hends, hpast, List.getLast?_cons, Text.byteLength_append]
  dsimp only at counts
  cases hlast : (Text.lineEnds (p.offset + breakAhead.byteLength) (a ++ b)).getLast? with
  | none =>
    rw [hlast] at counts
    obtain ⟨rfl, column⟩ := counts
    exact ⟨rfl, column⟩
  | some s =>
    rw [hlast] at counts
    exact ⟨by rw [Option.getD_some, counts.1, Nat.add_assoc], counts.2⟩

/-- Behind the last line end columns are counted from one; if there is none, they are counted on. -/
theorem columnCounts (p : Position) (t : Text) : ColumnCounts p t := by
  fun_induction past p t with
  | case1 => exact ⟨[], [], rfl, rfl, rfl⟩
  | case2 p rest ih => exact ih.behind_break ['\r', '\n'] rfl rfl
  | case3 p c rest single ih =>
    have hpast : p.past (c :: rest) = (p.after ⟨c, c.utf8Size⟩).past rest := by
      rw [past]
      exact single
    by_cases hc : isLineBreak c = true
    · have hends : Text.lineEnds p.offset (c :: rest) =
          (p.offset + c.utf8Size) :: Text.lineEnds (p.offset + c.utf8Size) rest := by
        rw [Text.lineEnds, if_pos hc, Text.utf8Size_of_isLineBreak hc]
        exact single
      rw [after_break hc] at ih hpast
      exact ih.behind_break [c] hpast hends
    · have hends : Text.lineEnds p.offset (c :: rest) =
          Text.lineEnds (p.offset + c.utf8Size) rest := by
        rw [Text.lineEnds, if_neg hc]
        exact single
      rw [after_other hc] at ih hpast
      obtain ⟨a, b, rfl, counts⟩ := ih
      dsimp only at counts
      rw [ColumnCounts, hends, hpast]
      cases hlast : (Text.lineEnds (p.offset + c.utf8Size) (a ++ b)).getLast? with
      | none =>
        rw [hlast] at counts
        obtain ⟨rfl, column⟩ := counts
        refine ⟨[], c :: b, rfl, rfl, ?_⟩
        rw [column, List.length_cons]
        omega
      | some s =>
        rw [hlast] at counts
        refine ⟨c :: a, b, rfl, ?_, counts.2⟩
        rw [counts.1, Text.byteLength, Nat.add_assoc]

/-- Behind a text that was passed as a whole, the line starts tell the position. -/
theorem countsFrom_past {p : Position} {before walked rest : Text}
    (hp : p.offset = before.byteLength) (whole : ¬ Text.SplitsBreak walked rest) :
    p.CountsFrom (before ++ (walked ++ rest)) (p.past walked) := by
  have starts := Text.lineStartsIn_append before whole
  rw [← hp] at starts
  rw [CountsFrom, offset_past, starts]
  refine ⟨line_past p walked, ?_⟩
  obtain ⟨a, b, rfl, column⟩ := columnCounts p walked
  cases hlast : (Text.lineEnds p.offset (a ++ b)).getLast? with
  | none =>
    rw [hlast] at column
    obtain ⟨rfl, column⟩ := column
    refine ⟨b, ?_, column⟩
    rw [hp, List.nil_append, ← List.append_assoc, ← Text.byteLength_append, Text.slice?_append]
  | some s =>
    rw [hlast] at column
    obtain ⟨rfl, column⟩ := column
    refine ⟨b, ?_, column⟩
    have sliced := Text.slice?_append (before ++ a) b rest
    simp only [List.append_assoc, Text.byteLength_append] at sliced ⊢
    rw [hp]
    exact sliced

end Position

namespace Reader

def InsideBreak (r : Reader) : Prop :=
  ∃ before ahead : Text, r.input = before ++ ahead ∧ r.offset = before.byteLength ∧
    Text.SplitsBreak before ahead

variable {r r' : Reader}

/-- A reader counts on from where it began, as often as it moves. -/
theorem Reaches.countsFrom (hb : r.OnBoundary) (h : r.Reaches r') :
    r.position.CountsFrom r.input r'.position := by
  obtain ⟨walked, ahead, whole, rfl⟩ := h.exists_walked
  obtain ⟨before, hinput, hbefore⟩ := hb.exists_before
  have counts := Position.countsFrom_past (p := r.position) hbefore.symm whole
  rwa [← ahead, ← hinput] at counts

/-- A walk that goes anywhere ends behind a whole symbol. -/
theorem Reaches.offset_of_insideBreak (hb : r.OnBoundary) (h : r.Reaches r')
    (inside : r'.InsideBreak) : r'.offset = r.offset := by
  obtain ⟨walked, hahead, whole, hr'⟩ := h.exists_walked
  obtain ⟨before, hinput, hbefore⟩ := hb.exists_before
  cases walked with
  | nil => rw [hr']; rfl
  | cons c walked =>
    obtain ⟨before', ahead', hinput', hoffset', split⟩ := inside
    have hwalked : r'.input = (before ++ c :: walked) ++ r'.remaining := by
      rw [h.input, hinput, hahead, List.append_assoc]
    have hremaining := remaining_of_before hinput' hoffset'
    have same : before' = before ++ c :: walked := by
      rw [hremaining, hinput'] at hwalked
      exact List.append_cancel_right hwalked
    rw [same, Text.splitsBreak_append (List.cons_ne_nil c walked), ← hremaining] at split
    exact absurd split whole

/-! ## The next line -/

theorem past_line {p : Position} {line : Text} (unbroken : ∀ c ∈ line, ¬ isLineBreak c = true) :
    p.past line = ⟨p.offset + line.byteLength, p.line, p.column + line.length⟩ := by
  induction line generalizing p with
  | nil => rfl
  | cons c line ih =>
    obtain ⟨hc, unbroken⟩ := List.forall_mem_cons.mp unbroken
    have whole : ¬ Text.SplitsBreak [c] line := by
      rintro ⟨h, -⟩
      obtain rfl : c = '\r' := by simpa using h
      exact hc rfl
    rw [Position.past_cons whole, Position.after_other hc, ih unbroken, Text.byteLength,
      List.length_cons, Position.mk.injEq]
    dsimp only
    omega

/-- A line without breaks and the break behind it are walked over together. -/
theorem reaches_behind_line (hb : r.OnBoundary) {line rest : Text} (lineBreak : Text)
    (unbroken : ∀ c ∈ line, ¬ isLineBreak c = true)
    (ahead : r.remaining = line ++ (lineBreak ++ rest))
    (whole : ¬ Text.SplitsBreak lineBreak rest) (nonempty : lineBreak ≠ []) :
    r.Reaches ⟨r.input, Position.past ⟨r.offset + line.byteLength, r.position.line,
      r.position.column + line.length⟩ lineBreak⟩ := by
  have inner : ¬ Text.SplitsBreak line lineBreak := by
    rintro ⟨last, -⟩
    exact unbroken _ (List.mem_of_getLast? last) rfl
  have outer : ¬ Text.SplitsBreak (line ++ lineBreak) rest := by
    rwa [Text.splitsBreak_append nonempty]
  rw [← List.append_assoc] at ahead
  have walk := reaches_past hb ahead outer
  rwa [Position.past_append inner, past_line unbroken] at walk

/-- To go to the next line is to walk there. -/
theorem reaches_of_nextLine? (h : r.nextLine? = some r') : r.Reaches r' := by
  rw [nextLine?] at h
  obtain ⟨s, hs, rfl⟩ := Option.map_eq_some_iff.mp h
  have hb : r.OnBoundary := onBoundary_of_remaining fun hr => by
    rw [hr] at hs
    cases hs
  have unbroken : ∀ c ∈ r.remaining.takeWhile (!isLineBreak ·), ¬ isLineBreak c = true :=
    fun c hc => by simpa using List.all_eq_true.mp List.all_takeWhile c hc
  have ahead := (List.takeWhile_append_dropWhile (p := (!isLineBreak ·)) (l := r.remaining)).symm
  cases hrest : r.remaining.dropWhile (!isLineBreak ·) with
  | nil => rw [hrest] at hs; cases hs
  | cons c rest =>
    have hc : isLineBreak c = true := by
      have := List.head?_dropWhile_not (!isLineBreak ·) r.remaining
      rw [hrest] at this
      simpa using this
    rw [hrest] at hs ahead
    by_cases split : Text.SplitsBreak [c] rest
    · obtain ⟨rest, rfl⟩ := List.head?_eq_some_iff.mp split.2
      obtain rfl : c = '\r' := by simpa using split.1
      cases hs
      have whole : ¬ Text.SplitsBreak ['\r', '\n'] rest := fun h => absurd h.1 (by decide)
      exact reaches_behind_line hb ['\r', '\n'] unbroken ahead whole nofun
    · rw [Text.firstSymbol?_cons split] at hs
      cases hs
      have walk := reaches_behind_line hb [c] unbroken ahead split nofun
      rwa [Position.past_cons (Text.not_splitsBreak_end [c]), Position.after_break hc] at walk

end Reader

namespace Session

/-- Commands that go forward, or back to where the reader has been, or do not move it. -/
def Command.walks : Command → Bool
  | .rewindTo _ | .parse _ => false
  | _ => true

/-- The reader has walked from `r`, and so has all that the session keeps. -/
structure WalksFrom (r : Reader) (s : Session) : Prop where
  reader : r.Reaches s.reader
  saved : ∀ entry ∈ s.saved, r.Reaches ⟨r.input, entry.2⟩
  forks : ∀ entry ∈ s.forks, r.Reaches entry.2

variable {r : Reader} {s : Session}

theorem mem_of_lookup {β : Type} {slot : String} {entries : List (String × β)} {b : β}
    (h : entries.lookup slot = some b) : (slot, b) ∈ entries := by
  obtain ⟨l₁, l₂, rfl, -⟩ := List.lookup_eq_some_iff.mp h
  simp

theorem WalksFrom.act (h : s.WalksFrom r) {run : Run Reply}
    (ends : run.Ends (fun _ => False) s.state (fun _ t => r.Reaches t.reader)
      (fun _ t => r.Reaches t.reader)) :
    ∃ reply s', s.act run = (.ok reply, s') ∧ s'.WalksFrom r := by
  rw [Run.Ends] at ends
  rw [Session.act]
  cases hrun : run s.state with
  | ok reply t => rw [hrun] at ends; exact ⟨_, _, rfl, ends, h.saved, h.forks⟩
  | failed f t => rw [hrun] at ends; exact ⟨_, _, rfl, ends, h.saved, h.forks⟩
  | halted cause t => rw [hrun] at ends; exact ends.elim

/-- A position that was saved was walked to, so going back to it is no fault. -/
theorem WalksFrom.rewind (hb : r.OnBoundary) (h : s.WalksFrom r) {p : Position}
    (saved : r.Reaches ⟨r.input, p⟩) :
    ∃ reply s', s.act ((fun _ => .nothing) <$> Run.rewind p) = (.ok reply, s') ∧
      s'.WalksFrom r := by
  refine h.act ?_
  have back : s.reader.rewind p = .ok ⟨r.input, p⟩ :=
    (saved.onBoundary hb).rewind h.reader.input
  rw [Run.ends_map]
  exact (Run.ends_rewind_of_ok back).mpr saved

theorem WalksFrom.advance (h : s.WalksFrom r)
    {move : Reader → Except Fault (Option (Text × Reader))}
    (moves : s.reader.Moves (move s.reader)) :
    ∃ reply s', s.act (takenReply <$> Run.advance move) = (.ok reply, s') ∧ s'.WalksFrom r := by
  refine h.act ?_
  rw [Run.ends_map, Run.ends_advance]
  change s.reader.Moves (move s.state.reader) at moves
  generalize move s.state.reader = result at moves ⊢
  cases moves with
  | onward walk _ => exact h.reader.trans walk
  | nowhere => exact h.reader

/-- One command without a limit: no fault, and nothing but walks. -/
theorem perform_walks (grammars : List (String × Grammar)) (hb : r.OnBoundary)
    (h : s.WalksFrom r) {command : Command} (walks : command.walks = true) :
    ∃ reply s', s.perform grammars none command = (.ok reply, s') ∧ s'.WalksFrom r := by
  have here := h.reader.onBoundary hb
  have unlimited := not_outgrows_none s.reader command
  cases command with
  | take n =>
    have moves := Reader.moves_take here n
    rw [← Reader.takeIn_eq unlimited] at moves
    exact h.advance moves
  | takeBytes n =>
    have moves := Reader.moves_takeBytes here n
    rw [← Reader.takeBytesIn_eq unlimited] at moves
    exact h.advance moves
  | nextLine =>
    rw [perform, Reader.nextLineIn_eq unlimited]
    cases hnext : s.reader.nextLine? with
    | none => exact ⟨_, _, rfl, h⟩
    | some next =>
      have walk := h.reader.trans (Reader.reaches_of_nextLine? hnext)
      exact ⟨_, _, rfl, walk, h.saved, h.forks⟩
  | save slot =>
    have saved : r.Reaches ⟨r.input, s.reader.position⟩ := by
      have same : Reader.mk r.input s.reader.position = s.reader := by rw [← h.reader.input]
      rw [same]
      exact h.reader
    exact ⟨_, _, rfl, h.reader, List.forall_mem_cons.mpr ⟨saved, h.saved⟩, h.forks⟩
  | rewind slot =>
    rw [perform]
    cases hslot : s.saved.lookup slot with
    | none => exact ⟨_, _, rfl, h⟩
    | some p => exact h.rewind hb (h.saved _ (mem_of_lookup hslot))
  | fork slot =>
    exact ⟨_, _, rfl, h.reader, h.saved, List.forall_mem_cons.mpr ⟨h.reader, h.forks⟩⟩
  | swap slot =>
    rw [perform]
    cases hslot : s.forks.lookup slot with
    | none => exact ⟨_, _, rfl, h⟩
    | some other =>
      have walk : r.Reaches other := h.forks _ (mem_of_lookup hslot)
      exact ⟨_, _, rfl, walk, h.saved, List.forall_mem_cons.mpr ⟨h.reader, h.forks⟩⟩
  | failHere message expected found => exact h.act (Run.ends_failHere.mpr h.reader)
  | failAtEnd message expected => exact h.act (Run.ends_failAtEnd.mpr h.reader)
  | enclose message =>
    rw [perform]
    cases s.last with
    | none => exact ⟨_, _, rfl, h⟩
    | some cause => exact h.act (Run.ends_fail.mpr h.reader)
  | expectInstead expected =>
    rw [perform]
    cases s.last with
    | none => exact ⟨_, _, rfl, h⟩
    | some f => exact h.act (Run.ends_fail.mpr h.reader)
  | rewindTo p => cases walks
  | parse name => cases walks
  | peek | remaining | input | currentLine | atEnd | lineIndex | lineStarts | position
  | caretLines => exact ⟨_, _, rfl, h⟩

/-- A whole session: every command is performed, up to one on which a number exceeds the limit, and
every position told was walked to. -/
theorem performAll_walks (grammars : List (String × Grammar)) (limit : Limit) (hb : r.OnBoundary)
    (h : s.WalksFrom r) {commands : List Command}
    (walks : ∀ command ∈ commands, command.walks = true) :
    let run := performAll grammars s commands limit
    (run.1.length = commands.length ∨ ∃ told ∈ run.1, told.1 = .error (.fault .overflow)) ∧
      (∀ told ∈ run.1,
        ((∃ reply, told.1 = .ok reply) ∨ limit ≠ none ∧ told.1 = .error (.fault .overflow)) ∧
          r.Reaches ⟨r.input, told.2⟩) ∧
      run.2.WalksFrom r := by
  have stands {s : Session} (h : s.WalksFrom r) : r.Reaches ⟨r.input, s.reader.position⟩ := by
    have same : Reader.mk r.input s.reader.position = s.reader := by rw [← h.reader.input]
    rw [same]
    exact h.reader
  induction commands generalizing s with
  | nil => exact ⟨.inl rfl, nofun, h⟩
  | cons command commands ih =>
    obtain ⟨first, walks⟩ := List.forall_mem_cons.mp walks
    by_cases outgrows : command.Outgrows limit s.reader
    · rw [performAll, perform_of_outgrows grammars outgrows]
      have limited : limit ≠ none := by
        rintro rfl
        exact not_outgrows_none s.reader command outgrows
      exact ⟨.inr ⟨_, List.mem_singleton_self _, rfl⟩,
        List.forall_mem_singleton.mpr ⟨.inr ⟨limited, rfl⟩, stands h⟩, h⟩
    · obtain ⟨reply, s', hperform, h'⟩ := perform_walks grammars hb h first
      obtain ⟨all, told, final⟩ := ih h' walks
      rw [performAll, perform_eq grammars outgrows, hperform]
      refine ⟨?_, List.forall_mem_cons.mpr ⟨⟨.inl ⟨reply, rfl⟩, stands h'⟩, told⟩, final⟩
      rcases all with length | ⟨entry, there, stopped⟩
      · exact .inl (congrArg (· + 1) length)
      · exact .inr ⟨entry, List.mem_cons_of_mem _ there, stopped⟩

/-- Whatever a session does with its reader, and wherever in a text it begins: no command is a
misuse, the line starts tell the position told after each of them, and the reader is inside a line
break only if it began there and is there still. Below a limit the session may stop at a command on
which a number exceeds it. -/
theorem position_countsFrom (input : Text) (p : Position)
    (boundary : (input.dropBytes? p.offset).isSome) (grammars : List (String × Grammar))
    (commands : List Command) (walks : ∀ command ∈ commands, command.walks = true)
    (limit : Limit) :
    let run := (Session.start (Reader.startAt input p)).performAll grammars commands limit
    (run.1.length = commands.length ∨ ∃ told ∈ run.1, told.1 = .error (.fault .overflow)) ∧
      (∀ told ∈ run.1,
        ((∃ reply, told.1 = .ok reply) ∨ limit ≠ none ∧ told.1 = .error (.fault .overflow)) ∧
          p.CountsFrom input told.2 ∧
          ((Reader.mk input told.2).InsideBreak → told.2.offset = p.offset)) ∧
      run.2.reader.input = input ∧ p.CountsFrom input run.2.reader.position ∧
      (run.2.reader.InsideBreak → run.2.reader.offset = p.offset) := by
  have hb : (Reader.mk input p).OnBoundary := boundary
  have began : Reader.startAt input p = Reader.mk input p := by
    have hle : p.offset ≤ input.byteLength := hb.offset_le
    rw [Reader.startAt, Nat.min_eq_left hle]
  have start : (Session.start (Reader.mk input p)).WalksFrom (Reader.mk input p) :=
    ⟨.refl _, nofun, nofun⟩
  obtain ⟨all, told, final⟩ := performAll_walks grammars limit hb start walks
  intro run
  have hrun : run = performAll grammars (Session.start (Reader.mk input p)) commands limit := by
    rw [← began]
  rw [hrun]
  refine ⟨all, fun entry hentry => ?_, final.reader.input, final.reader.countsFrom hb,
    final.reader.offset_of_insideBreak hb⟩
  obtain ⟨reply, walk⟩ := told entry hentry
  exact ⟨reply, walk.countsFrom hb, walk.offset_of_insideBreak hb⟩

theorem position_countsFrom_back_and_forth :
    let input : Text := ['é', '\r', '\r', '\n', 'b', 'c']
    let commands : List Command :=
      [.save "start", .take 2, .fork "there", .nextLine, .rewind "start", .takeBytes 2, .take 1,
        .swap "there", .takeBytes 3]
    (input.dropBytes? 2).isSome = true ∧ (∀ command ∈ commands, command.walks = true) ∧
      Position.CountsFrom input ⟨2, 4, 7⟩
        ((Session.start (Reader.startAt input ⟨2, 4, 7⟩)).performAll []
          commands).2.reader.position :=
  have walks := by decide
  ⟨by decide, walks, (position_countsFrom _ ⟨2, 4, 7⟩ (by decide) [] _ walks _).2.2.2.1⟩

end Session

end RecursiveDescent
