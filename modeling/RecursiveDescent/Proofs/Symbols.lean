import RecursiveDescent.Proofs.Yielding

/-!
# Whole symbols

Text is taken by the number of its symbols or by the number of its bytes. In either case what is
taken is whole symbols from the front of the text ahead, and what cannot be taken like that is not
taken at all. To take twice is to take the sum, and of the symbols ahead there is at most one number
that are so many bytes.
-/
namespace RecursiveDescent

namespace Text

/-- `t` begins with `walked`, and no line break is cut behind it: these are whole symbols of `t`. -/
def LeadsWhole (walked t : Text) : Prop :=
  ∃ rest, t = walked ++ rest ∧ ¬ SplitsBreak walked rest

/-- The first `k` symbols of the text are `n` bytes. -/
def SymbolsEndAt (t : Text) (k n : Nat) : Prop :=
  ∃ walked : Text, walked.LeadsWhole t ∧ walked.read.length = k ∧ walked.byteLength = n

variable {s t v w : Text} {j k n : Nat}

theorem LeadsWhole.refl (t : Text) : t.LeadsWhole t :=
  ⟨[], (List.append_nil t).symm, not_splitsBreak_end t⟩

theorem nil_leadsWhole (t : Text) : LeadsWhole [] t :=
  ⟨t, rfl, not_splitsBreak_nil t⟩

theorem LeadsWhole.pair (h : w.LeadsWhole t) :
    LeadsWhole ('\r' :: '\n' :: w) ('\r' :: '\n' :: t) := by
  obtain ⟨rest, rfl, whole⟩ := h
  exact ⟨rest, rfl, fun split => whole (splitsBreak_pair.mp split)⟩

theorem LeadsWhole.single {c : Char} (first : ¬ SplitsBreak [c] t) (h : w.LeadsWhole t) :
    LeadsWhole (c :: w) (c :: t) := by
  obtain ⟨rest, rfl, whole⟩ := h
  exact ⟨rest, rfl, not_splitsBreak_cons first whole⟩

/-- Of two beginnings with whole symbols one begins the other. -/
theorem LeadsWhole.total (hv : v.LeadsWhole t) (hw : w.LeadsWhole t) :
    v.LeadsWhole w ∨ w.LeadsWhole v := by
  obtain ⟨rest, rfl, whole⟩ := hv
  obtain ⟨rest', same, whole'⟩ := hw
  rcases List.append_eq_append_iff.mp same with ⟨more, rfl, rfl⟩ | ⟨more, rfl, rfl⟩
  · exact .inl ⟨more, rfl, fun split => whole (split.append rest')⟩
  · exact .inr ⟨more, rfl, fun split => whole' (split.append rest)⟩

/-- The first symbols are known by their length in bytes. -/
theorem LeadsWhole.eq_of_byteLength (hv : v.LeadsWhole t) (hw : w.LeadsWhole t)
    (same : v.byteLength = w.byteLength) : v = w := by
  obtain ⟨rest, rfl, -⟩ := hv
  obtain ⟨rest', h, -⟩ := hw
  exact (append_inj_of_byteLength h same).1

/-- An offset is behind one number of symbols only. -/
theorem SymbolsEndAt.unique (h : t.SymbolsEndAt k n) (h' : t.SymbolsEndAt j n) : j = k := by
  obtain ⟨v, hv, rfl, bytes⟩ := h
  obtain ⟨w, hw, rfl, bytes'⟩ := h'
  rw [hv.eq_of_byteLength hw (bytes.trans bytes'.symm)]

theorem LeadsWhole.count_le (h : w.LeadsWhole t) : w.read.length ≤ t.read.length := by
  obtain ⟨rest, rfl, whole⟩ := h
  rw [read_append whole, List.length_append]
  omega

/-- As many symbols as a text has can be cut off its front. -/
theorem exists_leadsWhole (t : Text) (h : n ≤ t.read.length) :
    ∃ walked : Text, walked.LeadsWhole t ∧ walked.read.length = n := by
  have whole := not_splitsBreak_end t
  induction t, whole using symbol_induction generalizing n with
  | nil =>
    obtain rfl : n = 0 := Nat.le_zero.mp h
    exact ⟨[], .refl [], rfl⟩
  | pair t _ _ ih =>
    cases n with
    | zero => exact ⟨[], nil_leadsWhole _, rfl⟩
    | succ n =>
      rw [read, List.length_cons] at h
      obtain ⟨walked, leads, count⟩ := ih (Nat.le_of_succ_le_succ h)
      exact ⟨_, leads.pair, by rw [read, List.length_cons, count]⟩
  | single c t _ _ first ih =>
    rw [List.append_nil] at first
    cases n with
    | zero => exact ⟨[], nil_leadsWhole _, rfl⟩
    | succ n =>
      rw [read_cons first, List.length_cons] at h
      obtain ⟨walked, leads, count⟩ := ih (Nat.le_of_succ_le_succ h)
      have inner : ¬ SplitsBreak [c] walked := by
        obtain ⟨rest, rfl, -⟩ := leads
        exact fun split => first (split.append rest)
      exact ⟨_, leads.single first, by rw [read_cons inner, List.length_cons, count]⟩

end Text

namespace Reader

variable {r r' : Reader} {walked : Text}

theorem Passes.leadsWhole (h : r.Passes walked r') : walked.LeadsWhole r.remaining :=
  ⟨r'.remaining, h.ahead, h.whole⟩

/-- A leading text that splits no line break can be passed. -/
theorem exists_passes (hb : r.OnBoundary) (h : walked.LeadsWhole r.remaining) :
    ∃ r', r.Passes walked r' := by
  obtain ⟨rest, ahead, whole⟩ := h
  exact ⟨_, passes_past hb ahead whole⟩

theorem Passes.onBoundary (h : r.Passes walked r') (hb : r.OnBoundary) : r'.OnBoundary := by
  rw [h.stands]
  exact (past_remaining hb h.ahead).1

/-- A walk over `n` symbols passes the first `n` symbols ahead. -/
theorem steps?_eq_some_iff (hb : r.OnBoundary) {n : Nat} :
    r.steps? n = some r' ↔ ∃ walked, r.Passes walked r' ∧ walked.read.length = n := by
  constructor
  · intro h
    obtain ⟨walked, count, ahead, whole, stands⟩ := exists_walked_of_steps? h
    exact ⟨walked, ⟨ahead, whole, stands⟩, count⟩
  · rintro ⟨walked, passes, rfl⟩
    rw [passes.stands]
    exact steps?_past hb passes.ahead passes.whole

theorem Passes.take (h : r.Passes walked r') (hb : r.OnBoundary) :
    r.take walked.read.length = .ok (some (walked, r')) := by
  have passed := passTo_past hb h.ahead
  rw [← h.stands] at passed
  rw [Reader.take, (steps?_eq_some_iff hb).mpr ⟨walked, h, rfl⟩]
  dsimp only
  rw [passed]
  rfl

theorem Passes.takeBytes (h : r.Passes walked r') (hb : r.OnBoundary) :
    r.takeBytes walked.byteLength = .ok (some (walked, r')) := by
  rw [takeBytes_past hb h.ahead h.whole, ← h.stands]

end Reader

namespace Run

open Text

variable {s t : State} {text : Text} {span : Span} {n k : Nat}

/-- What is taken from the state `s` by a run that takes `text`, and where this leaves it. -/
structure Takes (s : State) (text : Text) (span : Span) (t : State) : Prop where
  passes : s.reader.Passes text t.reader
  span : span = ⟨s.reader.position, t.reader.position⟩
  store : t.store = s.store

/-- What leads the text ahead can be taken. -/
theorem exists_takes (hb : s.reader.OnBoundary) (h : text.LeadsWhole s.reader.remaining) :
    ∃ span t, Takes s text span t := by
  obtain ⟨r', passes⟩ := Reader.exists_passes hb h
  exact ⟨⟨s.reader.position, r'.position⟩, ⟨r', s.store⟩, passes, rfl, rfl⟩

theorem advance_of_moves {move : Reader → Except Fault (Option (Text × Reader))}
    (h : Takes s text span t) (moves : move s.reader = .ok (some (text, t.reader))) :
    advance move s = .ok (some (text, span)) t := by
  rw [advance, moves, h.span, ← h.store]

/-- What is taken in two steps can be taken in one. -/
theorem Takes.trans {u : State} {first second : Text} {start middle stop : Position}
    (h : Takes s first ⟨start, middle⟩ u) (h' : Takes u second ⟨middle, stop⟩ t) :
    Takes s (first ++ second) ⟨start, stop⟩ t where
  passes := h.passes.trans h'.passes
  span := by rw [(Span.mk.inj h.span).1, (Span.mk.inj h'.span).2]
  store := h'.store.trans h.store

/-- What takes `m + n` symbols takes `m` of them, and from there the others. -/
theorem Takes.exists_middle {m : Nat} (h : Takes s text span t) (hb : s.reader.OnBoundary)
    (count : text.read.length = m + n) :
    ∃ first middle second u, (Takes s first ⟨span.start, middle⟩ u ∧ first.read.length = m) ∧
      (Takes u second ⟨middle, span.stop⟩ t ∧ second.read.length = n) ∧ text = first ++ second := by
  have steps := (Reader.steps?_eq_some_iff hb).mpr ⟨text, h.passes, count⟩
  rw [Reader.steps?_add] at steps
  obtain ⟨r, steps, steps'⟩ := Option.bind_eq_some_iff.mp steps
  obtain ⟨first, passes, rfl⟩ := (Reader.steps?_eq_some_iff hb).mp steps
  obtain ⟨second, passes', rfl⟩ := (Reader.steps?_eq_some_iff (passes.onBoundary hb)).mp steps'
  refine ⟨first, r.position, second, ⟨r, s.store⟩, ⟨⟨passes, ?_, rfl⟩, rfl⟩,
    ⟨⟨passes', ?_, h.store⟩, rfl⟩, ?_⟩
  · rw [h.span]
  · rw [h.span]
  · exact List.append_cancel_right (h.passes.ahead.symm.trans (passes.trans passes').ahead)

theorem Takes.take (h : Takes s text span t) (hb : s.reader.OnBoundary) :
    Run.take text.read.length s = .ok (some (text, span)) t :=
  advance_of_moves h (h.passes.take hb)

theorem Takes.takeBytes (h : Takes s text span t) (hb : s.reader.OnBoundary) :
    Run.takeBytes text.byteLength s = .ok (some (text, span)) t :=
  advance_of_moves h (h.passes.takeBytes hb)

theorem take_eq_none (hb : s.reader.OnBoundary) (few : s.reader.remaining.read.length < n) :
    Run.take n s = .ok none s := by
  have none : s.reader.steps? n = none := by
    rw [Option.eq_none_iff_forall_ne_some]
    intro r' h
    obtain ⟨walked, passes, rfl⟩ := (Reader.steps?_eq_some_iff hb).mp h
    have := passes.leadsWhole.count_le
    omega
  rw [Run.take, advance, Reader.take, none]

theorem takeBytes_eq_none (h : ∀ k, ¬ s.reader.remaining.SymbolsEndAt k n) :
    Run.takeBytes n s = .ok none s := by
  rcases s.reader.takeBytes_cases n with none | ⟨walked, rest, ahead, whole, bytes⟩
  · rw [Run.takeBytes, advance, none]
  · exact absurd ⟨walked, ⟨rest, ahead, whole⟩, rfl, bytes⟩ (h _)

/-- To take a number of symbols is to take the leading text of so many. -/
theorem take_eq_some_iff (hb : s.reader.OnBoundary) :
    Run.take n s = .ok (some (text, span)) t ↔ Takes s text span t ∧ text.read.length = n := by
  constructor
  · intro h
    rcases Nat.lt_or_ge s.reader.remaining.read.length n with few | enough
    · rw [take_eq_none hb few] at h
      cases h
    · obtain ⟨walked, leads, rfl⟩ := exists_leadsWhole _ enough
      obtain ⟨span', t', takes⟩ := exists_takes hb leads
      rw [takes.take hb] at h
      cases h
      exact ⟨takes, rfl⟩
  · rintro ⟨takes, rfl⟩
    exact takes.take hb

theorem take_or_none (hb : s.reader.OnBoundary) (n : Nat) :
    if n ≤ s.reader.remaining.read.length then ∃ taken t, Run.take n s = .ok (some taken) t
    else Run.take n s = .ok none s := by
  split
  · rename_i enough
    obtain ⟨walked, leads, rfl⟩ := exists_leadsWhole s.reader.remaining enough
    obtain ⟨span, t, takes⟩ := exists_takes hb leads
    exact ⟨_, t, takes.take hb⟩
  · rename_i few
    exact take_eq_none hb (Nat.lt_of_not_le few)

/-- To take a sum is to take one of the numbers and then, from there, the other. -/
theorem take_add_iff (hb : s.reader.OnBoundary) {m : Nat} :
    Run.take (m + n) s = .ok (some (text, span)) t ↔
      ∃ first middle second u, Run.take m s = .ok (some (first, ⟨span.start, middle⟩)) u ∧
        Run.take n u = .ok (some (second, ⟨middle, span.stop⟩)) t ∧ text = first ++ second := by
  constructor
  · intro h
    obtain ⟨takes, count⟩ := (take_eq_some_iff hb).mp h
    obtain ⟨first, middle, second, u, taken, taken', same⟩ := takes.exists_middle hb count
    have behind := taken.1.passes.onBoundary hb
    exact ⟨first, middle, second, u, (take_eq_some_iff hb).mpr taken,
      (take_eq_some_iff behind).mpr taken', same⟩
  · rintro ⟨first, middle, second, u, taken, taken', rfl⟩
    obtain ⟨takes, rfl⟩ := (take_eq_some_iff hb).mp taken
    obtain ⟨takes', rfl⟩ := (take_eq_some_iff (takes.passes.onBoundary hb)).mp taken'
    refine (take_eq_some_iff hb).mpr ⟨takes.trans takes', ?_⟩
    rw [takes.passes.read_append takes'.passes, List.length_append]

/-- Bytes that end where a symbol does are taken as so many symbols. -/
theorem takeBytes_eq_take (hb : s.reader.OnBoundary) (h : s.reader.remaining.SymbolsEndAt k n) :
    Run.takeBytes n s = Run.take k s ∧ ∃ taken t, Run.take k s = .ok (some taken) t := by
  obtain ⟨walked, leads, rfl, rfl⟩ := h
  obtain ⟨span, t, takes⟩ := exists_takes hb leads
  have taken := takes.take hb
  exact ⟨(takes.takeBytes hb).trans taken.symm, _, t, taken⟩

/-- A number of symbols is taken, or nothing is if there are fewer; what is taken in one go is what
is taken in two. By bytes the same is taken as by symbols, if so many bytes end with a symbol, and
else nothing. Nothing taken, nothing changed. -/
theorem takes_whole_symbols (hb : s.reader.OnBoundary) :
    let ahead := s.reader.remaining
    (∀ n, if n ≤ ahead.read.length then ∃ taken t, Run.take n s = .ok (some taken) t
      else Run.take n s = .ok none s) ∧
    (∀ m n text span t, Run.take (m + n) s = .ok (some (text, span)) t ↔
      ∃ first middle second u, Run.take m s = .ok (some (first, ⟨span.start, middle⟩)) u ∧
        Run.take n u = .ok (some (second, ⟨middle, span.stop⟩)) t ∧ text = first ++ second) ∧
    (∀ n, (∀ k, ¬ ahead.SymbolsEndAt k n) → Run.takeBytes n s = .ok none s) ∧
    (∀ k n, ahead.SymbolsEndAt k n → Run.takeBytes n s = Run.take k s ∧
      (∃ taken t, Run.take k s = .ok (some taken) t) ∧ ∀ j, ahead.SymbolsEndAt j n → j = k) ∧
    ∀ k text span t, Run.take k s = .ok (some (text, span)) t →
      Run.takeBytes text.byteLength s = .ok (some (text, span)) t := by
  intro ahead
  refine ⟨take_or_none hb, ?_, fun _ => takeBytes_eq_none, ?_, ?_⟩
  · exact fun m n text span t => take_add_iff hb
  · intro k n ends
    obtain ⟨same, taken⟩ := takeBytes_eq_take hb ends
    exact ⟨same, taken, fun j other => ends.unique other⟩
  · exact fun k text span t taken => ((take_eq_some_iff hb).mp taken).1.takeBytes hb

theorem takes_whole_symbols_across_breaks :
    let s : State := ⟨Reader.startAt ['é', '\r', '\n', '\r', 'x'] ⟨2, 1, 2⟩, .empty⟩
    s.reader.OnBoundary ∧ Run.takeBytes 3 s = Run.take 2 s ∧ Run.take 4 s = .ok none s ∧
      ∃ t, Run.take 2 s = .ok (some (['\r', '\n', '\r'], ⟨⟨2, 1, 2⟩, ⟨5, 3, 1⟩⟩)) t ∧
        Run.takeBytes 3 s = .ok (some (['\r', '\n', '\r'], ⟨⟨2, 1, 2⟩, ⟨5, 3, 1⟩⟩)) t := by
  intro s
  have boundary : s.reader.OnBoundary := by decide
  obtain ⟨enough, -, -, bytes, symbols⟩ := takes_whole_symbols boundary
  have ends : s.reader.remaining.SymbolsEndAt 2 3 :=
    ⟨['\r', '\n', '\r'], ⟨['x'], rfl, by decide⟩, rfl, rfl⟩
  exact ⟨boundary, (bytes 2 3 ends).1, enough 4, _, rfl, symbols 2 _ _ _ rfl⟩

end Run

end RecursiveDescent
