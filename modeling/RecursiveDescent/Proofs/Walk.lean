import RecursiveDescent.Proofs.Cut
import RecursiveDescent.Reader

/-!
# Walks

A walk takes a reader over whole symbols. What it passes is a text that ends at no cut through a
line break, and that text alone decides the position at its end.
-/
namespace RecursiveDescent

/-- The position behind a text, from which none of the line breaks is cut. -/
def Position.past (p : Position) : Text → Position
  | [] => p
  | '\r' :: '\n' :: rest => (p.after ⟨'\n', 2⟩).past rest
  | c :: rest => (p.after ⟨c, c.utf8Size⟩).past rest

namespace Position

theorem offset_after (p : Position) (s : Symbol) : (p.after s).offset = p.offset + s.width := by
  rw [after]
  split <;> rfl

theorem past_cons {c : Char} {rest : Text} (whole : ¬ Text.SplitsBreak [c] rest) (p : Position) :
    p.past (c :: rest) = (p.after ⟨c, c.utf8Size⟩).past rest := by
  rw [past]
  rintro t rfl rfl
  exact whole ⟨rfl, rfl⟩

/-- A walk past two texts is one past the first and then one past the second. -/
theorem past_append {s t : Text} (whole : ¬ Text.SplitsBreak s t) (p : Position) :
    p.past (s ++ t) = (p.past s).past t := by
  induction s, whole using Text.symbol_induction generalizing p with
  | nil => rfl
  | pair s _ _ ih => rw [List.cons_append, List.cons_append, past, past, ih]
  | single c s _ _ whole ih =>
    rw [List.cons_append, past_cons whole, past_cons fun h => whole (h.append t), ih]

theorem offset_past (p : Position) (t : Text) : (p.past t).offset = p.offset + t.byteLength := by
  fun_induction past p t with
  | case1 => rfl
  | case2 p rest ih =>
    have hb : Text.byteLength ('\r' :: '\n' :: rest) = 2 + Text.byteLength rest := by
      show 1 + (1 + _) = _
      omega
    rw [ih, offset_after, hb, Nat.add_assoc]
  | case3 p c rest _ ih => rw [ih, offset_after, Text.byteLength, Nat.add_assoc]

end Position

namespace Reader

/-- Neither inside a code point nor past the end. -/
def OnBoundary (r : Reader) : Prop :=
  (r.input.dropBytes? r.offset).isSome

instance (r : Reader) : Decidable r.OnBoundary :=
  inferInstanceAs (Decidable (_ = true))

/-- The reader `r'` is reached from `r` over whole symbols. -/
def Reaches (r r' : Reader) : Prop :=
  ∃ n, r.steps? n = some r'

variable {r r' r'' : Reader}

/-! ## Boundaries -/

/-- The input is what is behind the reader and what is ahead. -/
theorem OnBoundary.exists_before (h : r.OnBoundary) :
    ∃ before : Text, r.input = before ++ r.remaining ∧ before.byteLength = r.offset := by
  obtain ⟨rest, hrest⟩ := Option.isSome_iff_exists.mp h
  obtain ⟨before, hinput, hb⟩ := Text.eq_append_of_dropBytes? hrest
  refine ⟨before, ?_, hb⟩
  rw [remaining, hrest, hinput, Option.getD_some]

theorem dropBytes?_of_before {before ahead : Text} (hinput : r.input = before ++ ahead)
    (hoffset : r.offset = before.byteLength) : r.input.dropBytes? r.offset = some ahead := by
  rw [hinput, hoffset, Text.dropBytes?_append]

theorem onBoundary_of_before {before ahead : Text} (hinput : r.input = before ++ ahead)
    (hoffset : r.offset = before.byteLength) : r.OnBoundary := by
  rw [OnBoundary, dropBytes?_of_before hinput hoffset, Option.isSome_some]

theorem remaining_of_before {before ahead : Text} (hinput : r.input = before ++ ahead)
    (hoffset : r.offset = before.byteLength) : r.remaining = ahead := by
  rw [remaining, dropBytes?_of_before hinput hoffset, Option.getD_some]

theorem onBoundary_start (input : Text) : (start input).OnBoundary :=
  onBoundary_of_before (List.nil_append input).symm rfl

theorem remaining_start (input : Text) : (start input).remaining = input :=
  remaining_of_before (List.nil_append input).symm rfl

theorem remaining_eq_nil (h : ¬ r.OnBoundary) : r.remaining = [] := by
  cases hd : r.input.dropBytes? r.offset with
  | none => rw [remaining, hd, Option.getD_none]
  | some rest => exact absurd (by rw [OnBoundary, hd, Option.isSome_some]) h

theorem onBoundary_of_remaining (h : r.remaining ≠ []) : r.OnBoundary :=
  Decidable.byContradiction fun hb => h (remaining_eq_nil hb)

theorem OnBoundary.offset_le (h : r.OnBoundary) : r.offset ≤ r.input.byteLength := by
  obtain ⟨before, hinput, hb⟩ := h.exists_before
  rw [hinput, Text.byteLength_append]
  omega

/-- To a boundary of its text a reader can go back from anywhere. -/
theorem OnBoundary.rewind (h : r.OnBoundary) (hinput : r'.input = r.input) :
    r'.rewind r.position = .ok r := by
  have hle : r.position.offset ≤ r.input.byteLength := h.offset_le
  rw [Reader.rewind, hinput, if_pos hle]

/-- The reader behind a text that is ahead. -/
theorem past_remaining (h : r.OnBoundary) {walked rest : Text}
    (ahead : r.remaining = walked ++ rest) :
    (Reader.mk r.input (r.position.past walked)).OnBoundary ∧
      (Reader.mk r.input (r.position.past walked)).remaining = rest := by
  obtain ⟨before, hinput, hb⟩ := h.exists_before
  have hin : r.input = (before ++ walked) ++ rest := by rw [hinput, ahead, List.append_assoc]
  have hoff : (Reader.mk r.input (r.position.past walked)).offset =
      (before ++ walked).byteLength := by
    rw [offset, Position.offset_past, Text.byteLength_append, hb, offset]
  exact ⟨onBoundary_of_before hin hoff, remaining_of_before hin hoff⟩

/-! ## One symbol -/

/-- A line break of two characters is one step. -/
theorem step?_pair {rest : Text} (ahead : r.remaining = '\r' :: '\n' :: rest) :
    r.step? = some ⟨r.input, r.position.past ['\r', '\n']⟩ := by
  rw [step?, ahead]
  rfl

theorem step?_single {c : Char} {rest : Text} (ahead : r.remaining = c :: rest)
    (whole : ¬ Text.SplitsBreak [c] rest) :
    r.step? = some ⟨r.input, r.position.past [c]⟩ := by
  rw [step?, ahead, Text.firstSymbol?_cons whole, Position.past_cons (Text.not_splitsBreak_end [c])]
  rfl

theorem step?_eq_none (ahead : r.remaining = []) : r.step? = none := by
  rw [step?, ahead]
  rfl

theorem onBoundary_of_step? (h : r.step? = some r') : r.OnBoundary :=
  onBoundary_of_remaining fun ahead => by
    rw [step?_eq_none ahead] at h
    cases h

theorem peek?_eq (r : Reader) : r.peek? = r.remaining.read.head? :=
  (Text.head?_read r.remaining).symm

/-- A step passes one symbol, which is the head of what is ahead. -/
theorem exists_head_of_step? (h : r.step? = some r') :
    ∃ head : Text, head.read.length = 1 ∧ r.remaining = head ++ r'.remaining ∧
      ¬ Text.SplitsBreak head r'.remaining ∧ r' = ⟨r.input, r.position.past head⟩ := by
  have hb := onBoundary_of_step? h
  cases ahead : r.remaining with
  | nil => rw [step?_eq_none ahead] at h; cases h
  | cons c rest =>
    by_cases split : Text.SplitsBreak [c] rest
    · obtain ⟨rest, rfl⟩ := List.head?_eq_some_iff.mp split.2
      obtain rfl : c = '\r' := by simpa using split.1
      obtain rfl := Option.some.inj ((step?_pair ahead).symm.trans h)
      have hrest := (past_remaining hb (show r.remaining = ['\r', '\n'] ++ rest from ahead)).2
      exact ⟨['\r', '\n'], rfl, by rw [hrest]; rfl, fun h => absurd h.1 (by decide), rfl⟩
    · obtain rfl := Option.some.inj ((step?_single ahead split).symm.trans h)
      have hrest := (past_remaining hb (show r.remaining = [c] ++ rest from ahead)).2
      have one : Text.read [c] = [c] := Text.read_cons (Text.not_splitsBreak_end [c])
      exact ⟨[c], by rw [one]; rfl, by rw [hrest]; rfl, by rwa [hrest], rfl⟩

theorem offset_lt_of_step? (h : r.step? = some r') :
    r.offset < r'.offset := by
  obtain ⟨head, one, -, -, rfl⟩ := exists_head_of_step? h
  have nonempty : head ≠ [] := by
    rintro rfl
    cases one
  have := Text.byteLength_pos nonempty
  rw [offset, offset, Position.offset_past]
  omega

/-- The character ahead stands there, or is read from a line break of two. -/
theorem prefix_of_peek? {c : Char} (h : r.peek? = some c) :
    [c] <+: r.remaining ∨ c = '\n' ∧ ['\r', '\n'] <+: r.remaining := by
  rw [peek?] at h
  generalize r.remaining = ahead at h ⊢
  fun_cases Text.firstSymbol? ahead with
  | case1 rest =>
    obtain rfl := Option.some.inj h
    exact .inr ⟨rfl, List.prefix_append ['\r', '\n'] rest⟩
  | case2 d rest single =>
    rw [Text.firstSymbol?, Option.map_some] at h
    · obtain rfl := Option.some.inj h
      exact .inl (List.prefix_append [d] rest)
    · exact single
  | case3 => cases h

/-! ## Walks -/

theorem Reaches.refl (r : Reader) : r.Reaches r :=
  ⟨0, rfl⟩

/-- Steps add up. -/
theorem steps?_add (r : Reader) (m n : Nat) :
    r.steps? (m + n) = (r.steps? m).bind (steps? n) := by
  induction m generalizing r with
  | zero => rw [Nat.zero_add, steps?, Option.bind_some]
  | succ m ih =>
    rw [Nat.succ_add, steps?, steps?, Option.bind_assoc]
    exact Option.bind_congr fun r₁ _ => ih r₁

theorem Reaches.trans (h : r.Reaches r') (h' : r'.Reaches r'') : r.Reaches r'' := by
  obtain ⟨m, hm⟩ := h
  obtain ⟨n, hn⟩ := h'
  exact ⟨m + n, by rw [steps?_add, hm, Option.bind_some, hn]⟩

theorem reaches_of_step? (h : r.step? = some r') : r.Reaches r' :=
  ⟨1, by rw [steps?, h, Option.bind_some, steps?]⟩

/-- A walk over `n` symbols passes a text that is ahead and reads as `n` characters. -/
theorem exists_walked_of_steps? {n : Nat} (h : r.steps? n = some r') :
    ∃ walked : Text, walked.read.length = n ∧ r.remaining = walked ++ r'.remaining ∧
      ¬ Text.SplitsBreak walked r'.remaining ∧ r' = ⟨r.input, r.position.past walked⟩ := by
  induction n generalizing r with
  | zero =>
    obtain rfl := Option.some.inj h
    refine ⟨[], rfl, rfl, ?_, rfl⟩
    rintro ⟨h, -⟩
    cases h
  | succ n ih =>
    obtain ⟨r₁, hstep, hrest⟩ := Option.bind_eq_some_iff.mp h
    obtain ⟨head, one, ahead, whole, rfl⟩ := exists_head_of_step? hstep
    obtain ⟨walked, count, ahead', whole', hr'⟩ := ih hrest
    rw [ahead'] at whole
    have inner : ¬ Text.SplitsBreak head walked := fun h => whole (h.append _)
    refine ⟨head ++ walked, ?_, by rw [ahead, ahead', List.append_assoc], ?_, ?_⟩
    · rw [Text.read_append inner, List.length_append, one, count, Nat.add_comm]
    · cases walked with
      | nil => simpa using whole
      | cons c walked => rwa [Text.splitsBreak_append (List.cons_ne_nil c walked)]
    · rw [hr', Position.past_append inner]

/-- A walk passes a leading text that splits no line break. -/
theorem Reaches.exists_walked (h : r.Reaches r') :
    ∃ walked : Text, r.remaining = walked ++ r'.remaining ∧
      ¬ Text.SplitsBreak walked r'.remaining ∧ r' = ⟨r.input, r.position.past walked⟩ := by
  obtain ⟨n, hn⟩ := h
  obtain ⟨walked, -, passed⟩ := exists_walked_of_steps? hn
  exact ⟨walked, passed⟩

/-- A text that is ahead and ends at no cut through a line break is walked over by as many symbols
as there are characters read from it. -/
theorem steps?_past (h : r.OnBoundary) {walked rest : Text}
    (ahead : r.remaining = walked ++ rest) (whole : ¬ Text.SplitsBreak walked rest) :
    r.steps? walked.read.length = some ⟨r.input, r.position.past walked⟩ := by
  induction walked, whole using Text.symbol_induction generalizing r with
  | nil => rfl
  | pair walked _ _ ih =>
    have past := past_remaining h
      (show r.remaining = ['\r', '\n'] ++ (walked ++ rest) from ahead)
    rw [Text.read, List.length_cons, steps?, step?_pair ahead, Option.bind_some]
    exact ih past.1 past.2
  | single c walked _ _ whole ih =>
    have past := past_remaining h (show r.remaining = [c] ++ (walked ++ rest) from ahead)
    have inner : ¬ Text.SplitsBreak [c] walked := fun h => whole (h.append rest)
    have later := ih past.1 past.2
    rw [← Position.past_append inner] at later
    rw [Text.read_cons inner, List.length_cons, steps?, step?_single ahead whole, Option.bind_some]
    exact later

theorem reaches_past (h : r.OnBoundary) {walked rest : Text}
    (ahead : r.remaining = walked ++ rest) (whole : ¬ Text.SplitsBreak walked rest) :
    r.Reaches ⟨r.input, r.position.past walked⟩ :=
  ⟨_, steps?_past h ahead whole⟩

/-- From `r` to `r'` the text `t` is passed, and no line break at its end is cut. -/
structure Passes (r : Reader) (t : Text) (r' : Reader) : Prop where
  ahead : r.remaining = t ++ r'.remaining
  whole : ¬ Text.SplitsBreak t r'.remaining
  stands : r' = ⟨r.input, r.position.past t⟩

theorem passes_past (h : r.OnBoundary) {walked rest : Text} (ahead : r.remaining = walked ++ rest)
    (whole : ¬ Text.SplitsBreak walked rest) :
    r.Passes walked ⟨r.input, r.position.past walked⟩ := by
  have behind := (past_remaining h ahead).2
  exact ⟨by rw [behind]; exact ahead, by rwa [behind], rfl⟩

theorem Passes.refl (r : Reader) : r.Passes [] r :=
  ⟨rfl, Text.not_splitsBreak_nil _, rfl⟩

/-- A walk that is continued passes the texts of both, one behind the other. -/
theorem Passes.trans {s t : Text} (h : r.Passes s r') (h' : r'.Passes t r'') :
    r.Passes (s ++ t) r'' := by
  have whole := h.whole
  rw [h'.ahead] at whole
  have inner : ¬ Text.SplitsBreak s t := fun split => whole (split.append _)
  refine ⟨by rw [h.ahead, h'.ahead, List.append_assoc], ?_, ?_⟩
  · cases t with
    | nil => simpa using whole
    | cons c t =>
      rw [Text.splitsBreak_append (List.cons_ne_nil c t)]
      exact h'.whole
  · rw [h'.stands, h.stands, Position.past_append inner]

/-- Over one symbol a text is passed that is read as the character ahead. -/
theorem exists_passes_of_step? (h : r.step? = some r') :
    ∃ (head : Text) (c : Char), r.Passes head r' ∧ head.read = [c] ∧ r.peek? = some c := by
  obtain ⟨head, one, ahead, whole, stands⟩ := exists_head_of_step? h
  obtain ⟨c, hc⟩ := List.length_eq_one_iff.mp one
  refine ⟨head, c, ⟨ahead, whole, stands⟩, hc, ?_⟩
  rw [peek?_eq, ahead, Text.read_append whole, hc]
  rfl

theorem Passes.read_append {s t : Text} (h : r.Passes s r') (h' : r'.Passes t r'') :
    (s ++ t).read = s.read ++ t.read := by
  have whole := h.whole
  rw [h'.ahead] at whole
  exact Text.read_append fun split => whole (split.append _)

theorem Passes.offset {t : Text} (h : r.Passes t r') : r'.offset = r.offset + t.byteLength := by
  rw [h.stands, Reader.offset, Position.offset_past, Reader.offset]

theorem Reaches.input (h : r.Reaches r') : r'.input = r.input := by
  obtain ⟨walked, -, -, rfl⟩ := h.exists_walked
  rfl

theorem Reaches.onBoundary (h : r.Reaches r') (hb : r.OnBoundary) : r'.OnBoundary := by
  obtain ⟨walked, ahead, -, hr'⟩ := h.exists_walked
  rw [hr']
  exact (past_remaining hb ahead).1

theorem Reaches.offset_le (h : r.Reaches r') : r.offset ≤ r'.offset := by
  obtain ⟨walked, -, -, hr'⟩ := h.exists_walked
  rw [hr', offset, offset, Position.offset_past]
  omega

/-! ## What the movements of a reader are -/

/-- The text that was passed is cut out by the offsets before and behind it. -/
theorem slice?_past (h : r.OnBoundary) {walked rest : Text} (ahead : r.remaining = walked ++ rest) :
    r.input.slice? r.offset (r.position.past walked).offset = some walked := by
  obtain ⟨before, hinput, hbefore⟩ := h.exists_before
  have sliced := Text.slice?_append before walked rest
  rwa [List.append_assoc, ← ahead, ← hinput, Text.byteLength_append, hbefore, offset,
    ← Position.offset_past] at sliced

theorem passTo_past (h : r.OnBoundary) {walked rest : Text} (ahead : r.remaining = walked ++ rest) :
    r.passTo ⟨r.input, r.position.past walked⟩ =
      .ok (walked, ⟨r.input, r.position.past walked⟩) := by
  have sliced : r.input.slice? r.offset (Reader.mk r.input (r.position.past walked)).offset =
      some walked := slice?_past h ahead
  rw [passTo, sliced]

theorem reach?_eq_some {target n : Nat} (h : reach? target n r = some r') :
    r.Reaches r' ∧ r'.offset = target := by
  induction n generalizing r with
  | zero =>
    rw [reach?] at h
    split at h
    · obtain rfl := Option.some.inj h
      exact ⟨.refl r, ‹_›⟩
    · cases h
  | succ n ih =>
    rw [reach?] at h
    split at h
    · obtain ⟨r₁, hstep, hrest⟩ := Option.bind_eq_some_iff.mp h
      have tail := ih hrest
      exact ⟨(reaches_of_step? hstep).trans tail.1, tail.2⟩
    · split at h
      · obtain rfl := Option.some.inj h
        exact ⟨.refl r, ‹_›⟩
      · cases h

theorem reach?_self (n : Nat) (r : Reader) : reach? r.offset n r = some r := by
  cases n with
  | zero => rw [reach?, if_pos rfl]
  | succ n => rw [reach?, if_neg (Nat.lt_irrefl _), if_pos rfl]

theorem reach?_step {target n : Nat} (hlt : r.offset < target) (hstep : r.step? = some r') :
    reach? target (n + 1) r = reach? target n r' := by
  rw [reach?, if_pos hlt, hstep, Option.bind_some]

/-- What can be walked over is reached by its length in bytes, a symbol having one or more. -/
theorem reach?_past (h : r.OnBoundary) {walked rest : Text} (ahead : r.remaining = walked ++ rest)
    (whole : ¬ Text.SplitsBreak walked rest) {n : Nat} (enough : walked.byteLength ≤ n) :
    reach? (r.offset + walked.byteLength) n r = some ⟨r.input, r.position.past walked⟩ := by
  induction walked, whole using Text.symbol_induction generalizing r n with
  | nil => exact reach?_self n r
  | pair walked _ _ ih =>
    have hb : Text.byteLength ('\r' :: '\n' :: walked) = 2 + Text.byteLength walked := by
      show 1 + (1 + _) = _
      omega
    have past := past_remaining h
      (show r.remaining = ['\r', '\n'] ++ (walked ++ rest) from ahead)
    obtain ⟨n, rfl⟩ : ∃ k, n = k + 1 := ⟨n - 1, by omega⟩
    rw [reach?_step (by omega) (step?_pair ahead), hb, ← Nat.add_assoc]
    exact ih past.1 past.2 (by omega)
  | single c walked _ _ whole ih =>
    have hc := c.utf8Size_pos
    have past := past_remaining h (show r.remaining = [c] ++ (walked ++ rest) from ahead)
    have inner : ¬ Text.SplitsBreak [c] walked := fun h => whole (h.append rest)
    rw [Text.byteLength] at enough ⊢
    obtain ⟨n, rfl⟩ : ∃ k, n = k + 1 := ⟨n - 1, by omega⟩
    have tail := ih past.1 past.2 (n := n) (by omega)
    rw [← Position.past_append inner, offset, Position.offset_past] at tail
    rw [reach?_step (by omega) (step?_single ahead whole), ← Nat.add_assoc]
    exact tail

/-- A leading text is taken by its bytes, if it splits no line break. -/
theorem takeBytes_past (h : r.OnBoundary) {walked rest : Text}
    (ahead : r.remaining = walked ++ rest) (whole : ¬ Text.SplitsBreak walked rest) :
    r.takeBytes walked.byteLength = .ok (some (walked, ⟨r.input, r.position.past walked⟩)) := by
  rw [takeBytes, reach?_past h ahead whole (Nat.le_refl _)]
  show (r.passTo _).map some = _
  rw [passTo_past h ahead]
  rfl

theorem eq_of_passTo {t : Text} (h : (r.passTo r').map some = .ok (some (t, r''))) :
    r'' = r' := by
  rw [passTo] at h
  split at h <;> cases h
  rfl

theorem reaches_of_take {n : Nat} {t : Text} (h : r.take n = .ok (some (t, r'))) :
    r.Reaches r' := by
  rw [take] at h
  cases hn : r.steps? n with
  | none => rw [hn] at h; cases h
  | some next =>
    rw [hn] at h
    rw [eq_of_passTo h]
    exact ⟨n, hn⟩

theorem reaches_of_takeBytes {n : Nat} {t : Text} (h : r.takeBytes n = .ok (some (t, r'))) :
    r.Reaches r' := by
  rw [takeBytes] at h
  cases hn : reach? (r.offset + n) n r with
  | none => rw [hn] at h; cases h
  | some next =>
    rw [hn] at h
    rw [eq_of_passTo h]
    exact (reach?_eq_some hn).1

/-- How a movement from `r` ends: behind a text that was ahead, or not at all. -/
inductive Moves (r : Reader) : Except Fault (Option (Text × Reader)) → Prop
  | onward {walked : Text} {r' : Reader} : r.Reaches r' → r.remaining = walked ++ r'.remaining →
    Moves r (.ok (some (walked, r')))
  | nowhere : Moves r (.ok none)

theorem moves_passTo (hb : r.OnBoundary) (h : r.Reaches r') :
    r.Moves ((r.passTo r').map some) := by
  obtain ⟨walked, ahead, -, hr'⟩ := h.exists_walked
  have hpass := passTo_past hb ahead
  rw [← hr'] at hpass
  rw [hpass]
  exact .onward h ahead

/-- Symbols that are taken are walked past; if there are too few, nothing moves. -/
theorem moves_take (hb : r.OnBoundary) (n : Nat) : r.Moves (r.take n) := by
  rw [take]
  cases hn : r.steps? n with
  | none => exact .nowhere
  | some r' =>
    exact moves_passTo hb ⟨n, hn⟩

theorem moves_takeBytes (hb : r.OnBoundary) (n : Nat) : r.Moves (r.takeBytes n) := by
  rw [takeBytes]
  cases hn : reach? (r.offset + n) n r with
  | none => exact .nowhere
  | some r' =>
    exact moves_passTo hb (reach?_eq_some hn).1

end Reader

end RecursiveDescent
