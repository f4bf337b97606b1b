import RecursiveDescent.Proofs.Contract

/-!
# What runs yield

`Yields` says of a run that begins at one reader what is known of its value and of the reader
behind it, or of its failure, granted that it keeps the contract of parsers. Each combinator has one
rule, which turns what is asked of it into what is asked of its parts, each where it begins.
-/

namespace RecursiveDescent

theorem Text.append_inj_of_byteLength {s t s' t' : Text} (h : s ++ t = s' ++ t')
    (hb : s.byteLength = s'.byteLength) : s = s' ∧ t = t' := by
  have hs : some s = some s' := by rw [← takeBytes?_append s t, h, hb, takeBytes?_append]
  obtain rfl := Option.some.inj hs
  exact ⟨rfl, List.append_cancel_left h⟩

/-- Bytes are taken only if they are a leading text that splits no line break. -/
theorem Reader.takeBytes_cases (r : Reader) (n : Nat) :
    r.takeBytes n = .ok none ∨ ∃ walked rest : Text, r.remaining = walked ++ rest ∧
      ¬ Text.SplitsBreak walked rest ∧ walked.byteLength = n := by
  cases h : reach? (r.offset + n) n r with
  | none => exact .inl (by rw [takeBytes, h])
  | some r' =>
    obtain ⟨walk, hoffset⟩ := reach?_eq_some h
    obtain ⟨walked, ahead, whole, rfl⟩ := walk.exists_walked
    rw [offset, Position.offset_past] at hoffset
    exact .inr ⟨walked, _, ahead, whole, Nat.add_left_cancel hoffset⟩

/-- A walk that takes nothing goes nowhere. -/
theorem Reader.Reaches.eq_of_offset {r r' : Reader} (h : r.Reaches r')
    (same : r'.offset = r.offset) : r' = r := by
  obtain ⟨walked, -, -, rfl⟩ := h.exists_walked
  rw [offset, Position.offset_past, offset] at same
  cases walked with
  | nil => rfl
  | cons c walked =>
    have hpos := Text.byteLength_pos (List.cons_ne_nil c walked)
    omega

/-- What runs have in common: how they may halt, and what holds of the store all along. -/
structure Conditions where
  halts : Halt → Prop
  stores : Store → Prop
  emit {s : Store} (e : Event) : stores s → stores (s.emit e)

def Conditions.any : Conditions where
  halts _ := True
  stores _ := True
  emit _ _ := trivial

namespace Conditions

variable {α β γ : Type} (C : Conditions)

/-- The state behind a walk from `r`. -/
def Arrives (r : Reader) (t : State) : Prop :=
  r.Reaches t.reader ∧ C.stores t.store

def Returns (r : Reader) (t : State) : Prop :=
  t.reader = r ∧ C.stores t.store

def Matched (r : Reader) (good : α → Reader → Prop) (m : Match α) (t : State) : Prop :=
  C.Arrives r t ∧ m.span = ⟨r.position, t.reader.position⟩ ∧ good m.value t.reader

/-- From `r`, at whichever store, the run halts only as it may, gives a value of which `good` holds
with the reader behind it, or fails as `bad` says where it began. -/
def Yields (run : Run (Match α)) (r : Reader) (good : α → Reader → Prop)
    (bad : Failure → Prop) : Prop :=
  r.OnBoundary → ∀ store, C.stores store →
    run.Ends C.halts ⟨r, store⟩ (C.Matched r good) fun f t => C.Returns r t ∧ bad f

/-- Whatever a run says that fails at `r` by itself, `bad` holds of it. -/
def Refuses (bad : Failure → Prop) (r : Reader) : Prop :=
  ∀ message expected found, bad (.here message expected found r)

variable {C} {r r' : Reader} {s t : State} {store : Store} {good good' : α → Reader → Prop}
variable {bad bad' : Failure → Prop}

/-- What is known of a run may be weakened, and what follows from the walk added. -/
theorem Yields.mono {run : Run (Match α)} (h : C.Yields run r good bad)
    (hgood : ∀ a r', r.Reaches r' → good a r' → good' a r') (hbad : ∀ f, bad f → bad' f) :
    C.Yields run r good' bad' := by
  intro hr store hstore
  apply (h hr store hstore).mono
  · rintro m t ⟨arrives, hspan, hm⟩
    exact ⟨arrives, hspan, hgood _ _ arrives.1 hm⟩
  · rintro f t ⟨returns, hf⟩
    exact ⟨returns, hbad f hf⟩

theorem Yields.of_onBoundary {run : Run (Match α)}
    (h : r.OnBoundary → C.Yields run r good bad) : C.Yields run r good bad :=
  fun hr => h hr hr

theorem Arrives.refl (hstore : C.stores store) : C.Arrives r ⟨r, store⟩ :=
  ⟨.refl r, hstore⟩

theorem Arrives.trans (h : C.Arrives r s) (h' : C.Arrives s.reader t) : C.Arrives r t :=
  ⟨h.1.trans h'.1, h'.2⟩

theorem Returns.refl (hstore : C.stores store) : C.Returns r ⟨r, store⟩ :=
  ⟨rfl, hstore⟩

/-- The run of a part, in a run from `r` after other parts. -/
theorem Yields.ends {run : Run (Match α)} (h : C.Yields run s.reader good bad) (hr : r.OnBoundary)
    (arrives : C.Arrives r s) :
    run.Ends C.halts s (C.Matched s.reader good) fun f t => C.Returns s.reader t ∧ bad f :=
  h (arrives.1.onBoundary hr) s.store arrives.2

theorem ends_rewind (hr : r.OnBoundary) (hinput : s.reader.input = r.input)
    {good : Unit → State → Prop} {bad : Failure → State → Prop} (h : good () ⟨r, s.store⟩) :
    (Run.rewind r.position).Ends C.halts s good bad :=
  (Run.ends_rewind_of_ok (hr.rewind hinput)).mpr h

theorem ends_enclosing {run : Run (Match α)} {message : String} (hr : r.OnBoundary)
    (arrives : C.Arrives r s)
    (h : C.Yields run s.reader good fun f => bad (f.enclose message r)) :
    (run.enclosing r.position message).Ends C.halts s (C.Matched s.reader good)
      fun f t => C.Returns r t ∧ bad f := by
  rw [Run.ends_enclosing]
  apply (h.ends hr arrives).imp_failed
  rintro f t ⟨⟨hreader, hstore⟩, hf⟩
  have hinput : t.reader.input = r.input := by rw [hreader, arrives.1.input]
  exact ends_rewind hr hinput ⟨⟨rfl, hstore⟩, hf⟩

theorem ends_orNothing {run : Run (Match α)} (hr : r.OnBoundary) (arrives : C.Arrives r s)
    (h : C.Yields run s.reader good bad) {after : Option (Match α) → State → Prop}
    {failed : Failure → State → Prop}
    (some : ∀ m t, C.Matched s.reader good m t → after (some m) t)
    (none : ∀ f t, C.Returns s.reader t → bad f → after none t) :
    (run.orNothing s.reader.position).Ends C.halts s after failed := by
  rw [Run.ends_orNothing]
  apply (h.ends hr arrives).mono some
  rintro f t ⟨returns, hf⟩
  have here := arrives.1.onBoundary hr
  have hinput : t.reader.input = s.reader.input := by rw [returns.1]
  exact ends_rewind here hinput (none f ⟨s.reader, t.store⟩ ⟨rfl, returns.2⟩ hf)

theorem ends_lookAhead {run : Run (Match α)} (hr : r.OnBoundary) (arrives : C.Arrives r s)
    (h : C.Yields run s.reader good bad) {after : Except Failure (Match α) → State → Prop}
    {failed : Failure → State → Prop}
    (ok : ∀ m r' t, C.Returns s.reader t → s.reader.Reaches r' → good m.value r' → after (.ok m) t)
    (error : ∀ f t, C.Returns s.reader t → bad f → after (.error f) t) :
    (run.lookAhead s.reader.position).Ends C.halts s after failed := by
  rw [Run.ends_lookAhead]
  have here := arrives.1.onBoundary hr
  apply (h.ends hr arrives).mono
  · rintro m t ⟨there, -, hm⟩
    exact ends_rewind here there.1.input (ok m t.reader _ ⟨rfl, there.2⟩ there.1 hm)
  · rintro f t ⟨returns, hf⟩
    have hinput : t.reader.input = s.reader.input := by rw [returns.1]
    exact ends_rewind here hinput (error f _ ⟨rfl, returns.2⟩ hf)

/-! ## Leaves -/

theorem exists_step {c : Char} (h : r.peek? = some c) : ∃ r', r.step? = some r' := by
  rw [Reader.peek?] at h
  obtain ⟨symbol, hs, -⟩ := Option.map_eq_some_iff.mp h
  exact ⟨_, by rw [Reader.step?, hs, Option.map_some]⟩

theorem ends_advance {move : Reader → Except Fault (Option (Text × Reader))} {walked : Text}
    (moves : move r = .ok (some (walked, r')))
    {after : Option (Text × Span) → State → Prop} {failed : Failure → State → Prop}
    (h : after (some (walked, ⟨r.position, r'.position⟩)) ⟨r', store⟩) :
    (Run.advance move).Ends C.halts ⟨r, store⟩ after failed := by
  rw [Run.ends_advance]
  dsimp only
  rw [moves]
  exact h

/-- Where there is a step, a symbol can be taken. -/
theorem take_one (hr : r.OnBoundary) (h : r.step? = some r') :
    ∃ walked, r.take 1 = .ok (some (walked, r')) := by
  have walk := Reader.reaches_of_step? h
  obtain ⟨walked, ahead, -, hr'⟩ := walk.exists_walked
  have passed := Reader.passTo_past hr ahead
  rw [← hr'] at passed
  refine ⟨walked, ?_⟩
  rw [Reader.take, Reader.steps?, h, Option.bind_some, Reader.steps?]
  dsimp only
  rw [passed]
  rfl

theorem ends_takeSymbol (hr : r.OnBoundary) (expected : String)
    (h : r.step? = some r') {failed : Failure → State → Prop} {after : Span → State → Prop}
    (taken : after ⟨r.position, r'.position⟩ ⟨r', store⟩) :
    (Parser.takeSymbol expected).Ends C.halts ⟨r, store⟩ after failed := by
  obtain ⟨walked, moves⟩ := take_one hr h
  rw [Parser.takeSymbol, Run.ends_bind, Run.take]
  refine ends_advance moves ?_
  exact taken

theorem yields_codePoint {good : Char → Reader → Prop} (label : String) (c : Char)
    (taken : ∀ r', r.peek? = some c → r.step? = some r' → good c r')
    (refused : r.peek? ≠ some c → Refuses bad r) :
    C.Yields (Parser.codePoint label c).run r good bad := by
  intro hr store hstore
  simp only [Parser.codePoint, Run.ends_bind, Run.ends_reader]
  cases hpeek : r.peek? with
  | none => exact ⟨.refl hstore, refused (by simp [hpeek]) _ _ _⟩
  | some d =>
    by_cases hd : d = c
    · subst hd
      obtain ⟨r', hstep⟩ := exists_step hpeek
      simp only [if_true, Run.ends_bind, Run.ends_pure]
      refine ends_takeSymbol hr _ hstep ?_
      exact ⟨⟨Reader.reaches_of_step? hstep, hstore⟩, rfl, taken r' hpeek hstep⟩
    · simp only [if_neg hd]
      exact ⟨.refl hstore, refused (by rw [hpeek]; simpa using hd) _ _ _⟩

/-- The symbol that is looked at is the one that is taken. -/
theorem yields_oneWhere {good : Char → Reader → Prop} (label message expected : String)
    (accepts : Char → Bool)
    (taken : ∀ c r', r.peek? = some c → accepts c = true → r.step? = some r' → good c r')
    (refused : (∀ c, r.peek? = some c → ¬ accepts c = true) → Refuses bad r) :
    C.Yields (Parser.oneWhere label message expected accepts).run r good bad := by
  intro hr store hstore
  simp only [Parser.oneWhere, Run.ends_bind, Run.ends_reader]
  cases hpeek : r.peek? with
  | none => exact ⟨.refl hstore, refused (by simp [hpeek]) _ _ _⟩
  | some c =>
    by_cases hc : accepts c = true
    · obtain ⟨r', hstep⟩ := exists_step hpeek
      simp only [if_pos hc, Run.ends_bind, Run.ends_pure]
      refine ends_takeSymbol hr _ hstep ?_
      exact ⟨⟨Reader.reaches_of_step? hstep, hstore⟩, rfl, taken c r' hpeek hc hstep⟩
    · simp only [if_neg hc]
      refine ⟨.refl hstore, refused ?_ _ _ _⟩
      rw [hpeek]
      rintro d ⟨⟩
      exact hc

theorem ends_takeBytes (hr : r.OnBoundary) {walked rest : Text}
    (ahead : r.remaining = walked ++ rest) (whole : ¬ Text.SplitsBreak walked rest)
    {failed : Failure → State → Prop} {after : Option (Text × Span) → State → Prop}
    (taken : after (some (walked, ⟨r.position, r.position.past walked⟩))
      ⟨⟨r.input, r.position.past walked⟩, store⟩) :
    (Run.takeBytes walked.byteLength).Ends C.halts ⟨r, store⟩ after failed :=
  ends_advance (Reader.takeBytes_past hr ahead whole) taken

/-- It takes a leading text as long as the run of accepted symbols, and never fails. -/
theorem yields_takeWhile {good : Text → Reader → Prop} (label : String) (accepts : Char → Bool)
    (taken : ∀ walked rest : Text, r.remaining = walked ++ rest → ¬ Text.SplitsBreak walked rest →
      walked.byteLength = r.remaining.runLength accepts →
      good walked ⟨r.input, r.position.past walked⟩) :
    C.Yields (Parser.takeWhile label accepts).run r good bad := by
  intro hr store hstore
  obtain ⟨walked, rest, ahead, length, whole, -⟩ := Text.exists_run accepts r.remaining
  have walk := Reader.reaches_past hr ahead whole
  simp only [Parser.takeWhile, Run.ends_bind, Run.ends_reader]
  rw [← length]
  refine ends_takeBytes hr ahead whole ?_
  exact ⟨⟨walk, hstore⟩, rfl, taken walked rest ahead whole length⟩

theorem yields_endOfInput {good : Unit → Reader → Prop} (taken : r.atEnd = true → good () r)
    (refused : ¬ r.atEnd = true → Refuses bad r) :
    C.Yields Parser.endOfInput.run r good bad := by
  intro hr store hstore
  simp only [Parser.endOfInput, Run.ends_bind, Run.ends_reader]
  by_cases atEnd : r.atEnd = true
  · simp only [if_pos atEnd, Run.ends_bind, Run.ends_position, Run.ends_pure]
    exact ⟨.refl hstore, rfl, taken atEnd⟩
  · simp only [if_neg atEnd, Run.ends_bind, Run.ends_found]
    exact ⟨.refl hstore, refused atEnd _ _ _⟩

/-- A match of a leading text takes it, unless it ends inside a line break. -/
theorem ends_takeMatch {good : Text → Reader → Prop} (hr : r.OnBoundary) (hstore : C.stores store)
    {text rest : Text} (ahead : r.remaining = text ++ rest) (expected : String)
    (taken : ¬ Text.SplitsBreak text rest → good text ⟨r.input, r.position.past text⟩)
    (refused : Refuses bad r) :
    (Parser.takeMatch expected r.remaining text.byteLength).Ends C.halts ⟨r, store⟩
      (C.Matched r good) fun f t => C.Returns r t ∧ bad f := by
  rw [Parser.takeMatch, Run.ends_bind]
  rcases r.takeBytes_cases text.byteLength with none | ⟨walked, rest', ahead', whole, hb⟩
  · rw [Run.takeBytes, Run.ends_advance]
    dsimp only
    rw [none]
    exact ⟨.refl hstore, refused _ _ _⟩
  · obtain ⟨rfl, rfl⟩ := Text.append_inj_of_byteLength (ahead'.symm.trans ahead) hb
    refine ends_takeBytes hr ahead whole ?_
    exact ⟨⟨Reader.reaches_past hr ahead whole, hstore⟩, rfl, taken whole⟩

theorem yields_literal {good : Text → Reader → Prop} (label : String) (text : Text)
    (taken : ∀ rest, r.remaining = text ++ rest → ¬ Text.SplitsBreak text rest →
      good text ⟨r.input, r.position.past text⟩)
    (refused : Refuses bad r) : C.Yields (Parser.literal label text).run r good bad := by
  intro hr store hstore
  simp only [Parser.literal, Run.ends_bind, Run.ends_reader]
  split
  · rename_i leading
    obtain ⟨rest, ahead⟩ := List.isPrefixOf_iff_prefix.mp leading
    exact ends_takeMatch hr hstore ahead.symm _ (taken rest ahead.symm) refused
  · split
    · exact ⟨.refl hstore, refused _ _ _⟩
    · exact ⟨.refl hstore, refused _ _ _⟩

theorem yields_literalIgnoringCase {good : Text → Reader → Prop} (label : String) (text : Text)
    (taken : ∀ walked rest : Text, r.remaining = walked ++ rest → ¬ Text.SplitsBreak walked rest →
      walked.lowercase = text.lowercase → good walked ⟨r.input, r.position.past walked⟩)
    (refused : Refuses bad r) :
    C.Yields (Parser.literalIgnoringCase label text).run r good bad := by
  intro hr store hstore
  simp only [Parser.literalIgnoringCase, Run.ends_bind, Run.ends_reader]
  have ahead := (List.take_append_drop text.length r.remaining).symm
  split
  · rename_i same
    exact ends_takeMatch hr hstore ahead _ (fun whole => taken _ _ ahead whole same) refused
  · split
    · exact ⟨.refl hstore, refused _ _ _⟩
    · exact ⟨.refl hstore, refused _ _ _⟩

/-! ## Alternatives, guards and lookahead -/

theorem yields_choiceFrom_cons {label : String} {cause : Option Failure} {p : Parser α}
    {ps : List (Parser α)}
    (h : C.Yields p.run r good fun f =>
      C.Yields (Parser.choiceFrom label r.position (some f) ps) r good bad) :
    C.Yields (Parser.choiceFrom label r.position cause (p :: ps)) r good bad := by
  intro hr store hstore
  simp only [Parser.choiceFrom, Run.ends_bind, Run.ends_observe]
  apply (h hr store hstore).imp_failed
  rintro f t ⟨⟨rfl, ht⟩, hf⟩
  exact ends_rewind hr rfl (hf hr t.store ht)

theorem yields_choiceFrom_nil {label : String} {f : Failure}
    (h : bad (f.enclose Parser.choiceFailed r)) :
    C.Yields (Parser.choiceFrom label r.position (some f) ([] : List (Parser α))) r good bad :=
  fun _ _ hstore => ⟨.refl hstore, h⟩

theorem yields_choice {label : String} {ps : List (Parser α)}
    (h : C.Yields (Parser.choiceFrom label r.position none ps) r good bad) :
    C.Yields (Parser.choice label ps).run r good bad := by
  intro hr store hstore
  simp only [Parser.choice, Run.ends_bind, Run.ends_position]
  exact h hr store hstore

/-- Whichever of the alternatives is taken. -/
theorem yields_choiceFrom {label : String} {cause : Option Failure} {ps : List (Parser α)}
    (hps : ∀ p ∈ ps, C.Yields p.run r good fun f => bad (f.enclose Parser.choiceFailed r))
    (hcause : ∀ f, cause = some f → bad (f.enclose Parser.choiceFailed r))
    (none : Refuses bad r) :
    C.Yields (Parser.choiceFrom label r.position cause ps) r good bad := by
  induction ps generalizing cause with
  | nil =>
    cases cause with
    | none =>
      intro _ _ hstore
      simp only [Parser.choiceFrom, Run.ends_bind, Run.ends_found]
      exact ⟨.refl hstore, none _ _ _⟩
    | some f => exact yields_choiceFrom_nil (hcause f rfl)
  | cons p ps ih =>
    obtain ⟨hp, hps⟩ := List.forall_mem_cons.mp hps
    apply yields_choiceFrom_cons
    refine hp.mono (fun _ _ _ => id) fun f hf => ih hps ?_
    rintro _ ⟨⟩
    exact hf

theorem ends_allOfFrom {label : String} {ps : List (Parser α)} (hr : r.OnBoundary)
    (arrives : C.Arrives r s) (last : Option (Match α))
    (hps : ∀ p ∈ ps, C.Yields p.run r (fun _ _ => True) fun f =>
      bad (f.enclose Parser.allOfFailed r))
    (hlast : ∀ p, ps.getLast? = some p → C.Yields p.run r good fun f =>
      bad (f.enclose Parser.allOfFailed r))
    (none : ps = [] → ∃ m, last = some m ∧ C.Matched r good m s) :
    (Parser.allOfFrom label r.position last ps).Ends C.halts s (C.Matched r good)
      fun f t => C.Returns r t ∧ bad f := by
  induction ps generalizing s last with
  | nil =>
    obtain ⟨m, rfl, hm⟩ := none rfl
    exact hm
  | cons p ps ih =>
    obtain ⟨hp, hps⟩ := List.forall_mem_cons.mp hps
    simp only [Parser.allOfFrom, Run.ends_bind]
    refine ends_rewind hr arrives.1.input ?_
    have here : C.Arrives r ⟨r, s.store⟩ := .refl arrives.2
    cases ps with
    | nil =>
      apply (ends_enclosing hr here (hlast p rfl)).imp_ok
      intro m t hm
      exact ih hm.1 (some m) hps (by simp) fun _ => ⟨m, rfl, hm⟩
    | cons q ps =>
      apply (ends_enclosing hr here hp).imp_ok
      intro m t hm
      exact ih hm.1 (some m) hps hlast (by simp)

/-- Only the last parser counts. -/
theorem yields_allOf {label : String} {ps : List (Parser α)}
    (hps : ∀ p ∈ ps, C.Yields p.run r (fun _ _ => True) fun f =>
      bad (f.enclose Parser.allOfFailed r))
    (hlast : ∀ p, ps.getLast? = some p → C.Yields p.run r good fun f =>
      bad (f.enclose Parser.allOfFailed r))
    (none : ps = [] → Refuses bad r) : C.Yields (Parser.allOf label ps).run r good bad := by
  intro hr store hstore
  simp only [Parser.allOf, Run.ends_bind, Run.ends_position]
  cases ps with
  | nil =>
    simp only [Parser.allOfFrom, Run.ends_bind, Run.ends_found]
    exact ⟨.refl hstore, none rfl _ _ _⟩
  | cons p ps => exact ends_allOfFrom hr (.refl hstore) _ hps hlast (by simp)

theorem yields_optional {p : Parser α} {good : Option α → Reader → Prop}
    (h : C.Yields p.run r (fun a r' => good (some a) r') fun _ => good none r) :
    C.Yields (Parser.optional p).run r good bad := by
  intro hr store hstore
  simp only [Parser.optional, Run.ends_bind, Run.ends_position]
  refine ends_orNothing (s := ⟨r, store⟩) hr (.refl hstore) h ?_ ?_
  · rintro m t ⟨arrives, hspan, hm⟩
    exact ⟨arrives, hspan, hm⟩
  · rintro f ⟨_, store'⟩ ⟨rfl, hstore'⟩ hnone
    exact ⟨.refl hstore', rfl, hnone⟩

theorem yields_notAhead {p : Parser α} {label : String} {good : Unit → Reader → Prop}
    (h : C.Yields p.run r (fun _ _ => Refuses bad r) fun _ => good () r) :
    C.Yields (Parser.notAhead label p).run r good bad := by
  intro hr store hstore
  simp only [Parser.notAhead, Run.ends_bind, Run.ends_position]
  refine ends_lookAhead (s := ⟨r, store⟩) hr (.refl hstore) h ?_ ?_
  · rintro m r' ⟨_, store'⟩ ⟨rfl, hstore'⟩ - hbad
    exact ⟨.refl hstore', hbad _ _ _⟩
  · rintro f ⟨_, store'⟩ ⟨rfl, hstore'⟩ hgood
    exact ⟨.refl hstore', rfl, hgood⟩

theorem yields_attempt {p : Parser α}
    (h : C.Yields p.run r good fun f => bad (f.enclose "Attempt failed" r)) :
    C.Yields (Parser.attempt p).run r good bad := by
  intro hr store hstore
  simp only [Parser.attempt, Run.ends_bind, Run.ends_position]
  exact ends_enclosing (s := ⟨r, store⟩) hr (.refl hstore) h

/-! ## One parser after the other -/

/-- The invariant says what is known where the parsers that are left begin. -/
theorem ends_inOrderFrom {label : String} (hr : r.OnBoundary)
    {inv : List (Parser α) → Reader → Prop}
    (step : ∀ p ps r', r.Reaches r' → inv (p :: ps) r' → C.Yields p.run r'
      (fun a r'' => inv ps r'' ∧ (ps = [] → good a r'')) fun f =>
        bad (f.enclose Parser.inOrderFailed r))
    (ps : List (Parser α)) (arrives : C.Arrives r s) (here : inv ps s.reader) (last : Option α)
    (none : ps = [] → ∃ a, last = some a ∧ good a s.reader) :
    (Parser.inOrderFrom label r.position last ps).Ends C.halts s (C.Matched r good)
      fun f t => C.Returns r t ∧ bad f := by
  induction ps generalizing s last with
  | nil =>
    obtain ⟨a, rfl, ha⟩ := none rfl
    exact ⟨arrives, rfl, ha⟩
  | cons p ps ih =>
    simp only [Parser.inOrderFrom, Run.ends_bind]
    apply (ends_enclosing hr arrives (step p ps s.reader arrives.1 here)).imp_ok
    rintro m t ⟨arrives', -, there, hm⟩
    exact ih (arrives.trans arrives') there (some m.value) fun hps => ⟨_, rfl, hm hps⟩

theorem yields_inOrder {label : String} {ps : List (Parser α)}
    (inv : List (Parser α) → Reader → Prop) (start : inv ps r)
    (step : ∀ p ps r', r.Reaches r' → inv (p :: ps) r' → C.Yields p.run r'
      (fun a r'' => inv ps r'' ∧ (ps = [] → good a r'')) fun f =>
        bad (f.enclose Parser.inOrderFailed r))
    (none : ps = [] → Refuses bad r) : C.Yields (Parser.inOrder label ps).run r good bad := by
  intro hr store hstore
  simp only [Parser.inOrder, Run.ends_bind, Run.ends_position]
  cases ps with
  | nil =>
    simp only [Parser.inOrderFrom, Run.ends_bind, Run.ends_found]
    exact ⟨.refl hstore, none rfl _ _ _⟩
  | cons p ps => exact ends_inOrderFrom hr step _ (.refl hstore) start _ (by simp)

/-- What is asked of the second part is asked wherever the first part leads. -/
theorem yields_andThen {left : Parser α} {right : Parser β} {good : α × β → Reader → Prop}
    (h : C.Yields left.run r
      (fun a r' => C.Yields right.run r' (fun b => good (a, b)) fun f =>
        bad (f.enclose "Right of Then failed" r))
      fun f => bad (f.enclose "Left of Then failed" r)) :
    C.Yields (Parser.andThen left right).run r good bad := by
  intro hr store hstore
  simp only [Parser.andThen, Run.ends_bind, Run.ends_position]
  apply (ends_enclosing (s := ⟨r, store⟩) hr (.refl hstore) h).imp_ok
  rintro l t ⟨arrives, -, hright⟩
  apply (ends_enclosing hr arrives hright).imp_ok
  rintro m u ⟨arrives', hspan, hm⟩
  refine ⟨arrives.trans arrives', ?_, hm⟩
  show Span.mk r.position m.span.stop = _
  rw [hspan]

theorem yields_fst {pair : Parser (α × β)}
    (h : C.Yields pair.run r (fun v => good v.1) fun f => bad (f.enclose "KeepLeft failed." r)) :
    C.Yields (Parser.fst pair).run r good bad := by
  intro hr store hstore
  simp only [Parser.fst, Run.ends_bind, Run.ends_position, Run.ends_pure]
  exact ends_enclosing (s := ⟨r, store⟩) hr (.refl hstore) h

theorem yields_snd {pair : Parser (α × β)} {good : β → Reader → Prop}
    (h : C.Yields pair.run r (fun v => good v.2) fun f => bad (f.enclose "KeepRight failed." r)) :
    C.Yields (Parser.snd pair).run r good bad := by
  intro hr store hstore
  simp only [Parser.snd, Run.ends_bind, Run.ends_position, Run.ends_pure]
  exact ends_enclosing (s := ⟨r, store⟩) hr (.refl hstore) h

/-- How `between` tells the failure of its first two parts together. -/
def betweenLeft (r : Reader) (f : Failure) : Failure :=
  (((f.enclose "KeepRight failed." r).enclose "Left of Then failed" r).enclose
    "KeepLeft failed." r).enclose "Between combinator failed." r

/-- How it tells the failure of its last part. -/
def betweenRight (r : Reader) (f : Failure) : Failure :=
  ((f.enclose "Right of Then failed" r).enclose "KeepLeft failed." r).enclose
    "Between combinator failed." r

/-- The failures of the parts are told by the parsers that `between` is made of. -/
theorem yields_between {opening : Parser α} {content : Parser β} {closing : Parser γ}
    {good : β → Reader → Prop}
    (h : C.Yields opening.run r
      (fun _ r₁ => C.Yields content.run r₁
        (fun b r₂ => C.Yields closing.run r₂ (fun _ => good b) fun f => bad (betweenRight r f))
        fun f => bad (betweenLeft r (f.enclose "Right of Then failed" r)))
      fun f => bad (betweenLeft r (f.enclose "Left of Then failed" r))) :
    C.Yields (Parser.between opening content closing).run r good bad := by
  intro hr store hstore
  simp only [Parser.between, Run.ends_bind, Run.ends_position]
  refine ends_enclosing (s := ⟨r, store⟩) hr (.refl hstore) ?_
  apply yields_fst
  apply yields_andThen
  apply yields_snd
  apply yields_andThen
  exact h

/-! ## Changing what a parser gives -/

theorem yields_recast {p : Parser α} {f : α → β} {good : β → Reader → Prop}
    (h : C.Yields p.run r (fun a => good (f a)) bad) : C.Yields (p.recast f).run r good bad := by
  intro hr store hstore
  rw [Parser.recast, Run.ends_map]
  exact h hr store hstore

theorem yields_map {p : Parser α} {f : α → β} {good : β → Reader → Prop}
    (h : C.Yields p.run r (fun a => good (f a)) fun g => bad (g.enclose "Map parser failed" r)) :
    C.Yields (Parser.map f p).run r good bad := by
  intro hr store hstore
  simp only [Parser.map, Run.ends_bind, Run.ends_position, Run.ends_pure]
  exact ends_enclosing (s := ⟨r, store⟩) hr (.refl hstore) h

theorem yields_filter {p : Parser α} {label : String} {accepts : α → Bool}
    (h : C.Yields p.run r
      (fun a r' => (accepts a = true → good a r') ∧ (¬ accepts a = true → Refuses bad r)) bad) :
    C.Yields (Parser.filter label accepts p).run r good bad := by
  intro hr store hstore
  simp only [Parser.filter, Run.ends_bind, Run.ends_position]
  apply (h hr store hstore).imp_ok
  rintro m t ⟨arrives, hspan, accepted, rejected⟩
  by_cases hm : accepts m.value = true
  · simp only [if_pos hm]
    exact ⟨arrives, hspan, accepted hm⟩
  · simp only [if_neg hm, Run.ends_bind, Run.ends_input, Run.ends_failHere]
    exact ends_rewind hr arrives.1.input ⟨⟨rfl, arrives.2⟩, rejected hm _ _ _⟩

theorem yields_withSpan {p : Parser α} {good : α × Span → Reader → Prop}
    (h : C.Yields p.run r (fun a r' => good (a, ⟨r.position, r'.position⟩) r') bad) :
    C.Yields (Parser.withSpan p).run r good bad := by
  intro hr store hstore
  rw [Parser.withSpan, Run.ends_bind]
  apply (h hr store hstore).imp_ok
  rintro m t ⟨arrives, hspan, hm⟩
  rw [← hspan] at hm
  exact ⟨arrives, hspan, hm⟩

/-- Behind the match there are the blanks, up to the first symbol that is none. -/
theorem yields_lexeme {p : Parser α}
    (h : C.Yields p.run r
      (fun a r' => ∀ walked rest : Text, r'.remaining = walked ++ rest →
        ¬ Text.SplitsBreak walked rest →
        walked.byteLength = r'.remaining.runLength Unicode.isWhiteSpace →
        good a ⟨r'.input, r'.position.past walked⟩) bad) :
    C.Yields (Parser.lexeme p).run r good bad := by
  intro hr store hstore
  simp only [Parser.lexeme, Run.ends_bind, Run.ends_pure]
  apply (h hr store hstore).imp_ok
  rintro m t ⟨arrives, hspan, hm⟩
  have trailing : C.Yields Parser.spaces.run t.reader (fun _ => good m.value) fun _ => False :=
    yields_takeWhile _ _ hm
  apply (trailing.ends hr arrives).mono
  · rintro m' u ⟨arrives', hspan', hm'⟩
    refine ⟨arrives.trans arrives', ?_, hm'⟩
    show Span.mk m.span.start m'.span.stop = _
    rw [hspan, hspan']
  · rintro f u ⟨-, ⟨⟩⟩

theorem yields_traced {node : NodeId} {name : String} {p : Parser α}
    (h : C.Yields p.run r good bad) : C.Yields (Parser.traced node name p).run r good bad := by
  intro hr store hstore
  simp only [Parser.traced, Run.ends_bind, Run.ends_position, Run.ends_emit, Run.ends_observe,
    Run.ends_input, Run.ends_pure, Run.ends_fail]
  apply (h hr _ (C.emit _ hstore)).mono
  · rintro m t ⟨⟨walk, ht⟩, hspan, hm⟩
    exact ⟨⟨walk, C.emit _ ht⟩, hspan, hm⟩
  · rintro f t ⟨⟨hreader, ht⟩, hf⟩
    exact ⟨⟨hreader, C.emit _ ht⟩, hf⟩

/-! ## Parsers built on first use -/

/-- The body runs with the rule built, which may be more than is known around it. -/
theorem yields_deferred {C' : Conditions} {kind : RuleKind} {rule : NodeId} {label : String}
    {body : Run (Match α)} (halts : C'.halts = C.halts)
    (built : ∀ store, C.stores store → store.isBuilt rule = true → C'.stores store)
    (build : ∀ store, C.stores store → C'.stores (store.markBuilt rule))
    (forget : ∀ store, C'.stores store → C.stores store) (h : C'.Yields body r good bad) :
    C.Yields (Parser.deferred kind rule label body).run r good bad := by
  intro hr store hstore
  have inside : ∀ store, C'.stores store → body.Ends C.halts ⟨r, store⟩ (C.Matched r good)
      fun f t => C.Returns r t ∧ bad f := by
    intro store hstore
    rw [← halts]
    apply (h hr store hstore).mono
    · rintro m t ⟨⟨walk, ht⟩, hm⟩
      exact ⟨⟨walk, forget _ ht⟩, hm⟩
    · rintro f t ⟨⟨hreader, ht⟩, hf⟩
      exact ⟨⟨hreader, forget _ ht⟩, hf⟩
  simp only [Parser.deferred, Parser.build, Run.ends_bind, Run.ends_store]
  split
  · rename_i already
    exact inside store (built store hstore already)
  · simp only [Run.ends_bind, Run.ends_emit, Run.ends_modifyStore]
    exact inside _ (build _ (C.emit _ hstore))

/-- The body runs under what is known around it. -/
theorem yields_deferred_same {kind : RuleKind} {rule : NodeId} {label : String}
    {body : Run (Match α)} (build : ∀ store, C.stores store → C.stores (store.markBuilt rule))
    (h : C.Yields body r good bad) :
    C.Yields (Parser.deferred kind rule label body).run r good bad :=
  yields_deferred rfl (fun _ hstore _ => hstore) build (fun _ => id) h

theorem yields_unavailable {label : String} (hbad : Refuses bad r) :
    C.Yields (Parser.unavailable label : Run (Match α)) r good bad := by
  intro hr store hstore
  simp only [Parser.unavailable, Run.ends_bind, Run.ends_found]
  exact ⟨.refl hstore, hbad _ _ _⟩

theorem yields_reference {rule : NodeId} {label : String} {enter : Run (Match α)}
    (h : C.Yields enter r good bad)
    (unavailable : ∀ store, C.stores store → ¬ store.isAvailable rule = true → Refuses bad r) :
    C.Yields (Parser.reference rule label enter).run r good bad := by
  intro hr store hstore
  simp only [Parser.reference, Run.ends_bind, Run.ends_store]
  split
  · exact h hr store hstore
  · rename_i gone
    exact yields_unavailable (unavailable store hstore gone) hr store hstore

end Conditions

end RecursiveDescent
