import RecursiveDescent.Parser.Choice
import RecursiveDescent.Parser.Deferred
import RecursiveDescent.Parser.InOrder
import RecursiveDescent.Parser.Literal
import RecursiveDescent.Parser.Operators
import RecursiveDescent.Parser.Refine
import RecursiveDescent.Parser.Repeat
import RecursiveDescent.Proofs.Ending
import RecursiveDescent.Proofs.Walk

/-!
# Disciplines of parsers

A discipline says how parsers treat the reader: how it moves when they succeed, where it is left
when they fail, what they tell in either case, and what may halt them. Whatever the discipline, a
combinator keeps it if its parts do. What is asked for this is little: walks compose, and from where
a failing part leaves the reader one can go back to where the whole began.
-/
namespace RecursiveDescent

namespace Text

/-- What runs of characters cover is a leading text that cuts no line break. All that is read from
it is accepted, and what is read behind it is not. -/
theorem exists_run (accepts : Char → Bool) (t : Text) :
    ∃ walked rest : Text, t = walked ++ rest ∧ walked.byteLength = runLength accepts t ∧
      ¬ SplitsBreak walked rest ∧ (∀ c ∈ walked.read, accepts c = true) ∧
      ∀ c, rest.read.head? = some c → ¬ accepts c = true := by
  have stop : ∀ u : Text, (∀ c, u.read.head? = some c → ¬ accepts c = true) →
      ∃ walked rest : Text, u = walked ++ rest ∧ walked.byteLength = 0 ∧
        ¬ SplitsBreak walked rest ∧ (∀ c ∈ walked.read, accepts c = true) ∧
        ∀ c, rest.read.head? = some c → ¬ accepts c = true :=
    fun u refused => ⟨[], u, rfl, rfl, not_splitsBreak_nil u,
      fun _ mem => absurd mem List.not_mem_nil, refused⟩
  fun_induction runLength accepts t with
  | case1 rest accepted ih =>
    obtain ⟨walked, rest, rfl, hb, whole, all, refused⟩ := ih
    refine ⟨'\r' :: '\n' :: walked, rest, rfl, ?_, fun h => whole (splitsBreak_pair.mp h),
      List.forall_mem_cons.mpr ⟨accepted, all⟩, refused⟩
    rw [← hb]
    show 1 + (1 + _) = _
    omega
  | case2 rest refused =>
    refine stop _ fun c hc => ?_
    obtain rfl : '\n' = c := Option.some.inj hc
    exact refused
  | case3 c rest notPair accepted ih =>
    obtain ⟨walked, rest, rfl, hb, whole, all, refused⟩ := ih
    have first : ¬ SplitsBreak [c] (walked ++ rest) := by
      rintro ⟨hc, hrest⟩
      obtain ⟨u, hu⟩ := List.head?_eq_some_iff.mp hrest
      exact notPair u (by simpa using hc) hu
    refine ⟨c :: walked, rest, rfl, by rw [byteLength, hb], not_splitsBreak_cons first whole, ?_,
      refused⟩
    rw [read_cons fun split => first (split.append rest)]
    exact List.forall_mem_cons.mpr ⟨accepted, all⟩
  | case4 c rest notPair refused =>
    refine stop _ fun d hd => ?_
    rw [read] at hd
    · obtain rfl : c = d := Option.some.inj hd
      exact refused
    · exact notPair
  | case5 => exact stop [] fun c hc => by cases hc

/-- `t` begins as `s` does, and goes on where `s` ends. -/
def EndsWithin (s t : Text) : Prop :=
  s <+: t ∧ s ≠ t

theorem prefix_of_takeBytes? {n : Nat} {t u : Text} (h : takeBytes? n t = some u) : u <+: t := by
  fun_induction takeBytes? n t generalizing u with
  | case1 => cases h; exact List.nil_prefix
  | case2 => cases h
  | case3 n c rest _ ih =>
    obtain ⟨v, hv, rfl⟩ := Option.map_eq_some_iff.mp h
    exact List.cons_prefix_cons.mpr ⟨rfl, ih hv⟩
  | case4 => cases h

end Text

namespace Reader

variable {r : Reader}

/-- What a failure at the reader tells of the text ahead: its first character, or some of it. -/
inductive Tells (r : Reader) : String → Prop
  | ahead : Tells r r.found
  | quotes {t : Text} : t <+: r.remaining → Tells r (String.ofList t)

theorem tells_end (h : r.peek? = none) : r.Tells endMark := by
  have found : r.found = endMark := by rw [Reader.found, h]
  exact found ▸ .ahead

theorem tells_char {c : Char} (h : r.peek? = some c) : r.Tells (String.singleton c) := by
  have found : r.found = String.singleton c := by rw [Reader.found, h]
  exact found ▸ .ahead

theorem tells_takeBytes (n : Nat) :
    r.Tells (String.ofList ((r.remaining.takeBytes? n).getD r.remaining)) := by
  cases h : r.remaining.takeBytes? n with
  | none => exact .quotes List.prefix_rfl
  | some t => exact .quotes (Text.prefix_of_takeBytes? h)

/-- There is no symbol to take at the end only. -/
theorem peek?_eq_none_of_take (h : r.take 1 = .ok none) : r.peek? = none := by
  cases hstep : r.step? with
  | none => simpa [step?, peek?] using hstep
  | some next =>
    rw [take, steps?, hstep] at h
    change (r.passTo next).map some = _ at h
    cases hpass : r.passTo next <;> rw [hpass] at h <;> cases h

end Reader

namespace Parser

/-- No run of characters ends inside a symbol. -/
theorem takeBytes_runLength (r : Reader) (accepts : Char → Bool) :
    r.takeBytes (r.remaining.runLength accepts) ≠ .ok none := by
  by_cases h : r.OnBoundary
  · obtain ⟨walked, rest, ahead, hb, whole, -⟩ := Text.exists_run accepts r.remaining
    rw [← hb, Reader.takeBytes_past h ahead whole]
    nofun
  · rw [Reader.remaining_eq_nil h, Text.runLength, Reader.takeBytes, Nat.add_zero,
      Reader.reach?_self]
    show (r.passTo r).map some ≠ _
    cases r.passTo r with
    | ok passed => exact fun h => by cases h
    | error fault => exact fun h => by cases h

/-- A run of no accepted symbols is a match too. -/
theorem takeWhile_never_fails (label : String) (accepts : Char → Bool) (s : State) (f : Failure)
    (t : State) : (takeWhile label accepts).run s ≠ .failed f t := by
  intro failed
  have taken := takeBytes_runLength s.reader accepts
  change (Run.takeBytes _ >>= _) s = _ at failed
  rw [Run.bind_apply, Run.takeBytes, Run.advance] at failed
  cases hmove : s.reader.takeBytes (s.reader.remaining.runLength accepts) with
  | error fault => rw [hmove] at failed; cases failed
  | ok moved =>
    cases moved with
    | none => exact taken hmove
    | some moved => rw [hmove] at failed; cases failed

end Parser

structure Discipline where
  /-- Where runs begin. -/
  start : Reader → Prop
  /-- How the reader moves when a run succeeds. -/
  path : Reader → Reader → Prop
  /-- Where the reader may be left when a run fails. -/
  lost : Reader → Reader → Prop
  /-- Matches report the span that was passed. -/
  exactSpans : Prop
  /-- What is known of the failure of a run. -/
  raised : Reader → Failure → Prop
  halts : Halt → Prop
  path_refl {r : Reader} : start r → path r r
  path_trans {r r' r'' : Reader} : path r r' → path r' r'' → path r r''
  start_of_path {r r' : Reader} : start r → path r r' → start r'
  lost_refl {r : Reader} : start r → lost r r
  undo {r r' r'' : Reader} : start r → path r r' → lost r' r'' →
    match r''.rewind r.position with
    | .ok undone => undone = r
    | .error f => halts (.fault f)
  take {r : Reader} (n : Nat) : start r →
    match r.take n with
    | .ok (some (_, r')) => path r r'
    | .ok none => True
    | .error f => halts (.fault f)
  takeBytes {r : Reader} (n : Nat) : start r →
    match r.takeBytes n with
    | .ok (some (_, r')) => path r r'
    | .ok none => True
    | .error f => halts (.fault f)
  raised_here {r : Reader} {found : String} (message expected : String) : start r →
    r.Tells found → raised r (.here message expected found r)
  /-- A match that is refused is quoted by its span. -/
  raised_refused {r r' : Reader} {span : Span} (message expected : String) : start r →
    path r r' → (exactSpans → span = ⟨r.position, r'.position⟩) →
    raised r (.here message expected (String.ofList (span.slice r.input)) r)
  raised_enclose {r r' : Reader} {f : Failure} (message : String) : start r → path r r' →
    raised r' f → raised r (f.enclose message r)
  /-- A repetition that has no item says so at its own level. -/
  raised_restated {r r' : Reader} {f : Failure} (message expected found : String) : start r →
    path r r' → raised r' f →
    raised r (((f.enclose message r).withExpected expected).withFound found)
  halts_exhausted : halts .exhausted

namespace Discipline

variable {α β γ : Type} (D : Discipline)

def succeeds (r : Reader) (span : Span) (r' : Reader) : Prop :=
  D.path r r' ∧ (D.exactSpans → span = ⟨r.position, r'.position⟩)

def fails (r : Reader) (f : Failure) (r' : Reader) : Prop :=
  D.lost r r' ∧ D.raised r f

/-- How a run from `r` may fail that undoes what its parts did. -/
def failsBack (r : Reader) (f : Failure) (r' : Reader) : Prop :=
  r' = r ∧ D.raised r f

/-- How a part of a run from `r` may fail, the parts before it having moved the reader. -/
def failsAlong (r : Reader) (f : Failure) (r'' : Reader) : Prop :=
  ∃ r', D.path r r' ∧ D.fails r' f r''

def Governs (run : Run (Match α)) : Prop :=
  ∀ s, D.start s.reader → run.Ends D.halts s
    (fun m t => D.succeeds s.reader m.span t.reader) (fun f t => D.fails s.reader f t.reader)

/-- The run is governed, and whatever its parts do it goes back before it fails. -/
def Shields (run : Run (Match α)) : Prop :=
  ∀ s, D.start s.reader → run.Ends D.halts s
    (fun m t => D.succeeds s.reader m.span t.reader) (fun f t => D.failsBack s.reader f t.reader)

variable {D} {r r' r'' : Reader} {s t : State}

theorem failsBack.fails {f : Failure} (h : D.start r) (back : D.failsBack r f r') :
    D.fails r f r' := by
  obtain ⟨rfl, hf⟩ := back
  exact ⟨D.lost_refl h, hf⟩

/-- What goes back on every failure keeps the discipline in any case. -/
theorem Shields.governs {run : Run (Match α)} (h : D.Shields run) : D.Governs run :=
  fun s hs => (h s hs).imp_failed fun _ _ back => back.fails hs

theorem succeeds_exact (h : D.path r r') : D.succeeds r ⟨r.position, r'.position⟩ r' :=
  ⟨h, fun _ => rfl⟩

theorem succeeds_empty (h : D.start r) : D.succeeds r (.empty r.position) r :=
  succeeds_exact (D.path_refl h)

theorem succeeds.then_stop {span span' : Span} (h : D.succeeds r span r')
    (h' : D.succeeds r' span' r'') : D.succeeds r ⟨r.position, span'.stop⟩ r'' :=
  ⟨D.path_trans h.1 h'.1, fun e => by rw [h'.2 e]⟩

theorem succeeds.extend {span span' : Span} (h : D.succeeds r span r')
    (h' : D.succeeds r' span' r'') : D.succeeds r ⟨span.start, span'.stop⟩ r'' :=
  ⟨D.path_trans h.1 h'.1, fun e => by rw [h.2 e, h'.2 e]⟩

/-- What a combinator says by itself is told where it stands, and the reader has not moved. -/
theorem failsBack_here (h : D.start r) {found : String} (tells : r.Tells found)
    (message expected : String) : D.failsBack r (.here message expected found r) r :=
  ⟨rfl, D.raised_here message expected h tells⟩

/-- A match that is refused is quoted by the failure, and the reader goes back in front of it. -/
theorem failsBack_refused (h : D.start r) {span : Span} (matched : D.succeeds r span r')
    (message expected : String) :
    D.failsBack r (.here message expected (String.ofList (span.slice r.input)) r) r :=
  ⟨rfl, D.raised_refused message expected h matched.1 matched.2⟩

/-! ## Going back -/

/-- Going back from where a part was lost leads to where the run began. -/
theorem ends_rewind (hr : D.start r) (hp : D.path r r') (hl : D.lost r' t.reader)
    {good : Unit → State → Prop} {bad : Failure → State → Prop} (h : good () ⟨r, t.store⟩) :
    (Run.rewind r.position).Ends D.halts t good bad := by
  have back := D.undo hr hp hl
  rw [Run.ends_rewind]
  cases hrew : t.reader.rewind r.position with
  | ok undone => rw [hrew] at back; rwa [back]
  | error f => rw [hrew] at back; exact back

/-- A failure that is enclosed goes back, wherever the part has left the reader. -/
theorem ends_enclosing (hr : D.start r) {run : Run α} {message : String}
    {good : α → State → Prop}
    (h : run.Ends D.halts s good fun f t => D.failsAlong r f t.reader) :
    (run.enclosing r.position message).Ends D.halts s good fun f t => D.failsBack r f t.reader := by
  rw [Run.ends_enclosing]
  apply h.imp_failed
  rintro f t ⟨r', hp, hl, hf⟩
  exact ends_rewind hr hp hl ⟨rfl, D.raised_enclose message hr hp hf⟩

/-- A failure that counts as nothing goes back as well. -/
theorem ends_orNothing (hr : D.start r) {run : Run α} {good : Option α → State → Prop}
    {bad : Failure → State → Prop} (none : ∀ store, good none ⟨r, store⟩)
    (h : run.Ends D.halts s (fun a t => good (some a) t) fun f t => D.failsAlong r f t.reader) :
    (run.orNothing r.position).Ends D.halts s good bad := by
  rw [Run.ends_orNothing]
  apply h.imp_failed
  rintro f t ⟨r', hp, hl, -⟩
  exact ends_rewind hr hp hl (none t.store)

/-- A part of a run from `r` after others of its parts. -/
theorem Governs.along {run : Run (Match α)} (h : D.Governs run) (hr : D.start r)
    (hp : D.path r s.reader) :
    run.Ends D.halts s (fun m t => D.path r t.reader ∧ D.succeeds s.reader m.span t.reader)
      fun f t => D.failsAlong r f t.reader :=
  (h s (D.start_of_path hr hp)).mono (fun _ _ hm => ⟨D.path_trans hp hm.1, hm⟩)
    fun _ _ hf => ⟨s.reader, hp, hf⟩

theorem Governs.first {run : Run (Match α)} (h : D.Governs run) (hs : D.start s.reader) :
    run.Ends D.halts s (fun m t => D.succeeds s.reader m.span t.reader)
      fun f t => D.failsAlong s.reader f t.reader :=
  (h.along hs (D.path_refl hs)).imp_ok fun _ _ hm => hm.2

/-- A lookahead on a part of a run leaves the reader where it began. -/
theorem ends_lookAhead (hr : D.start r) (hs : s.reader = r) {run : Run (Match α)}
    (h : D.Governs run) {good : Except Failure (Match α) → State → Prop}
    {bad : Failure → State → Prop}
    (matched : ∀ m r' store, D.succeeds r m.span r' → good (.ok m) ⟨r, store⟩)
    (failed : ∀ f store, good (.error f) ⟨r, store⟩) :
    (run.lookAhead r.position).Ends D.halts s good bad := by
  subst hs
  rw [Run.ends_lookAhead]
  apply (h s hr).mono
  · intro m t hm
    exact ends_rewind hr hm.1 (D.lost_refl (D.start_of_path hr hm.1))
      (matched m t.reader t.store hm)
  · intro f t hf
    exact ends_rewind hr (D.path_refl hr) hf.1 (failed f t.store)

/-! ## Leaves -/

theorem ends_take (hs : D.start s.reader) (n : Nat) {good : Option (Text × Span) → State → Prop}
    {bad : Failure → State → Prop}
    (taken : ∀ text span t, D.succeeds s.reader span t.reader → good (some (text, span)) t)
    (none : s.reader.take n = .ok none → good none s) :
    (Run.take n).Ends D.halts s good bad := by
  have moved := D.take n hs
  rw [Run.take, Run.ends_advance]
  split <;> rename_i heq <;> rw [heq] at moved
  · exact taken _ _ _ (succeeds_exact moved)
  · exact none heq
  · exact moved

theorem ends_takeBytes (hs : D.start s.reader) (n : Nat)
    {good : Option (Text × Span) → State → Prop} {bad : Failure → State → Prop}
    (taken : ∀ text span t, D.succeeds s.reader span t.reader → good (some (text, span)) t)
    (none : s.reader.takeBytes n = .ok none → good none s) :
    (Run.takeBytes n).Ends D.halts s good bad := by
  have moved := D.takeBytes n hs
  rw [Run.takeBytes, Run.ends_advance]
  split <;> rename_i heq <;> rw [heq] at moved
  · exact taken _ _ _ (succeeds_exact moved)
  · exact none heq
  · exact moved

theorem ends_takeSymbol (hs : D.start s.reader) (expected : String) :
    (Parser.takeSymbol expected).Ends D.halts s (fun span t => D.succeeds s.reader span t.reader)
      fun f t => D.failsBack s.reader f t.reader := by
  rw [Parser.takeSymbol, Run.ends_bind]
  refine ends_take hs 1 (fun _ _ _ h => h) ?_
  intro nothing
  exact failsBack_here hs (Reader.tells_end (Reader.peek?_eq_none_of_take nothing)) _ _

theorem shields_codePoint (label : String) (c : Char) :
    D.Shields (Parser.codePoint label c).run := by
  intro s hs
  simp only [Parser.codePoint, Run.ends_bind, Run.ends_reader]
  cases hpeek : s.reader.peek? with
  | none => exact failsBack_here hs (Reader.tells_end hpeek) _ _
  | some d =>
    by_cases hd : d = c
    · simp only [if_pos hd, Run.ends_bind, Run.ends_pure]
      exact ends_takeSymbol hs _
    · simp only [if_neg hd]
      exact failsBack_here hs (Reader.tells_char hpeek) _ _

theorem shields_oneWhere (label message expected : String) (accepts : Char → Bool) :
    D.Shields (Parser.oneWhere label message expected accepts).run := by
  intro s hs
  simp only [Parser.oneWhere, Run.ends_bind, Run.ends_reader]
  cases hpeek : s.reader.peek? with
  | none => exact failsBack_here hs (Reader.tells_end hpeek) _ _
  | some c =>
    by_cases hc : accepts c = true
    · simp only [if_pos hc, Run.ends_bind, Run.ends_pure]
      exact ends_takeSymbol hs _
    · simp only [if_neg hc]
      exact failsBack_here hs (Reader.tells_char hpeek) _ _

theorem shields_satisfy (label : String) (accepts : Char → Bool) :
    D.Shields (Parser.satisfy label accepts).run :=
  shields_oneWhere _ _ _ _

theorem shields_oneOf (label : String) (chars : Text) :
    D.Shields (Parser.oneOf label chars).run :=
  shields_oneWhere _ _ _ _

theorem shields_noneOf (label : String) (chars : Text) :
    D.Shields (Parser.noneOf label chars).run :=
  shields_oneWhere _ _ _ _

theorem shields_takeWhile (label : String) (accepts : Char → Bool) :
    D.Shields (Parser.takeWhile label accepts).run := by
  intro s hs
  simp only [Parser.takeWhile, Run.ends_bind, Run.ends_reader]
  refine ends_takeBytes hs _ (fun _ _ _ h => h) ?_
  exact fun nothing => absurd nothing (Parser.takeBytes_runLength s.reader accepts)

theorem shields_endOfInput : D.Shields Parser.endOfInput.run := by
  intro s hs
  simp only [Parser.endOfInput, Run.ends_bind, Run.ends_reader]
  by_cases atEnd : s.reader.atEnd = true
  · simp only [if_pos atEnd, Run.ends_bind, Run.ends_position, Run.ends_pure]
    exact succeeds_empty hs
  · simp only [if_neg atEnd, Run.ends_bind, Run.ends_found]
    exact failsBack_here hs .ahead _ _

/-- The text that was compared is taken, unless it ends inside a line break. -/
theorem ends_takeMatch (hs : D.start s.reader) (expected : String) (width : Nat) :
    (Parser.takeMatch expected s.reader.remaining width).Ends D.halts s
      (fun m t => D.succeeds s.reader m.span t.reader)
      fun f t => D.failsBack s.reader f t.reader := by
  rw [Parser.takeMatch, Run.ends_bind]
  refine ends_takeBytes hs _ (fun _ _ _ h => h) ?_
  intro _
  exact failsBack_here hs (Reader.tells_takeBytes _) _ _

/-- A literal may also fail as one that the input ends within. -/
theorem shields_literal (label : String) (text : Text)
    (short : ∀ r, D.start r → r.remaining.EndsWithin text →
      D.raised r (.here Parser.endOfFile (String.ofList text) endMark r)) :
    D.Shields (Parser.literal label text).run := by
  intro s hs
  simp only [Parser.literal, Run.ends_bind, Run.ends_reader]
  by_cases same : text.isPrefixOf s.reader.remaining = true
  · rw [if_pos same]
    exact ends_takeMatch hs _ _
  · rw [if_neg same]
    by_cases ends : s.reader.remaining.isPrefixOf text = true
    · rw [if_pos ends]
      have goesOn : s.reader.remaining ≠ text := by
        intro whole
        rw [whole, List.isPrefixOf_iff_prefix] at same
        exact same List.prefix_rfl
      exact ⟨rfl, short s.reader hs ⟨List.isPrefixOf_iff_prefix.mp ends, goesOn⟩⟩
    · rw [if_neg ends]
      exact failsBack_here hs (.quotes (List.take_prefix _ _)) _ _

theorem shields_literalIgnoringCase (label : String) (text : Text)
    (short : ∀ r, D.start r → r.remaining.lowercase.EndsWithin text.lowercase →
      D.raised r (.here Parser.endOfFile (String.ofList text) endMark r)) :
    D.Shields (Parser.literalIgnoringCase label text).run := by
  intro s hs
  simp only [Parser.literalIgnoringCase, Run.ends_bind, Run.ends_reader]
  split
  · exact ends_takeMatch hs _ _
  · rename_i differs
    split
    · rename_i ends
      obtain ⟨fewer, begins⟩ := ends
      -- As there are fewer characters than the literal has, the candidate is all of them.
      have all : s.reader.remaining.take text.length = s.reader.remaining := by
        rw [List.length_take] at fewer
        exact List.take_of_length_le (by omega)
      rw [all] at begins differs
      exact ⟨rfl, short s.reader hs ⟨List.isPrefixOf_iff_prefix.mp begins, differs⟩⟩
    · exact failsBack_here hs (.quotes (List.take_prefix _ _)) _ _

/-! ## Alternatives, guards and lookahead -/

theorem ends_choiceFrom (label : String) {ps : List (Parser α)}
    (hps : ∀ p ∈ ps, D.Governs p.run) (cause : Option Failure)
    (hcause : ∀ f, cause = some f → D.raised s.reader f) (hs : D.start s.reader) :
    (Parser.choiceFrom label s.reader.position cause ps).Ends D.halts s
      (fun m t => D.succeeds s.reader m.span t.reader)
      fun f t => D.failsBack s.reader f t.reader := by
  induction ps generalizing s cause with
  | nil =>
    cases cause with
    | none =>
      simp only [Parser.choiceFrom, Run.ends_bind, Run.ends_found]
      exact failsBack_here hs .ahead _ _
    | some f =>
      have hf := D.raised_enclose Parser.choiceFailed hs (D.path_refl hs) (hcause f rfl)
      simp only [Parser.choiceFrom, Run.ends_bind, Run.ends_reader, Run.ends_fail]
      exact ⟨rfl, hf⟩
  | cons p ps ih =>
    simp only [Parser.choiceFrom, Run.ends_bind, Run.ends_observe]
    apply (hps p List.mem_cons_self s hs).imp_failed
    intro f t hf
    refine ends_rewind hs (D.path_refl hs) hf.1 ?_
    have others : ∀ q ∈ ps, D.Governs q.run := fun q hq => hps q (List.mem_cons_of_mem p hq)
    apply ih (s := ⟨s.reader, t.store⟩) others (some f) _ hs
    rintro g ⟨⟩
    exact hf.2

/-- Before each alternative the reader is back where the choice began. -/
theorem shields_choice (label : String) {ps : List (Parser α)}
    (hps : ∀ p ∈ ps, D.Governs p.run) : D.Shields (Parser.choice label ps).run := by
  intro s hs
  simp only [Parser.choice, Run.ends_bind, Run.ends_position]
  exact ends_choiceFrom label hps none (fun f h => by cases h) hs

theorem shields_either {p q : Parser α} (hp : D.Governs p.run) (hq : D.Governs q.run) :
    D.Shields (Parser.either p q).run :=
  shields_choice _ (by simp [hp, hq])

theorem ends_allOfFrom (label : String) {ps : List (Parser α)}
    (hps : ∀ p ∈ ps, D.Governs p.run) (hr : D.start r) (last : Option (Match α))
    (hlast : match last with
      | none => s.reader = r
      | some m => D.succeeds r m.span s.reader) :
    (Parser.allOfFrom label r.position last ps).Ends D.halts s
      (fun m t => D.succeeds r m.span t.reader) fun f t => D.failsBack r f t.reader := by
  induction ps generalizing s last with
  | nil =>
    cases last with
    | none =>
      obtain rfl := hlast
      simp only [Parser.allOfFrom, Run.ends_bind, Run.ends_found]
      exact failsBack_here hr .ahead _ _
    | some m => exact hlast
  | cons p ps ih =>
    have moved : D.path r s.reader := by
      cases last with
      | none => obtain rfl := hlast; exact D.path_refl hr
      | some m => exact hlast.1
    simp only [Parser.allOfFrom, Run.ends_bind]
    refine ends_rewind hr moved (D.lost_refl (D.start_of_path hr moved)) (ends_enclosing hr ?_)
    have part := (hps p List.mem_cons_self).along (s := ⟨r, s.store⟩) hr (D.path_refl hr)
    apply part.imp_ok
    intro m t hm
    have others : ∀ q ∈ ps, D.Governs q.run := fun q hq => hps q (List.mem_cons_of_mem p hq)
    exact ih others (some m) hm.2

/-- Every parser begins where the whole did, behind a match too. -/
theorem shields_allOf (label : String) {ps : List (Parser α)}
    (hps : ∀ p ∈ ps, D.Governs p.run) : D.Shields (Parser.allOf label ps).run := by
  intro s hs
  simp only [Parser.allOf, Run.ends_bind, Run.ends_position]
  exact ends_allOfFrom label hps hs none rfl

theorem shields_optional {p : Parser α} (hp : D.Governs p.run) :
    D.Shields (Parser.optional p).run := by
  intro s hs
  simp only [Parser.optional, Run.ends_bind, Run.ends_position]
  refine ends_orNothing hs (fun _ => succeeds_empty hs) ?_
  exact hp.first hs

theorem shields_notAhead (label : String) {p : Parser α} (hp : D.Governs p.run) :
    D.Shields (Parser.notAhead label p).run := by
  intro s hs
  simp only [Parser.notAhead, Run.ends_bind, Run.ends_position]
  refine ends_lookAhead hs rfl hp ?_ ?_
  · intro m r' store matched
    simp only [Run.ends_bind, Run.ends_input]
    exact failsBack_refused hs matched _ _
  · intro f store
    exact succeeds_empty hs

theorem shields_attempt {p : Parser α} (hp : D.Governs p.run) :
    D.Shields (Parser.attempt p).run := by
  intro s hs
  simp only [Parser.attempt, Run.ends_bind, Run.ends_position]
  exact ends_enclosing hs (hp.first hs)

/-! ## One parser after the other -/

theorem ends_inOrderFrom (label : String) {ps : List (Parser α)}
    (hps : ∀ p ∈ ps, D.Governs p.run) (hr : D.start r) (last : Option α)
    (hlast : last = none → s.reader = r) (moved : D.path r s.reader) :
    (Parser.inOrderFrom label r.position last ps).Ends D.halts s
      (fun m t => D.succeeds r m.span t.reader) fun f t => D.failsBack r f t.reader := by
  induction ps generalizing s last with
  | nil =>
    cases last with
    | none =>
      obtain rfl := hlast rfl
      simp only [Parser.inOrderFrom, Run.ends_bind, Run.ends_found]
      exact failsBack_here hr .ahead _ _
    | some value => exact succeeds_exact moved
  | cons p ps ih =>
    simp only [Parser.inOrderFrom, Run.ends_bind]
    apply ends_enclosing hr
    apply ((hps p List.mem_cons_self).along hr moved).imp_ok
    intro m t hm
    have others : ∀ q ∈ ps, D.Governs q.run := fun q hq => hps q (List.mem_cons_of_mem p hq)
    exact ih others (some m.value) (fun h => by cases h) hm.1

/-- Wherever one of them fails, the reader goes back to the start of the first. -/
theorem shields_inOrder (label : String) {ps : List (Parser α)}
    (hps : ∀ p ∈ ps, D.Governs p.run) : D.Shields (Parser.inOrder label ps).run := by
  intro s hs
  simp only [Parser.inOrder, Run.ends_bind, Run.ends_position]
  exact ends_inOrderFrom label hps hs none (fun _ => rfl) (D.path_refl hs)

theorem shields_andThen {left : Parser α} {right : Parser β} (hl : D.Governs left.run)
    (hr : D.Governs right.run) : D.Shields (Parser.andThen left right).run := by
  intro s hs
  simp only [Parser.andThen, Run.ends_bind, Run.ends_position]
  apply ends_enclosing hs
  apply (hl.along hs (D.path_refl hs)).imp_ok
  rintro l t ⟨moved, hl⟩
  apply ends_enclosing hs
  apply (hr.along hs moved).imp_ok
  rintro r u ⟨-, hr⟩
  exact hl.then_stop hr

theorem shields_fst {pair : Parser (α × β)} (hp : D.Governs pair.run) :
    D.Shields (Parser.fst pair).run := by
  intro s hs
  simp only [Parser.fst, Run.ends_bind, Run.ends_position, Run.ends_pure]
  exact ends_enclosing hs (hp.first hs)

theorem shields_snd {pair : Parser (α × β)} (hp : D.Governs pair.run) :
    D.Shields (Parser.snd pair).run := by
  intro s hs
  simp only [Parser.snd, Run.ends_bind, Run.ends_position, Run.ends_pure]
  exact ends_enclosing hs (hp.first hs)

theorem shields_between {opening : Parser α} {content : Parser β} {closing : Parser γ}
    (ho : D.Governs opening.run) (hc : D.Governs content.run) (hcl : D.Governs closing.run) :
    D.Shields (Parser.between opening content closing).run := by
  intro s hs
  simp only [Parser.between, Run.ends_bind, Run.ends_position]
  have inner := shields_snd (shields_andThen ho hc).governs
  have whole := shields_fst (shields_andThen inner.governs hcl).governs
  exact ends_enclosing hs (whole.governs.first hs)

/-! ## Repetition -/

/-- What is left of a failed item is undone, so the rounds never fail. -/
theorem ends_items {item : Parser α} (hi : D.Governs item.run) (hr : D.start r)
    (moved : D.path r s.reader) (rounds : Nat) :
    (Parser.items item rounds).Ends D.halts s (fun _ t => D.path r t.reader) fun _ _ => False := by
  induction rounds generalizing s with
  | zero => exact Run.ends_exhaust.mpr D.halts_exhausted
  | succ rounds ih =>
    have here := D.start_of_path hr moved
    simp only [Parser.items, Run.ends_bind, Run.ends_position]
    apply ends_orNothing here (fun _ => moved)
    apply (hi.first here).imp_ok
    intro m t hm
    have moved' := D.path_trans moved hm.1
    by_cases empty : m.span.isEmpty = true
    · simp only [if_pos empty]
      exact moved'
    · simp only [if_neg empty, Run.ends_bind, Run.ends_pure]
      exact ih moved'

theorem shields_many {item : Parser α} (hi : D.Governs item.run) :
    D.Shields (Parser.many item).run := by
  intro s hs
  simp only [Parser.many, Run.ends_bind, Run.ends_position, Run.ends_rounds, Run.ends_pure]
  apply (ends_items hi hs (D.path_refl hs) _).of_never_fails
  exact fun _ t moved => succeeds_exact moved

theorem ends_itemsAfter {item : Parser α} (hi : D.Governs item.run) (first : Match α)
    (hr : D.start r) (moved : D.path r s.reader) :
    (Parser.itemsAfter first item).Ends D.halts s (fun _ t => D.path r t.reader)
      fun _ _ => False := by
  rw [Parser.itemsAfter]
  split
  · exact moved
  · rw [Run.ends_bind, Run.ends_rounds]
    exact ends_items hi hr moved _

theorem shields_many1 {item : Parser α} (hi : D.Governs item.run) :
    D.Shields (Parser.many1 item).run := by
  intro s hs
  simp only [Parser.many1, Run.ends_bind, Run.ends_position, Run.ends_observe, Run.ends_reader,
    Run.ends_fail, Run.ends_pure]
  apply (hi s hs).mono
  · intro first t hm
    apply (ends_itemsAfter hi first hs hm.1).of_never_fails
    exact fun _ u moved => succeeds_exact moved
  · intro cause t hf
    refine ends_rewind hs (D.path_refl hs) hf.1 ⟨rfl, ?_⟩
    exact D.raised_restated _ _ _ hs (D.path_refl hs) hf.2

/-- A delimiter that no item follows is a failure of the whole. -/
theorem ends_delimitedItems {item : Parser α} {delimiter : Parser β}
    (hi : D.Governs item.run) (hd : D.Governs delimiter.run) (hr : D.start r)
    (moved : D.path r s.reader) (rounds : Nat) :
    (Parser.delimitedItems item delimiter r.position rounds).Ends D.halts s
      (fun _ t => D.path r t.reader) fun f t => D.failsBack r f t.reader := by
  induction rounds generalizing s with
  | zero => exact Run.ends_exhaust.mpr D.halts_exhausted
  | succ rounds ih =>
    have here := D.start_of_path hr moved
    simp only [Parser.delimitedItems, Run.ends_bind, Run.ends_position]
    apply ends_orNothing here (fun _ => moved)
    apply (hd.first here).imp_ok
    intro d t hd'
    simp only [Run.ends_bind, Run.ends_position]
    apply ends_enclosing hr
    apply (hi.along hr (D.path_trans moved hd'.1)).imp_ok
    rintro m u ⟨moved', -⟩
    by_cases progressed : s.reader.position.offset < u.reader.position.offset
    · simp only [if_pos progressed, Run.ends_bind, Run.ends_pure]
      exact ih moved'
    · simp only [if_neg progressed, Run.ends_pure]
      exact moved'

theorem shields_sepBy {item : Parser α} {delimiter : Parser β} (hi : D.Governs item.run)
    (hd : D.Governs delimiter.run) : D.Shields (Parser.sepBy item delimiter).run := by
  intro s hs
  simp only [Parser.sepBy, Run.ends_bind, Run.ends_position, Run.ends_rounds, Run.ends_pure]
  apply ends_enclosing hs
  apply (hi.first hs).imp_ok
  intro first t hm
  apply (ends_delimitedItems hi hd hs hm.1 _).imp_ok
  exact fun _ u moved => succeeds_exact moved

/-- An item that takes nothing is a failure of its own, at the end of the item. -/
theorem ends_progressing {item : Parser α} (hi : D.Governs item.run) (ending : Parser β)
    (hr : D.start r) (moved : D.path r s.reader) :
    (Parser.progressing item ending).Ends D.halts s (fun _ t => D.path r t.reader)
      fun f t => D.failsAlong r f t.reader := by
  rw [Parser.progressing, Run.ends_bind]
  apply (hi.along hr moved).imp_ok
  rintro m t ⟨moved', -⟩
  split
  · simp only [Run.ends_bind, Run.ends_found, Run.ends_failHere]
    have here := D.start_of_path hr moved'
    exact ⟨t.reader, moved', (failsBack_here here .ahead _ _).fails here⟩
  · exact moved'

/-- The ending is looked at and taken back before each item. -/
theorem ends_itemsTill {item : Parser α} {ending : Parser β} (hi : D.Governs item.run)
    (he : D.Governs ending.run) (hr : D.start r) (moved : D.path r s.reader) (rounds : Nat) :
    (Parser.itemsTill item ending r.position rounds).Ends D.halts s
      (fun _ t => D.path r t.reader) fun f t => D.failsBack r f t.reader := by
  induction rounds generalizing s with
  | zero => exact Run.ends_exhaust.mpr D.halts_exhausted
  | succ rounds ih =>
    simp only [Parser.itemsTill, Run.ends_bind, Run.ends_position]
    refine ends_lookAhead (D.start_of_path hr moved) rfl he (fun _ _ _ _ => moved) ?_
    intro f store
    simp only [Run.ends_bind, Run.ends_pure]
    refine ends_enclosing hr ?_
    have part := ends_progressing (s := ⟨s.reader, store⟩) hi ending hr moved
    exact part.imp_ok fun _ _ h => ih h

theorem shields_manyTill {item : Parser α} {ending : Parser β} (hi : D.Governs item.run)
    (he : D.Governs ending.run) : D.Shields (Parser.manyTill item ending).run := by
  intro s hs
  simp only [Parser.manyTill, Run.ends_bind, Run.ends_position, Run.ends_rounds, Run.ends_pure]
  apply (ends_itemsTill hi he hs (D.path_refl hs) _).imp_ok
  exact fun _ t moved => succeeds_exact moved

/-! ## Operands and operators -/

/-- An operator that no operand follows is a failure of the whole chain. -/
theorem ends_operations (name : String) {operand : Parser α} {operator : Parser β}
    (hx : D.Governs operand.run) (ho : D.Governs operator.run) (hr : D.start r)
    (moved : D.path r s.reader) (rounds : Nat) :
    (Parser.operations name operand operator r.position rounds).Ends D.halts s
      (fun _ t => D.path r t.reader) fun f t => D.failsBack r f t.reader := by
  induction rounds generalizing s with
  | zero => exact Run.ends_exhaust.mpr D.halts_exhausted
  | succ rounds ih =>
    have here := D.start_of_path hr moved
    simp only [Parser.operations, Run.ends_bind, Run.ends_position]
    apply ends_orNothing here (fun _ => moved)
    apply (ho.first here).imp_ok
    intro op t hop
    simp only [Run.ends_bind, Run.ends_pure]
    apply ends_enclosing hr
    apply (hx.along hr (D.path_trans moved hop.1)).imp_ok
    exact fun right u hm => ih hm.1

theorem ends_operands (name : String) {operand : Parser α} {operator : Parser β}
    (hx : D.Governs operand.run) (ho : D.Governs operator.run) (hs : D.start s.reader) :
    (Parser.operands name operand operator).Ends D.halts s (fun _ t => D.path s.reader t.reader)
      fun f t => D.failsBack s.reader f t.reader := by
  simp only [Parser.operands, Parser.operandsWithin, Run.ends_bind, Run.ends_position,
    Run.ends_rounds, Run.ends_pure]
  apply ends_enclosing hs
  apply (hx.first hs).imp_ok
  exact fun first t hm => ends_operations name hx ho hs hm.1 _

theorem shields_chainLeft {operand : Parser α} {operator : Parser (α → α → α)}
    (hx : D.Governs operand.run) (ho : D.Governs operator.run) :
    D.Shields (Parser.chainLeft operand operator).run := by
  intro s hs
  simp only [Parser.chainLeft, Run.ends_bind, Run.ends_position, Run.ends_pure]
  apply (ends_operands _ hx ho hs).imp_ok
  exact fun _ t moved => succeeds_exact moved

theorem shields_chainRight {operand : Parser α} {operator : Parser (α → α → α)}
    (hx : D.Governs operand.run) (ho : D.Governs operator.run) :
    D.Shields (Parser.chainRight operand operator).run := by
  intro s hs
  simp only [Parser.chainRight, Run.ends_bind, Run.ends_position, Run.ends_pure]
  apply (ends_operands _ hx ho hs).imp_ok
  exact fun _ t moved => succeeds_exact moved

/-! ## Changing what a parser gives -/

theorem governs_recast (f : α → β) {p : Parser α} (hp : D.Governs p.run) :
    D.Governs (p.recast f).run := by
  intro s hs
  rw [Parser.recast, Run.ends_map]
  exact hp s hs

theorem shields_map (f : α → β) {p : Parser α} (hp : D.Governs p.run) :
    D.Shields (Parser.map f p).run := by
  intro s hs
  simp only [Parser.map, Run.ends_bind, Run.ends_position, Run.ends_pure]
  exact ends_enclosing hs (hp.first hs)

/-- A filter goes back from what it refuses, but passes on how its parser fails. -/
theorem governs_filter (label : String) (accepts : α → Bool) {p : Parser α}
    (hp : D.Governs p.run) : D.Governs (Parser.filter label accepts p).run := by
  intro s hs
  simp only [Parser.filter, Run.ends_bind, Run.ends_position]
  apply (hp s hs).imp_ok
  intro m t hm
  by_cases accepted : accepts m.value = true
  · simp only [if_pos accepted]
    exact hm
  · simp only [if_neg accepted, Run.ends_bind, Run.ends_input, Run.ends_failHere]
    refine ends_rewind hs hm.1 (D.lost_refl (D.start_of_path hs hm.1)) ?_
    exact (failsBack_refused hs hm _ _).fails hs

theorem governs_withSpan {p : Parser α} (hp : D.Governs p.run) :
    D.Governs (Parser.withSpan p).run := by
  intro s hs
  rw [Parser.withSpan, Run.ends_bind]
  exact hp s hs

/-- The text that is taken ends with a symbol, so taking it does not fail. -/
theorem ends_takeWhile (hs : D.start s.reader) (label : String) (accepts : Char → Bool) :
    (Parser.takeWhile label accepts).run.Ends D.halts s
      (fun m t => D.succeeds s.reader m.span t.reader) fun _ _ => False := by
  have taken := shields_takeWhile (D := D) label accepts s hs
  have never := Parser.takeWhile_never_fails label accepts s
  rw [Run.Ends] at taken ⊢
  cases hrun : (Parser.takeWhile label accepts).run s with
  | ok m t => rwa [hrun] at taken
  | failed f t => exact never f t hrun
  | halted cause t => rwa [hrun] at taken

/-- Blanks never fail, so how a lexeme fails is how its parser does. -/
theorem governs_lexeme {p : Parser α} (hp : D.Governs p.run) : D.Governs (Parser.lexeme p).run := by
  intro s hs
  simp only [Parser.lexeme, Run.ends_bind, Run.ends_pure]
  apply (hp s hs).imp_ok
  intro m t hm
  apply (ends_takeWhile (D.start_of_path hs hm.1) _ _).of_never_fails
  exact fun trailing u ht => hm.extend ht

theorem governs_traced (node : NodeId) (name : String) {p : Parser α} (hp : D.Governs p.run) :
    D.Governs (Parser.traced node name p).run := by
  intro s hs
  simp only [Parser.traced, Run.ends_bind, Run.ends_position, Run.ends_emit, Run.ends_observe,
    Run.ends_input, Run.ends_pure, Run.ends_fail]
  exact hp ⟨s.reader, _⟩ hs

/-! ## Parsers built on first use -/

theorem governs_deferred (kind : RuleKind) (rule : NodeId) (label : String)
    {body : Run (Match α)} (hb : D.Governs body) :
    D.Governs (Parser.deferred kind rule label body).run := by
  intro s hs
  simp only [Parser.deferred, Parser.build, Run.ends_bind, Run.ends_store]
  split
  · exact hb s hs
  · simp only [Run.ends_bind, Run.ends_emit, Run.ends_modifyStore]
    exact hb ⟨s.reader, _⟩ hs

theorem shields_unavailable (label : String) :
    D.Shields (Parser.unavailable label : Run (Match α)) := by
  intro s hs
  simp only [Parser.unavailable, Run.ends_bind, Run.ends_found]
  exact failsBack_here hs .ahead _ _

theorem governs_reference (rule : NodeId) (label : String) {enter : Run (Match α)}
    (he : D.Governs enter) : D.Governs (Parser.reference rule label enter).run := by
  intro s hs
  simp only [Parser.reference, Run.ends_bind, Run.ends_store]
  split
  · exact he s hs
  · exact (shields_unavailable label).governs s hs

end Discipline

end RecursiveDescent
