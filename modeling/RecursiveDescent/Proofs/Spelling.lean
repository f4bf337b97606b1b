import RecursiveDescent.Proofs.InSequence
import RecursiveDescent.Proofs.Lines
import RecursiveDescent.Proofs.Literals
import RecursiveDescent.Proofs.LongestRun
import RecursiveDescent.Proofs.Tokens

/-!
# Spelling out

A literal compares a text as a whole and takes so many bytes; a sequence of parsers of one character
each looks at one symbol and takes it before it looks at the next. Without line breaks in the text
the two take the same, whatever comes behind it.
-/
namespace RecursiveDescent

open Text

variable {r r' : Reader} {s : State} {c : Char} {text rest : Text}

namespace Reader

/-- A character that is ahead and no return is read and passed as one symbol. -/
theorem exists_readsOne (hb : r.OnBoundary) (ahead : r.remaining = c :: rest) (noBreak : c ≠ '\r') :
    ∃ r', r.ReadsOne c r' ∧ r.Passes [c] r' := by
  have whole : ¬ SplitsBreak [c] rest := fun split => noBreak (by simpa using split.1)
  exact ⟨_, ⟨peek?_cons ahead noBreak, step?_single ahead whole⟩, passes_past hb ahead whole⟩

/-- Only a line break of two is read as a character that is not ahead. -/
theorem exists_ahead_of_peek? (noBreak : ¬ isLineBreak c = true) (peek : r.peek? = some c) :
    ∃ rest, r.remaining = c :: rest := by
  rcases prefix_of_peek? peek with ⟨rest, ahead⟩ | ⟨rfl, -⟩
  · exact ⟨rest, ahead.symm⟩
  · exact absurd rfl noBreak

end Reader

namespace Parser

open Setting

/-- One parser for each of the characters, under the label that goes with it. -/
def spelled (letters : List (String × Char)) : List (Parser Char) :=
  letters.map fun letter => codePoint letter.1 letter.2

variable {letters : List (String × Char)}

/-- A code point that is read is taken whole. -/
theorem codePoint_ok (label : String) (h : s.reader.ReadsOne c r') :
    (codePoint label c).run s = .ok ⟨c, ⟨s.reader.position, r'.position⟩⟩ ⟨r', s.store⟩ := by
  have settles : (still s.store).Settles (takeSymbol (String.singleton c)) s.reader _ :=
    settles_takeSymbol h.2 _
  obtain ⟨store, taken, rfl⟩ := settles.exists_ok rfl
  simp only [codePoint, Run.bind_apply, Run.reader, h.1, if_true]
  exact Run.bind_of_ok taken _

theorem codePoint_failed (label : String) (other : s.reader.peek? ≠ some c) :
    ∃ f, (codePoint label c).run s = .failed f s := by
  simp only [codePoint, Run.bind_apply, Run.reader]
  cases peek : s.reader.peek? with
  | none => exact ⟨_, rfl⟩
  | some d =>
    have differs : d ≠ c := by
      rintro rfl
      exact other peek
    simp only [if_neg differs]
    exact ⟨_, rfl⟩

theorem codePoint_abides (label : String) (c : Char) (store : Store) :
    (codePoint label c).Abides (still store) where
  of_ok {s t m} hs ran := by
    by_cases peek : s.reader.peek? = some c
    · obtain ⟨r', step⟩ := Conditions.exists_step peek
      cases (codePoint_ok label ⟨peek, step⟩).symm.trans ran
      have walk := Reader.reaches_of_step? step
      exact ⟨⟨walk.onBoundary hs.reader, hs.store⟩, walk.input, rfl⟩
    · obtain ⟨f, failed⟩ := codePoint_failed label peek
      cases failed.symm.trans ran
  of_failed {s t f} hs ran := by
    by_cases peek : s.reader.peek? = some c
    · obtain ⟨r', step⟩ := Conditions.exists_step peek
      cases (codePoint_ok label ⟨peek, step⟩).symm.trans ran
    · obtain ⟨g, failed⟩ := codePoint_failed label peek
      cases failed.symm.trans ran
      rfl

theorem spelled_abide (letters : List (String × Char)) (store : Store) :
    ∀ p ∈ spelled letters, p.Abides (still store) := by
  intro p hp
  obtain ⟨letter, -, rfl⟩ := List.mem_map.mp hp
  exact codePoint_abides letter.1 letter.2 store

/-- Characters that are ahead are passed, one after the other. -/
theorem inTurn_spelled (hb : s.reader.OnBoundary)
    (unbroken : Text.Unbroken (letters.map Prod.snd))
    (begins : letters.map Prod.snd <+: s.reader.remaining) :
    ∃ t, s.reader.Passes (letters.map Prod.snd) t.reader ∧ t.store = s.store ∧
      inTurn (spelled letters) s = .ok (letters.map Prod.snd) t := by
  induction letters generalizing s with
  | nil => exact ⟨s, .refl _, rfl, rfl⟩
  | cons letter letters ih =>
    obtain ⟨noBreak, unbroken⟩ := List.forall_mem_cons.mp unbroken
    obtain ⟨rest, ahead⟩ := begins
    have noReturn : letter.2 ≠ '\r' := fun same => noBreak (same ▸ rfl)
    obtain ⟨r', one, passes⟩ := Reader.exists_readsOne hb ahead.symm noReturn
    have behind : r'.remaining = letters.map Prod.snd ++ rest := passes.remaining_eq ahead.symm
    obtain ⟨t, passes', store, later⟩ := ih (s := ⟨r', s.store⟩) (passes.onBoundary hb) unbroken
      ⟨rest, behind.symm⟩
    refine ⟨t, passes.trans passes', store, ?_⟩
    change (do
      let m ← (codePoint letter.1 letter.2).run
      return m.value :: (← inTurn (spelled letters))) s = _
    rw [Run.bind_of_ok (codePoint_ok letter.1 one), Run.bind_of_ok later]
    rfl

/-- Up to one that is not ahead: it fails, and the parsers behind it are not run. -/
theorem inTurn_spelled_failed (hb : s.reader.OnBoundary)
    (unbroken : Text.Unbroken (letters.map Prod.snd))
    (other : ¬ letters.map Prod.snd <+: s.reader.remaining) :
    ∃ f t, inTurn (spelled letters) s = .failed f t ∧ t.store = s.store := by
  induction letters generalizing s with
  | nil => exact absurd List.nil_prefix other
  | cons letter letters ih =>
    obtain ⟨noBreak, unbroken⟩ := List.forall_mem_cons.mp unbroken
    change ∃ f t, (do
      let m ← (codePoint letter.1 letter.2).run
      return m.value :: (← inTurn (spelled letters))) s = .failed f t ∧ _
    by_cases peek : s.reader.peek? = some letter.2
    · obtain ⟨rest, ahead⟩ := Reader.exists_ahead_of_peek? noBreak peek
      have noReturn : letter.2 ≠ '\r' := fun same => noBreak (same ▸ rfl)
      obtain ⟨r', one, passes⟩ := Reader.exists_readsOne hb ahead noReturn
      have behind : r'.remaining = rest := passes.remaining_eq ahead
      have other' : ¬ letters.map Prod.snd <+: r'.remaining := by
        intro begins
        refine other ?_
        rw [ahead, ← behind]
        exact List.cons_prefix_cons.mpr ⟨rfl, begins⟩
      obtain ⟨f, t, failed, store⟩ := ih (s := ⟨r', s.store⟩) (passes.onBoundary hb) unbroken other'
      refine ⟨f, t, ?_, store⟩
      rw [Run.bind_of_ok (codePoint_ok letter.1 one), Run.bind_of_failed failed]
    · obtain ⟨f, failed⟩ := codePoint_failed letter.1 peek
      exact ⟨f, s, Run.bind_of_failed failed _, rfl⟩

theorem spelled_ne_nil (ne : letters ≠ []) : spelled letters ≠ [] :=
  fun none => ne (List.map_eq_nil_iff.mp none)

/-- The code points of a literal are read one after the other, where they begin what is ahead. -/
theorem spelled_matches (ne : letters ≠ []) (hb : s.reader.OnBoundary)
    (unbroken : Text.Unbroken (letters.map Prod.snd))
    (begins : letters.map Prod.snd <+: s.reader.remaining) (label : String) :
    ∃ c span t, (letters.map Prod.snd).getLast? = some c ∧
      Run.Takes s (letters.map Prod.snd) span t ∧
      (inOrder label (spelled letters)).run s = .ok ⟨c, span⟩ t := by
  obtain ⟨t, passes, store, ran⟩ := inTurn_spelled hb unbroken begins
  have agrees := doesInTurn_inOrder (spelled_abide letters s.store) (spelled_ne_nil ne) label s
    ⟨hb, rfl⟩
  rw [ran] at agrees
  generalize (inOrder label (spelled letters)).run s = o at agrees ⊢
  cases agrees with
  | ok last => exact ⟨_, _, t, last, ⟨passes, rfl, store⟩, rfl⟩

/-- Where they do not, one of them fails and the reader goes back. -/
theorem spelled_fails (ne : letters ≠ []) (hb : s.reader.OnBoundary)
    (unbroken : Text.Unbroken (letters.map Prod.snd))
    (other : ¬ letters.map Prod.snd <+: s.reader.remaining) (label : String) :
    ∃ g, (inOrder label (spelled letters)).run s = .failed g s := by
  obtain ⟨f, t, failed, store⟩ := inTurn_spelled_failed hb unbroken other
  have agrees := doesInTurn_inOrder (spelled_abide letters s.store) (spelled_ne_nil ne) label s
    ⟨hb, rfl⟩
  rw [failed] at agrees
  generalize (inOrder label (spelled letters)).run s = o at agrees ⊢
  cases agrees with
  | failed root => exact ⟨_, by rw [store]⟩

/-- A text without line breaks matches as a whole just where its characters do one after the other.
Either way the same is taken: the spans are the same and so is the state behind them, and the value
is the text, or the last of its characters. Where neither matches, both fail and leave everything as
it was. -/
theorem literal_spelled_out (label label' : String) (ne : letters ≠ [])
    (unbroken : Text.Unbroken (letters.map Prod.snd)) (hb : s.reader.OnBoundary) :
    let whole := (literal label (letters.map Prod.snd)).run s
    let oneByOne := (inOrder label' (spelled letters)).run s
    ((∃ m t, whole = .ok m t) ↔ ∃ m t, oneByOne = .ok m t) ∧
      (∀ m t m' t', whole = .ok m t → oneByOne = .ok m' t' →
        m'.span = m.span ∧ t' = t ∧ m.value.getLast? = some m'.value) ∧
      ((¬ ∃ m t, whole = .ok m t) → ∃ f g, whole = .failed f s ∧ oneByOne = .failed g s) := by
  intro whole oneByOne
  rcases literal_cases hb label (letters.map Prod.snd) with
    ⟨leads, span, t, takes, matched⟩ | ⟨none, f, failed⟩
  · obtain ⟨rest, ahead, -⟩ := leads
    obtain ⟨c, span', t', last, takes', matched'⟩ :=
      spelled_matches ne hb unbroken ⟨rest, ahead.symm⟩ label'
    have reader : t'.reader = t.reader := takes'.passes.stands.trans takes.passes.stands.symm
    have store : t'.store = t.store := takes'.store.trans takes.store.symm
    have state : t' = t := congrArg₂ State.mk reader store
    refine ⟨⟨fun _ => ⟨_, _, matched'⟩, fun _ => ⟨_, _, matched⟩⟩, fun m u m' u' same same' => ?_,
      fun never => absurd ⟨_, _, matched⟩ never⟩
    cases matched.symm.trans same
    cases matched'.symm.trans same'
    refine ⟨?_, state, last⟩
    rw [takes'.span, takes.span, reader]
  · have other : ¬ letters.map Prod.snd <+: s.reader.remaining := fun ⟨rest, ahead⟩ =>
      none ⟨rest, ahead.symm, unbroken.not_splitsBreak rest⟩
    obtain ⟨g, failed'⟩ := spelled_fails ne hb unbroken other label'
    refine ⟨⟨?_, ?_⟩, ?_, fun _ => ⟨f, g, failed, failed'⟩⟩
    · rintro ⟨m, t, same⟩
      cases failed.symm.trans same
    · rintro ⟨m, t, same⟩
      cases failed'.symm.trans same
    · intro m t m' t' same
      cases failed.symm.trans same

/-- Two letters in front of a line break, which are there once and not twice. -/
theorem literal_spelled_out_at_break :
    let s : State := ⟨Reader.startAt ['x', 'é', 'a', '\r', '\n'] ⟨1, 1, 2⟩, .empty⟩
    let once := [("first", 'é'), ("second", 'a')]
    let twice := once ++ once
    s.reader.OnBoundary ∧
      (∃ m t m' t', (literal "once" ['é', 'a']).run s = .ok m t ∧
        (inOrder "once" (spelled once)).run s = .ok m' t' ∧ m'.span = m.span ∧ t' = t ∧
          m.value.getLast? = some m'.value) ∧
      ∃ f g, (literal "twice" ['é', 'a', 'é', 'a']).run s = .failed f s ∧
        (inOrder "twice" (spelled twice)).run s = .failed g s := by
  intro s once twice
  have boundary : s.reader.OnBoundary := by decide
  have unbroken : Text.Unbroken (once.map Prod.snd) := by
    simp [once, Text.Unbroken, isLineBreak]
  have unbroken' : Text.Unbroken (twice.map Prod.snd) := by
    rw [List.map_append]
    exact unbroken.append unbroken
  obtain ⟨also, same, -⟩ := literal_spelled_out "once" "once" (by decide) unbroken boundary
  obtain ⟨-, -, fail⟩ := literal_spelled_out "twice" "twice" (by decide) unbroken' boundary
  obtain ⟨m, t, whole⟩ : ∃ m t, (literal "once" ['é', 'a']).run s = .ok m t := ⟨_, _, rfl⟩
  obtain ⟨m', t', oneByOne⟩ := also.mp ⟨m, t, whole⟩
  have never : ¬ ∃ m t, (literal "twice" ['é', 'a', 'é', 'a']).run s = .ok m t := by
    rintro ⟨m, t, ⟨⟩⟩
  exact ⟨boundary, ⟨m, t, m', t', whole, oneByOne, same m t m' t' whole oneByOne⟩, fail never⟩

end Parser

end RecursiveDescent
