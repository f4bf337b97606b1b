import RecursiveDescent.Proofs.Literals

/-!
# Literals in any case

Lower case is one character for each, except for the dotted capital I, which becomes two. A literal
compared in lower case may thus match a text with more of these capitals and so fewer characters
than it has itself. It cuts its candidate by its own number of characters, so this happens only
where the text ends before there are so many.
-/
namespace RecursiveDescent

open Text

namespace Text

theorem length_lowercaseChar (before : Text) (c : Char) (rest : Text) :
    (lowercaseChar before c rest).length = if c = '\u0130' then 2 else 1 := by
  rw [lowercaseChar]
  by_cases dotted : c = '\u0130'
  · simp [dotted]
  · rw [if_neg dotted, if_neg dotted]
    split
    · split <;> rfl
    · rfl

/-- Only U+0130 has a lowercase form of two characters. -/
theorem length_lowercaseAfter (before t : Text) :
    (lowercaseAfter before t).length = t.length + t.count '\u0130' := by
  induction t generalizing before with
  | nil => rfl
  | cons c rest ih =>
    rw [lowercaseAfter, List.length_append, length_lowercaseChar, ih, List.length_cons,
      List.count_cons]
    by_cases dotted : c = '\u0130'
    · simp only [dotted, if_true, beq_self_eq_true]
      omega
    · simp only [dotted, if_false, beq_iff_eq]
      omega

/-- Each dotted capital I adds a character. -/
theorem length_lowercase (t : Text) : t.lowercase.length = t.length + t.count '\u0130' :=
  length_lowercaseAfter [] t

/-- The second of them is U+0307. -/
theorem mem_lowercaseAfter {t : Text} (dotted : '\u0130' ∈ t) (before : Text) :
    '\u0307' ∈ lowercaseAfter before t := by
  induction t generalizing before with
  | nil => cases dotted
  | cons c rest ih =>
    rw [lowercaseAfter, List.mem_append]
    rcases List.mem_cons.mp dotted with rfl | later
    · left
      simp [lowercaseChar]
    · exact .inr (ih later _)

/-- Without a combining dot in lower case there is no dotted capital I. -/
theorem count_eq_zero_of_lowercase {t : Text} (undotted : '\u0307' ∉ t.lowercase) :
    t.count '\u0130' = 0 :=
  List.count_eq_zero.mpr fun dotted => undotted (mem_lowercaseAfter dotted [])

end Text

namespace Parser

variable {s t : State} {text : Text} {m : Match Text}

theorem run_literalIgnoringCase (label : String) (text : Text) (s : State) :
    (literalIgnoringCase label text).run s =
      let ahead := s.reader.remaining
      let expected := String.ofList text
      let candidate : Text := ahead.take text.length
      if candidate.lowercase = text.lowercase then takeMatch expected ahead candidate.byteLength s
      else if candidate.length < text.length ∧ candidate.lowercase.isPrefixOf text.lowercase then
        .failed (.here endOfFile expected endMark s.reader) s
      else .failed (.here "Strings do not match (case-insensitive)." expected
        (String.ofList candidate) s.reader) s := by
  rw [literalIgnoringCase]
  dsimp only
  rw [Run.bind_apply]
  dsimp only [Run.reader]
  split
  · rfl
  · split <;> rfl

/-- Of a text ahead as much is taken as was to be, if that is whole symbols. -/
theorem takeMatch_ok_iff (hb : s.reader.OnBoundary) (leads : text <+: s.reader.remaining)
    (expected : String) :
    takeMatch expected s.reader.remaining text.byteLength s = .ok m t ↔
      m.value = text ∧ Run.Takes s text m.span t := by
  constructor
  · intro taken
    obtain ⟨rest, ahead⟩ := leads
    by_cases split : SplitsBreak text rest
    · cases (takeMatch_splits ahead.symm split expected).symm.trans taken
    · obtain ⟨span, u, takes⟩ := Run.exists_takes hb ⟨rest, ahead.symm, split⟩
      cases (takeMatch_takes takes hb expected).symm.trans taken
      exact ⟨rfl, takes⟩
  · rintro ⟨rfl, takes⟩
    exact takeMatch_takes takes hb expected

/-- A match is of as many characters as the literal has, or of all there are, if they are the same
in lower case. -/
theorem literalIgnoringCase_ok_iff (hb : s.reader.OnBoundary) (label : String) (text : Text) :
    (literalIgnoringCase label text).run s = .ok m t ↔
      m.value = s.reader.remaining.take text.length ∧ m.value.lowercase = text.lowercase ∧
        Run.Takes s m.value m.span t := by
  rw [run_literalIgnoringCase]
  dsimp only
  split
  · rename_i same
    rw [takeMatch_ok_iff hb (List.take_prefix _ _)]
    constructor
    · rintro ⟨value, takes⟩
      exact ⟨value, value ▸ same, value ▸ takes⟩
    · rintro ⟨value, -, takes⟩
      exact ⟨value, value ▸ takes⟩
  · rename_i other
    have never : ¬ (m.value = s.reader.remaining.take text.length ∧
        m.value.lowercase = text.lowercase ∧ Run.Takes s m.value m.span t) := by
      rintro ⟨value, same, -⟩
      exact other (value ▸ same)
    split <;> exact iff_of_false nofun never

/-- A literal in any case takes text that is the same in lower case, and as many characters of it as
it has itself, unless there are no more: then it may be fewer, by as many as there are more dotted
capital I's. If no combining dot is in its own lower case, it never is. -/
theorem literalIgnoringCase_counts (label : String) (text : Text) (hb : s.reader.OnBoundary) :
    ∀ m t, (literalIgnoringCase label text).run s = .ok m t →
      Run.Takes s m.value m.span t ∧ m.value.lowercase = text.lowercase ∧
        m.value.length + m.value.count '\u0130' = text.length + text.count '\u0130' ∧
        (m.value.length = text.length ∨
          m.value.length < text.length ∧ m.value = s.reader.remaining) ∧
        ('\u0307' ∉ text.lowercase → m.value.length = text.length) := by
  intro m t matched
  obtain ⟨value, same, takes⟩ := (literalIgnoringCase_ok_iff hb label text).mp matched
  have counts : m.value.length + m.value.count '\u0130' = text.length + text.count '\u0130' := by
    rw [← length_lowercase, ← length_lowercase, same]
  refine ⟨takes, same, counts, ?_, fun undotted => ?_⟩
  · -- The lower case does not bound the number of characters; how the candidate is cut does.
    by_cases enough : text.length ≤ s.reader.remaining.length
    · left
      rw [value, List.length_take_of_le enough]
    · right
      have all : m.value = s.reader.remaining := by
        rw [value]
        exact List.take_of_length_le (by omega)
      rw [all]
      exact ⟨by omega, rfl⟩
  · have none := count_eq_zero_of_lowercase undotted
    rw [← same] at undotted
    have none' := count_eq_zero_of_lowercase undotted
    omega

/-- Greek capitals and small letters, with the sigma that stands at the end. -/
theorem literalIgnoringCase_counts_greek :
    let s : State := ⟨Reader.startAt ['x', 'Ο', 'Σ', ' '] ⟨1, 1, 2⟩, .empty⟩
    let text : Text := ['ο', 'ς']
    s.reader.OnBoundary ∧ ∃ m t, (literalIgnoringCase "word" text).run s = .ok m t ∧
      m.value = ['Ο', 'Σ'] ∧ m.value.length = text.length := by
  intro s text
  have boundary : s.reader.OnBoundary := by decide
  have undotted : '\u0307' ∉ text.lowercase := by decide +kernel
  have same : lowercase ['Ο', 'Σ'] = text.lowercase := by decide +kernel
  have leads : LeadsWhole ['Ο', 'Σ'] s.reader.remaining := ⟨[' '], rfl, by decide⟩
  obtain ⟨span, t, takes⟩ := Run.exists_takes boundary leads
  have matched : (literalIgnoringCase "word" text).run s = .ok ⟨['Ο', 'Σ'], span⟩ t :=
    (literalIgnoringCase_ok_iff boundary "word" text).mpr ⟨rfl, same, takes⟩
  obtain ⟨-, -, -, -, exactly⟩ := literalIgnoringCase_counts "word" text boundary _ t matched
  exact ⟨boundary, _, t, matched, rfl, exactly undotted⟩

/-- Two characters are taken for three, where there are no more. -/
theorem literalIgnoringCase_takes_fewer :
    let s : State := ⟨Reader.start ['\u0130', 'x'], .empty⟩
    let text : Text := ['i', '\u0307', 'x']
    s.reader.OnBoundary ∧ ∃ m t, (literalIgnoringCase "word" text).run s = .ok m t ∧
      m.value = ['\u0130', 'x'] ∧ m.value.length ≠ text.length := by
  intro s text
  have boundary : s.reader.OnBoundary := by decide
  have same : lowercase ['\u0130', 'x'] = text.lowercase := by decide +kernel
  have leads : LeadsWhole ['\u0130', 'x'] s.reader.remaining := .refl _
  obtain ⟨span, t, takes⟩ := Run.exists_takes boundary leads
  have matched : (literalIgnoringCase "word" text).run s = .ok ⟨['\u0130', 'x'], span⟩ t :=
    (literalIgnoringCase_ok_iff boundary "word" text).mpr ⟨rfl, same, takes⟩
  have fewer : List.length ['\u0130', 'x'] ≠ text.length := by decide
  exact ⟨boundary, _, t, matched, rfl, fewer⟩

end Parser

end RecursiveDescent
