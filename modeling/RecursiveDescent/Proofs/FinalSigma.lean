import Mathlib.Data.List.TakeWhile
import RecursiveDescent.Proofs.IgnoringCase

/-!
# Texts that go on

Lower case looks ahead: a capital sigma at the end of a word is a final one until a letter follows.
So the lower case of a text need not begin that of the same text with more behind it, and this is
the only reason. A literal in any case, which compares lower case, takes the beginning of a match
for another text where that happens, and tells the end of the text in all other cases.
-/
namespace RecursiveDescent

namespace Text

/-- Words look through all of the text. -/
def SeenThrough (t : Text) : Prop :=
  ∀ c ∈ t, Unicode.caseIgnorable.mem c = true

/-- The lower case of a text between the text before it, nearest character first, and the text
behind it. -/
def lowercaseBetween (before : Text) : Text → Text → Text
  | [], _ => []
  | c :: rest, behind =>
    lowercaseChar before c (rest ++ behind) ++ lowercaseBetween (c :: before) rest behind

/-- After the text before it, nearest character first, the text ends with a capital sigma, seen
through what is behind it and with a cased character to be seen before it. -/
def EndsInSigma (before t : Text) : Prop :=
  ∃ word tail : Text, t = word ++ '\u03A3' :: tail ∧ meetsCased (word.reverse ++ before) = true ∧
    tail.SeenThrough

variable {t : Text}

/-- What is seen through does not hide what is behind it. -/
theorem SeenThrough.meetsCased_append (h : t.SeenThrough) (behind : Text) :
    meetsCased (t ++ behind) = meetsCased behind := by
  rw [meetsCased, List.dropWhile_append_of_pos h, meetsCased]

theorem SeenThrough.not_meetsCased (h : t.SeenThrough) : meetsCased t = false := by
  have same := h.meetsCased_append []
  rwa [List.append_nil] at same

theorem meetsCased_append_of_not_seenThrough (h : ¬ t.SeenThrough) (behind : Text) :
    meetsCased (t ++ behind) = meetsCased t := by
  have stops : t.dropWhile Unicode.caseIgnorable.mem ≠ [] := fun none =>
    h (List.dropWhile_eq_nil_iff.mp none)
  obtain ⟨c, rest, stop⟩ := List.exists_cons_of_ne_nil stops
  rw [meetsCased, meetsCased, List.dropWhile_append, stop]
  rfl

/-- More behind a character makes a difference to a capital sigma that would be final. -/
theorem lowercaseChar_append_iff (before : Text) (c : Char) (rest behind : Text) :
    lowercaseChar before c (rest ++ behind) = lowercaseChar before c rest ↔
      ¬ ((c = '\u03A3' ∧ meetsCased before = true ∧ rest.SeenThrough) ∧
        meetsCased behind = true) := by
  by_cases sigma : c = '\u03A3'
  · subst sigma
    by_cases through : rest.SeenThrough
    · simp only [lowercaseChar, through.meetsCased_append, through.not_meetsCased]
      cases meetsCased before <;> cases meetsCased behind <;> simp [through]
    · simp [lowercaseChar, meetsCased_append_of_not_seenThrough through, through]
  · simp [lowercaseChar, sigma]

theorem endsInSigma_cons (before : Text) (c : Char) (rest : Text) :
    EndsInSigma before (c :: rest) ↔
      (c = '\u03A3' ∧ meetsCased before = true ∧ rest.SeenThrough) ∨
        EndsInSigma (c :: before) rest := by
  constructor
  · rintro ⟨word, tail, split, cased, through⟩
    cases word with
    | nil =>
      obtain ⟨rfl, rfl⟩ := List.cons.inj split
      exact .inl ⟨rfl, cased, through⟩
    | cons d word =>
      obtain ⟨rfl, rfl⟩ := List.cons.inj split
      refine .inr ⟨word, tail, rfl, ?_, through⟩
      simpa using cased
  · rintro (⟨rfl, cased, through⟩ | ⟨word, tail, rfl, cased, through⟩)
    · exact ⟨[], rest, rfl, cased, through⟩
    · exact ⟨c :: word, tail, rfl, by simpa using cased, through⟩

/-- The lowercase form of a whole, cut at a place: the first part is told with what is behind it. -/
theorem lowercaseAfter_append (before t behind : Text) :
    lowercaseAfter before (t ++ behind) =
      lowercaseBetween before t behind ++ lowercaseAfter (t.reverse ++ before) behind := by
  induction t generalizing before with
  | nil => rfl
  | cons c rest ih =>
    simp only [List.cons_append, lowercaseAfter, lowercaseBetween, ih, List.reverse_cons,
      List.append_assoc, List.nil_append]

theorem length_lowercaseBetween (before t behind : Text) :
    (lowercaseBetween before t behind).length = (lowercaseAfter before t).length := by
  induction t generalizing before with
  | nil => rfl
  | cons c rest ih =>
    simp only [lowercaseBetween, lowercaseAfter, List.length_append, length_lowercaseChar, ih]

/-- More behind a text makes a difference to its lower case if the text ends in a sigma, and only
to that. -/
theorem lowercaseBetween_eq_iff (before t behind : Text) :
    lowercaseBetween before t behind = lowercaseAfter before t ↔
      ¬ (EndsInSigma before t ∧ meetsCased behind = true) := by
  induction t generalizing before with
  | nil =>
    refine iff_of_true rfl ?_
    rintro ⟨⟨word, tail, split, -⟩, -⟩
    simp at split
  | cons c rest ih =>
    have heads : (lowercaseChar before c (rest ++ behind)).length =
        (lowercaseChar before c rest).length := by
      rw [length_lowercaseChar, length_lowercaseChar]
    rw [lowercaseBetween, lowercaseAfter, List.append_eq_append_iff_of_size_eq_left heads,
      lowercaseChar_append_iff, ih, endsInSigma_cons, or_and_right, not_or]

/-- The lower case of a text begins that of the text with more behind it, unless a sigma at its end
is final no more. -/
theorem lowercase_prefix_iff (t behind : Text) :
    t.lowercase <+: (t ++ behind).lowercase ↔
      ¬ (EndsInSigma [] t ∧ meetsCased behind = true) := by
  rw [lowercase, lowercase, lowercaseAfter_append, ← lowercaseBetween_eq_iff]
  have length := length_lowercaseBetween [] t behind
  constructor
  · intro begins
    have inside := List.prefix_of_prefix_length_le begins (List.prefix_append _ _) length.ge
    exact (inside.eq_of_length length.symm).symm
  · intro same
    rw [same]
    exact List.prefix_append _ _

end Text

namespace Reader

variable {r : Reader}

def followedBy (r : Reader) (more : Text) : Reader :=
  ⟨r.input ++ more, r.position⟩

/-- Text put behind the input is ahead of the reader, which stands on a boundary as before. -/
theorem followedBy_ahead (hb : r.OnBoundary) (more : Text) :
    (r.followedBy more).OnBoundary ∧ (r.followedBy more).remaining = r.remaining ++ more := by
  obtain ⟨before, input, offset⟩ := hb.exists_before
  have longer : (r.followedBy more).input = before ++ (r.remaining ++ more) := by
    rw [followedBy, input, List.append_assoc]
  exact ⟨onBoundary_of_before longer offset.symm, remaining_of_before longer offset.symm⟩

end Reader

namespace Parser

open Text

variable {s : State} {text : Text}

/-! ## Where fewer characters are ahead than the literal has -/

section Short

variable (short : s.reader.remaining.length < text.length)
include short

theorem take_short : s.reader.remaining.take text.length = s.reader.remaining :=
  List.take_of_length_le (Nat.le_of_lt short)

/-- All that is ahead is taken, and no line break is cut at the end. -/
theorem exists_literalIgnoringCase_short (hb : s.reader.OnBoundary) (label : String)
    (same : s.reader.remaining.lowercase = text.lowercase) :
    ∃ m t, (literalIgnoringCase label text).run s = .ok m t := by
  obtain ⟨span, t, takes⟩ := Run.exists_takes hb (.refl s.reader.remaining)
  exact ⟨⟨s.reader.remaining, span⟩, t,
    (literalIgnoringCase_ok_iff hb label text).mpr ⟨(take_short short).symm, same, takes⟩⟩

/-- What begins the folded literal, but is not all of it, is reported as the end of the input. -/
theorem literalIgnoringCase_runs_out (label : String)
    (other : s.reader.remaining.lowercase ≠ text.lowercase)
    (begins : s.reader.remaining.lowercase <+: text.lowercase) :
    (literalIgnoringCase label text).run s =
      .failed (.here endOfFile (String.ofList text) endMark s.reader) s := by
  rw [run_literalIgnoringCase]
  dsimp only
  rw [take_short short, if_neg other, if_pos ⟨short, List.isPrefixOf_iff_prefix.mpr begins⟩]

/-- All else is reported as a mismatch, also when the input is too short. -/
theorem literalIgnoringCase_differs (label : String)
    (differs : ¬ s.reader.remaining.lowercase <+: text.lowercase) :
    (literalIgnoringCase label text).run s =
      .failed (.here "Strings do not match (case-insensitive)." (String.ofList text)
        (String.ofList s.reader.remaining) s.reader) s := by
  have other : s.reader.remaining.lowercase ≠ text.lowercase := fun same =>
    differs (same ▸ List.prefix_rfl)
  rw [run_literalIgnoringCase]
  dsimp only
  rw [take_short short, if_neg other,
    if_neg fun both => differs (List.isPrefixOf_iff_prefix.mp both.2)]

end Short

/-- Where a literal in any case fails as less is ahead than it has, but would match if the text went
on, it tells the end of the text. One case is left out, in which it takes what is ahead for another
text: that ends in a capital sigma, final in lower case, and behind it the match goes on with a
cased character, so that there the sigma is not final. -/
theorem literalIgnoringCase_cut_short (label : String) (text : Text) (hb : s.reader.OnBoundary)
    (short : s.reader.remaining.length < text.length) (more : Text) :
    let ahead := s.reader.remaining
    ∀ f t m u, (literalIgnoringCase label text).run s = .failed f t →
      (literalIgnoringCase label text).run ⟨s.reader.followedBy more, s.store⟩ = .ok m u →
      ∃ behind, m.value = ahead ++ behind ∧ behind <+: more ∧ t = s ∧
        (¬ (EndsInSigma [] ahead ∧ meetsCased behind = true) →
          f = .here endOfFile (String.ofList text) endMark s.reader) ∧
        (EndsInSigma [] ahead ∧ meetsCased behind = true →
          f = .here "Strings do not match (case-insensitive)." (String.ofList text)
            (String.ofList ahead) s.reader) := by
  intro ahead f t m u failed matched
  obtain ⟨longer, goesOn⟩ := Reader.followedBy_ahead hb more
  obtain ⟨value, same, -⟩ := (literalIgnoringCase_ok_iff longer label text).mp matched
  have cut : m.value = ahead ++ more.take (text.length - ahead.length) := by
    rw [value, goesOn, List.take_append, List.take_of_length_le (Nat.le_of_lt short)]
  have begins := lowercase_prefix_iff ahead (more.take (text.length - ahead.length))
  rw [← cut, same] at begins
  by_cases turned :
      EndsInSigma [] ahead ∧ meetsCased (more.take (text.length - ahead.length)) = true
  · have differs : ¬ ahead.lowercase <+: text.lowercase := fun prefixes => begins.mp prefixes turned
    cases (literalIgnoringCase_differs short label differs).symm.trans failed
    exact ⟨_, cut, List.take_prefix _ _, rfl, absurd turned, fun _ => rfl⟩
  · have other : ahead.lowercase ≠ text.lowercase := fun same => by
      obtain ⟨m, t, matched⟩ := exists_literalIgnoringCase_short short hb label same
      cases matched.symm.trans failed
    cases (literalIgnoringCase_runs_out short label other (begins.mpr turned)).symm.trans failed
    exact ⟨_, cut, List.take_prefix _ _, rfl, fun _ => rfl, fun again => absurd again turned⟩

/-- Of a Greek word that ends in a sigma and a mark behind it, the mark is missing. -/
theorem literalIgnoringCase_cut_short_at_mark :
    let s : State := ⟨Reader.startAt ['x', 'Ο', 'Σ'] ⟨1, 1, 2⟩, .empty⟩
    let text : Text := ['ο', 'ς', '!']
    let longer : State := ⟨s.reader.followedBy ['!'], s.store⟩
    s.reader.OnBoundary ∧ s.reader.remaining.length < text.length ∧
      ∃ m u f, (literalIgnoringCase "word" text).run longer = .ok m u ∧
        (literalIgnoringCase "word" text).run s = .failed f s ∧
        f = .here endOfFile "ος!" endMark s.reader := by
  intro s text longer
  have boundary : s.reader.OnBoundary := by decide
  have short : s.reader.remaining.length < text.length := by decide
  have same : lowercase ['Ο', 'Σ', '!'] = text.lowercase := by decide +kernel
  have other : s.reader.remaining.lowercase ≠ text.lowercase := by decide +kernel
  have begins : s.reader.remaining.lowercase <+: text.lowercase := by decide +kernel
  have there : longer.reader.OnBoundary := by decide
  obtain ⟨span, u, takes⟩ : ∃ span u, Run.Takes longer ['Ο', 'Σ', '!'] span u :=
    Run.exists_takes there (.refl ['Ο', 'Σ', '!'])
  have matched : (literalIgnoringCase "word" text).run longer = .ok ⟨['Ο', 'Σ', '!'], span⟩ u :=
    (literalIgnoringCase_ok_iff there "word" text).mpr ⟨rfl, same, takes⟩
  have failed := literalIgnoringCase_runs_out short "word" other begins
  obtain ⟨behind, value, -, -, ends, -⟩ :=
    literalIgnoringCase_cut_short "word" text boundary short ['!'] _ s _ u failed matched
  have whole : ['Ο', 'Σ'] ++ ['!'] = ['Ο', 'Σ'] ++ behind := value
  obtain rfl := List.append_cancel_left whole
  have final : ¬ meetsCased ['!'] = true := by decide +kernel
  exact ⟨boundary, short, _, u, _, matched, failed, ends fun turned => final turned.2⟩

/-- Two of three Greek capitals are taken for another text, as the second is a sigma. -/
theorem literalIgnoringCase_mistakes_sigma :
    let s : State := ⟨Reader.start ['Ο', 'Σ'], .empty⟩
    let text : Text := ['Ο', 'Σ', 'Α']
    let longer : State := ⟨s.reader.followedBy ['Α'], s.store⟩
    s.reader.OnBoundary ∧ s.reader.remaining.length < text.length ∧
      (∃ m u, (literalIgnoringCase "word" text).run longer = .ok m u) ∧
      ∃ f, (literalIgnoringCase "word" text).run s = .failed f s ∧ f.top.found ≠ endMark := by
  intro s text longer
  have boundary : s.reader.OnBoundary := by decide
  have short : s.reader.remaining.length < text.length := by decide
  have differs : ¬ s.reader.remaining.lowercase <+: text.lowercase := by decide +kernel
  have there : longer.reader.OnBoundary := by decide
  obtain ⟨span, u, takes⟩ : ∃ span u, Run.Takes longer ['Ο', 'Σ', 'Α'] span u :=
    Run.exists_takes there (.refl ['Ο', 'Σ', 'Α'])
  have matched : (literalIgnoringCase "word" text).run longer = .ok ⟨['Ο', 'Σ', 'Α'], span⟩ u :=
    (literalIgnoringCase_ok_iff there "word" text).mpr ⟨rfl, rfl, takes⟩
  have failed := literalIgnoringCase_differs short "word" differs
  have found : String.ofList ['Ο', 'Σ'] ≠ endMark := by decide
  exact ⟨boundary, short, ⟨_, u, matched⟩, _, failed, found⟩

end Parser

end RecursiveDescent
