import RecursiveDescent.Proofs.IgnoringCase
import RecursiveDescent.Proofs.Tokens

/-!
# With case and without

A literal in any case cuts its candidate by characters and compares lower case, where an exact one
compares byte by byte. Where the exact one matches, or ends inside a line break, the candidate is
its very text, so the other does the same. Among ASCII characters lower case changes one letter for
another of one byte, so there is no more to it than the case of letters.
-/
namespace RecursiveDescent

open Text

/-- Among ASCII characters the letters have lower case, and these 26 only. -/
theorem Unicode.lowercase_eq_toLower {c : Char} (ascii : c.toNat < 128) :
    lowercase c = c.toLower := by
  have each : ∀ n < 128, lowercase (Char.ofNat n) = (Char.ofNat n).toLower := by decide +kernel
  rw [← Char.ofNat_toNat c]
  exact each c.toNat ascii

namespace Text

def IsAscii (t : Text) : Prop :=
  ∀ c ∈ t, c.toNat < 128

instance (t : Text) : Decidable t.IsAscii :=
  List.decidableBAll (fun c : Char => c.toNat < 128) t

variable {t : Text}

theorem lowercaseChar_of_ascii {c : Char} (ascii : c.toNat < 128) (before rest : Text) :
    lowercaseChar before c rest = [c.toLower] := by
  have noDotted : c ≠ '\u0130' := by
    rintro rfl
    exact absurd ascii (by decide)
  have noSigma : c ≠ '\u03A3' := by
    rintro rfl
    exact absurd ascii (by decide)
  rw [lowercaseChar, if_neg noDotted, if_neg noSigma, Unicode.lowercase_eq_toLower ascii]

theorem lowercaseAfter_of_ascii (ascii : t.IsAscii) (before : Text) :
    lowercaseAfter before t = t.map Char.toLower := by
  induction t generalizing before with
  | nil => rfl
  | cons c rest ih =>
    obtain ⟨first, ascii⟩ := List.forall_mem_cons.mp ascii
    rw [lowercaseAfter, lowercaseChar_of_ascii first, ih ascii]
    rfl

/-- Of ASCII letters the lowercase form does not hang on what is around them. -/
theorem lowercase_of_ascii (ascii : t.IsAscii) : t.lowercase = t.map Char.toLower :=
  lowercaseAfter_of_ascii ascii []

theorem byteLength_of_ascii (ascii : t.IsAscii) : t.byteLength = t.length := by
  induction t with
  | nil => rfl
  | cons c rest ih =>
    obtain ⟨first, ascii⟩ := List.forall_mem_cons.mp ascii
    have one : c.utf8Size = 1 := Char.utf8Size_eq_one_iff.mpr (Nat.le_of_lt_succ first)
    rw [byteLength, ih ascii, one, List.length_cons, Nat.add_comm]

theorem length_of_map_toLower {u : Text} (same : t.map Char.toLower = u.map Char.toLower) :
    t.length = u.length := by
  simpa using congrArg List.length same

end Text

namespace Parser

variable {s t : State} {text rest : Text} {m : Match Text} {f : Failure}

/-- What an exact literal takes, one in any case takes as well. -/
theorem literalIgnoringCase_of_literal (hb : s.reader.OnBoundary) (label label' : String)
    (matched : (literal label text).run s = .ok m t) :
    (literalIgnoringCase label' text).run s = .ok m t := by
  rcases literal_cases hb label text with ⟨leads, span, u, takes, same⟩ | ⟨-, g, failed⟩
  · cases same.symm.trans matched
    obtain ⟨rest, ahead, -⟩ := leads
    have candidate : s.reader.remaining.take text.length = text := by
      rw [ahead, List.take_left]
    exact (literalIgnoringCase_ok_iff hb label' text).mpr ⟨candidate.symm, rfl, takes⟩
  · cases failed.symm.trans matched

/-- The message tells that an exact literal ends inside a line break. -/
theorem exists_split_of_failed (hb : s.reader.OnBoundary) {label : String}
    (failed : (literal label text).run s = .failed f t)
    (message : f.top.message = "String ends inside a \\r\\n line break.") :
    ∃ rest, s.reader.remaining = text ++ rest ∧ SplitsBreak text rest := by
  by_cases begins : text <+: s.reader.remaining
  · obtain ⟨rest, ahead⟩ := begins
    by_cases split : SplitsBreak text rest
    · exact ⟨rest, ahead.symm, split⟩
    · obtain ⟨span, u, -, matched⟩ := literal_matches hb label ⟨rest, ahead.symm, split⟩
      cases matched.symm.trans failed
  · by_cases shorter : s.reader.remaining <+: text
    · have ne : s.reader.remaining ≠ text := fun same => begins (same ▸ List.prefix_rfl)
      have other : endOfFile ≠ "String ends inside a \\r\\n line break." := by decide
      cases (literal_runs_out label shorter ne).symm.trans failed
      exact absurd message other
    · have other : "Strings do not match." ≠ "String ends inside a \\r\\n line break." := by decide
      cases (literal_differs label begins shorter).symm.trans failed
      exact absurd message other

theorem literalIgnoringCase_splits (label : String) (ahead : s.reader.remaining = text ++ rest)
    (split : SplitsBreak text rest) :
    (literalIgnoringCase label text).run s =
      .failed (.here "String ends inside a \\r\\n line break." (String.ofList text)
        (String.ofList (text ++ ['\n'])) s.reader) s := by
  have candidate : s.reader.remaining.take text.length = text := by
    rw [ahead, List.take_left]
  rw [run_literalIgnoringCase]
  dsimp only
  rw [candidate, if_pos rfl]
  exact takeMatch_splits ahead split _

/-- A candidate is taken if it is the same in lower case and no line break is cut behind it. -/
theorem exists_literalIgnoringCase_iff (hb : s.reader.OnBoundary) (label : String) (text : Text) :
    let candidate : Text := s.reader.remaining.take text.length
    (∃ m t, (literalIgnoringCase label text).run s = .ok m t) ↔
      candidate.lowercase = text.lowercase ∧
        ¬ SplitsBreak candidate (s.reader.remaining.drop text.length) := by
  intro candidate
  have cut : s.reader.remaining = candidate ++ s.reader.remaining.drop text.length :=
    (List.take_append_drop _ _).symm
  constructor
  · rintro ⟨m, t, matched⟩
    obtain ⟨value, same, takes⟩ := (literalIgnoringCase_ok_iff hb label text).mp matched
    rw [value] at same takes
    refine ⟨same, ?_⟩
    rw [← takes.passes.remaining_eq cut]
    exact takes.passes.whole
  · rintro ⟨same, whole⟩
    obtain ⟨span, t, takes⟩ := Run.exists_takes hb ⟨_, cut, whole⟩
    exact ⟨⟨candidate, span⟩, t, (literalIgnoringCase_ok_iff hb label text).mpr ⟨rfl, same, takes⟩⟩

/-- Where an exact literal matches, one in any case makes the same match, and where it ends inside
a line break, that one fails in the same way. Among ASCII characters nothing else is the same in
lower case but what differs in the case of letters, and it is as many bytes. -/
theorem literalIgnoringCase_extends (label label' : String) (text : Text)
    (hb : s.reader.OnBoundary) :
    let candidate : Text := s.reader.remaining.take text.length
    let exactly := (literal label text).run s
    let anyCase := (literalIgnoringCase label' text).run s
    (∀ m t, exactly = .ok m t → anyCase = .ok m t) ∧
      (∀ f t, exactly = .failed f t →
        f.top.message = "String ends inside a \\r\\n line break." → anyCase = .failed f t) ∧
      (text.IsAscii → candidate.IsAscii →
        ((∃ m t, anyCase = .ok m t) ↔
          candidate.length = text.length ∧ candidate.map Char.toLower = text.map Char.toLower ∧
            ¬ SplitsBreak candidate (s.reader.remaining.drop text.length)) ∧
        ∀ m t, anyCase = .ok m t →
          m.value = candidate ∧ t.reader.offset = s.reader.offset + text.length) := by
  intro candidate exactly anyCase
  refine ⟨fun m t => literalIgnoringCase_of_literal hb label label', fun f t failed message => ?_,
    fun ascii ascii' => ⟨?_, fun m t matched => ?_⟩⟩
  · obtain ⟨rest, cut, split⟩ := exists_split_of_failed hb failed message
    cases (literal_splits label cut split).symm.trans failed
    exact literalIgnoringCase_splits label' cut split
  · refine (exists_literalIgnoringCase_iff hb label' text).trans ?_
    rw [lowercase_of_ascii ascii, lowercase_of_ascii ascii']
    exact ⟨fun ⟨same, whole⟩ => ⟨length_of_map_toLower same, same, whole⟩, And.right⟩
  · obtain ⟨value, same, takes⟩ := (literalIgnoringCase_ok_iff hb label' text).mp matched
    rw [value, lowercase_of_ascii ascii, lowercase_of_ascii ascii'] at same
    rw [value] at takes
    refine ⟨value, ?_⟩
    rw [takes.passes.offset, byteLength_of_ascii ascii', length_of_map_toLower same]

/-- A keyword in another case, the keyword as it stands, and with a return that is not alone. -/
theorem literalIgnoringCase_extends_keyword :
    let s : State := ⟨Reader.startAt ['é', 'I', 'f', '\r', '\n'] ⟨2, 1, 2⟩, .empty⟩
    s.reader.OnBoundary ∧ IsAscii ['i', 'F'] ∧ IsAscii (s.reader.remaining.take 2) ∧
      (∃ m t, (literalIgnoringCase "if" ['i', 'F']).run s = .ok m t ∧ t.reader.offset = 4) ∧
      (∃ m t, (literal "If" ['I', 'f']).run s = .ok m t ∧
        (literalIgnoringCase "if" ['I', 'f']).run s = .ok m t) ∧
      ∃ f t, (literal "If" ['I', 'f', '\r']).run s = .failed f t ∧
        (literalIgnoringCase "if" ['I', 'f', '\r']).run s = .failed f t := by
  intro s
  have boundary : s.reader.OnBoundary := by decide
  have ascii : IsAscii ['i', 'F'] := by decide
  have ascii' : IsAscii (s.reader.remaining.take 2) := by decide
  obtain ⟨-, -, letters⟩ := literalIgnoringCase_extends "If" "if" ['i', 'F'] boundary
  obtain ⟨matches', takes⟩ := letters ascii ascii'
  obtain ⟨m, t, matched⟩ := matches'.mpr ⟨rfl, by decide, by decide⟩
  obtain ⟨also, -, -⟩ := literalIgnoringCase_extends "If" "if" ['I', 'f'] boundary
  obtain ⟨-, splits, -⟩ := literalIgnoringCase_extends "If" "if" ['I', 'f', '\r'] boundary
  exact ⟨boundary, ascii, ascii', ⟨m, t, matched, (takes m t matched).2⟩,
    ⟨_, _, rfl, also _ _ rfl⟩, _, _, rfl, splits _ _ rfl rfl⟩

end Parser

end RecursiveDescent
