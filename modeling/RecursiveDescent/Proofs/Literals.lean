import RecursiveDescent.Proofs.Symbols

/-!
# Literals

A literal compares texts byte by byte and then takes as many bytes as it has, which may be refused
because they end inside a line break. That is the only reason for a refusal there is.
-/
namespace RecursiveDescent

open Text

variable {s t : State} {text rest : Text}

/-- So many bytes of a text ahead are whole symbols only if that text is. -/
theorem Text.not_symbolsEndAt (split : SplitsBreak text rest) (k : Nat) :
    ¬ (text ++ rest).SymbolsEndAt k text.byteLength := by
  rintro ⟨walked, ⟨rest', ahead, whole⟩, -, bytes⟩
  obtain ⟨rfl, rfl⟩ := append_inj_of_byteLength ahead bytes.symm
  exact whole split

theorem Text.takeBytes?_behind_split (split : SplitsBreak text rest) :
    (text ++ rest).takeBytes? (text.byteLength + 1) = some (text ++ ['\n']) := by
  obtain ⟨rest, rfl⟩ := List.head?_eq_some_iff.mp split.2
  have bytes : text.byteLength + 1 = byteLength (text ++ ['\n']) := by
    rw [byteLength_append]
    rfl
  rw [bytes, ← takeBytes?_append (text ++ ['\n']) rest, List.append_assoc]
  rfl

namespace Parser

theorem takeMatch_takes {span : Span} (h : Run.Takes s text span t) (hb : s.reader.OnBoundary)
    (expected : String) :
    takeMatch expected s.reader.remaining text.byteLength s = .ok ⟨text, span⟩ t := by
  rw [takeMatch, Run.bind_apply, h.takeBytes hb]
  rfl

/-- A match that ends inside a line break is refused, with the break in what was found. -/
theorem takeMatch_splits (ahead : s.reader.remaining = text ++ rest) (split : SplitsBreak text rest)
    (expected : String) :
    takeMatch expected s.reader.remaining text.byteLength s =
      .failed (.here "String ends inside a \\r\\n line break." expected
        (String.ofList (text ++ ['\n'])) s.reader) s := by
  have refused : Run.takeBytes text.byteLength s = .ok none s :=
    Run.takeBytes_eq_none (by rw [ahead]; exact not_symbolsEndAt split)
  rw [takeMatch, Run.bind_apply, refused, ahead, takeBytes?_behind_split split]
  rfl

theorem run_literal (label : String) (text : Text) (s : State) :
    (literal label text).run s =
      let ahead := s.reader.remaining
      let expected := String.ofList text
      if text.isPrefixOf ahead then takeMatch expected ahead text.byteLength s
      else if ahead.isPrefixOf text then .failed (.here endOfFile expected endMark s.reader) s
      else .failed (.here "Strings do not match." expected
        (String.ofList (ahead.take text.length)) s.reader) s := by
  rw [literal]
  dsimp only
  rw [Run.bind_apply]
  dsimp only [Run.reader]
  split
  · rfl
  · split <;> rfl

theorem literal_matches (hb : s.reader.OnBoundary) (label : String)
    (leads : text.LeadsWhole s.reader.remaining) :
    ∃ span t, Run.Takes s text span t ∧ (literal label text).run s = .ok ⟨text, span⟩ t := by
  obtain ⟨span, t, takes⟩ := Run.exists_takes hb leads
  obtain ⟨rest, ahead, -⟩ := leads
  have begins : text.isPrefixOf s.reader.remaining = true :=
    List.isPrefixOf_iff_prefix.mpr ⟨rest, ahead.symm⟩
  refine ⟨span, t, takes, ?_⟩
  rw [run_literal, if_pos begins]
  exact takeMatch_takes takes hb _

theorem literal_splits (label : String) (ahead : s.reader.remaining = text ++ rest)
    (split : SplitsBreak text rest) :
    (literal label text).run s =
      .failed (.here "String ends inside a \\r\\n line break." (String.ofList text)
        (String.ofList (text ++ ['\n'])) s.reader) s := by
  have begins : text.isPrefixOf s.reader.remaining = true :=
    List.isPrefixOf_iff_prefix.mpr ⟨rest, ahead.symm⟩
  rw [run_literal, if_pos begins]
  exact takeMatch_splits ahead split _

/-- All that is ahead begins the literal, which is longer. -/
theorem literal_runs_out (label : String) (shorter : s.reader.remaining <+: text)
    (ne : s.reader.remaining ≠ text) :
    (literal label text).run s =
      .failed (.here endOfFile (String.ofList text) endMark s.reader) s := by
  have other : ¬ text.isPrefixOf s.reader.remaining = true := fun begins =>
    ne (shorter.eq_of_length_le (List.isPrefixOf_iff_prefix.mp begins).length_le)
  rw [run_literal, if_neg other, if_pos (List.isPrefixOf_iff_prefix.mpr shorter)]

theorem literal_differs (label : String) (other : ¬ text <+: s.reader.remaining)
    (differs : ¬ s.reader.remaining <+: text) :
    (literal label text).run s =
      .failed (.here "Strings do not match." (String.ofList text)
        (String.ofList (s.reader.remaining.take text.length)) s.reader) s := by
  rw [← List.isPrefixOf_iff_prefix] at other differs
  rw [run_literal, if_neg other, if_neg differs]

/-- A literal that leads the text ahead, with no line break split, is taken; any other fails where
it began. -/
theorem literal_cases (hb : s.reader.OnBoundary) (label : String) (text : Text) :
    (text.LeadsWhole s.reader.remaining ∧
        ∃ span t, Run.Takes s text span t ∧ (literal label text).run s = .ok ⟨text, span⟩ t) ∨
      (¬ text.LeadsWhole s.reader.remaining ∧ ∃ f, (literal label text).run s = .failed f s) := by
  by_cases leads : text.LeadsWhole s.reader.remaining
  · exact .inl ⟨leads, literal_matches hb label leads⟩
  · refine .inr ⟨leads, ?_⟩
    by_cases begins : text <+: s.reader.remaining
    · obtain ⟨rest, ahead⟩ := begins
      by_cases split : SplitsBreak text rest
      · exact ⟨_, literal_splits label ahead.symm split⟩
      · exact absurd ⟨rest, ahead.symm, split⟩ leads
    · by_cases shorter : s.reader.remaining <+: text
      · exact ⟨_, literal_runs_out label shorter fun same => begins (same ▸ List.prefix_rfl)⟩
      · exact ⟨_, literal_differs label begins shorter⟩

/-- What a literal makes of each text ahead. It matches if the text begins with it and no line break
is cut behind it, and takes it symbol by symbol. If one is cut, the whole of it is found; if the
text ends too early, its end is found; and of any other text as many characters as the literal has,
or all there are. A literal that does not match leaves everything as it was. -/
theorem literal_classifies (label : String) (text : Text) (hb : s.reader.OnBoundary) :
    let ahead := s.reader.remaining
    let outcome := (literal label text).run s
    let fails := fun message found =>
      outcome = .failed (.here message (String.ofList text) found s.reader) s
    ((∃ m t, outcome = .ok m t) ↔ text.LeadsWhole ahead) ∧
      (∀ m t, outcome = .ok m t → m = ⟨text, ⟨s.reader.position, t.reader.position⟩⟩ ∧
        s.reader.steps? text.read.length = some t.reader ∧ t.store = s.store) ∧
      (∀ rest, ahead = text ++ rest → SplitsBreak text rest →
        fails "String ends inside a \\r\\n line break." (String.ofList (text ++ ['\n']))) ∧
      (ahead <+: text → ahead ≠ text → fails endOfFile endMark) ∧
      (¬ text <+: ahead → ¬ ahead <+: text →
        fails "Strings do not match." (String.ofList (ahead.take (min text.length ahead.length)))) ∧
      ∀ f t, outcome = .failed f t → t = s := by
  intro ahead outcome fails
  have splits : ∀ rest, ahead = text ++ rest → SplitsBreak text rest →
      fails "String ends inside a \\r\\n line break." (String.ofList (text ++ ['\n'])) :=
    fun _ => literal_splits label
  have runsOut : ahead <+: text → ahead ≠ text → fails endOfFile endMark :=
    literal_runs_out label
  have differs : ¬ text <+: ahead → ¬ ahead <+: text →
      fails "Strings do not match."
        (String.ofList (ahead.take (min text.length ahead.length))) := by
    have width : ahead.take (min text.length ahead.length) = ahead.take text.length :=
      List.take_eq_take_iff.mpr (by omega)
    rw [width]
    exact literal_differs label
  rcases literal_cases hb label text with ⟨leads, span, u, takes, matched⟩ | ⟨none, g, failed⟩
  · have steps := (Reader.steps?_eq_some_iff hb).mpr ⟨text, takes.passes, rfl⟩
    refine ⟨⟨fun _ => leads, fun _ => ⟨_, u, matched⟩⟩, fun m t same => ?_, splits, runsOut,
      differs, fun f t same => ?_⟩
    · cases matched.symm.trans same
      exact ⟨by rw [takes.span], steps, takes.store⟩
    · cases matched.symm.trans same
  · refine ⟨⟨fun ⟨m, t, same⟩ => ?_, fun leads => absurd leads none⟩, fun m t same => ?_, splits,
      runsOut, differs, fun f t same => ?_⟩
    · cases failed.symm.trans same
    · cases failed.symm.trans same
    · cases failed.symm.trans same
      rfl

theorem literal_classifies_breaks :
    let s : State := ⟨Reader.startAt ['x', 'é', '\r', '\r', '\n'] ⟨1, 1, 2⟩, .empty⟩
    s.reader.OnBoundary ∧ (∃ m t, (literal "one" ['é', '\r']).run s = .ok m t) ∧
      (literal "two" ['é', '\r', '\r']).run s =
        .failed (.here "String ends inside a \\r\\n line break." "é\r\r" "é\r\r\n" s.reader) s := by
  intro s
  have boundary : s.reader.OnBoundary := by decide
  have leads : LeadsWhole ['é', '\r'] s.reader.remaining := ⟨['\r', '\n'], rfl, by decide⟩
  have one := literal_classifies "one" ['é', '\r'] boundary
  have two := literal_classifies "two" ['é', '\r', '\r'] boundary
  exact ⟨boundary, one.1.mpr leads, two.2.2.1 ['\n'] rfl (by decide)⟩

end Parser

end RecursiveDescent
