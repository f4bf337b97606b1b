import RecursiveDescent.Proofs.Contract

/-!
# Where failures come from

Whatever levels are put around a failure, its root stays the level that was raised first. In a
grammar with no leaf of one's own, a root tells of the text ahead of where it was raised, or it
belongs to a literal that the input ends within. So it is known what a root may mean that has found
the text `EOF`: mostly, but not always, that the input ran out there.
-/
namespace RecursiveDescent

namespace Failure

theorem root_restated (f : Failure) (message expected found : String) (r : Reader) :
    (((f.enclose message r).withExpected expected).withFound found).root = f.root := by
  simp only [withFound, withExpected, enclose, root, levels, List.getLastD_cons]

end Failure

namespace Reader

variable {r : Reader}

theorem remaining_of_peek?_eq_none (h : r.peek? = none) : r.remaining = [] := by
  rw [peek?, Option.map_eq_none_iff] at h
  generalize r.remaining = rest at h ⊢
  fun_cases Text.firstSymbol? rest with
  | case1 => cases h
  | case2 c rest => simp [Text.firstSymbol?] at h
  | case3 => rfl

/-- Only these letters read like the mark of the end. -/
theorem letters_of_ofList {t : Text} (h : String.ofList t = endMark) : t = ['E', 'O', 'F'] := by
  have same := congrArg String.toList h
  rwa [String.toList_ofList] at same

/-- To find the text `EOF` is to find nothing, or these three letters. -/
theorem Tells.cases_endMark {found : String} (h : r.Tells found) (marked : found = endMark) :
    r.remaining = [] ∨ ['E', 'O', 'F'] <+: r.remaining := by
  cases h with
  | ahead =>
    left
    cases hpeek : r.peek? with
    | none => exact remaining_of_peek?_eq_none hpeek
    | some c =>
      have single : String.singleton c = endMark := by rwa [Reader.found, hpeek] at marked
      have length := congrArg String.length single
      exact absurd length (by rw [String.length_singleton]; decide)
  | quotes begins =>
    right
    rwa [letters_of_ofList marked] at begins

end Reader

namespace Level

/-- The level a literal of the grammar fails with where the input ends within it. -/
inductive WithinLiteral (g : Grammar) (r : Reader) : Level → Prop
  | exactly {label : String} {text : Text} : (Grammar.literal label text).Occurs g →
    r.remaining.EndsWithin text →
    WithinLiteral g r (Failure.here Parser.endOfFile (String.ofList text) endMark r).top
  | ignoringCase {label : String} {text : Text} :
    (Grammar.literalIgnoringCase label text).Occurs g →
    r.remaining.lowercase.EndsWithin text.lowercase →
    WithinLiteral g r (Failure.here Parser.endOfFile (String.ofList text) endMark r).top

/-- A level that some parser of the grammar raises at the reader on its own account. -/
inductive RaisedAt (g : Grammar) (r : Reader) : Level → Prop
  | telling {message expected found : String} : r.Tells found →
    RaisedAt g r (Failure.here message expected found r).top
  | within {level : Level} : level.WithinLiteral g r → RaisedAt g r level

variable {g : Grammar} {r : Reader} {level : Level}

theorem WithinLiteral.position (h : level.WithinLiteral g r) : level.position = r.position := by
  cases h <;> rfl

theorem WithinLiteral.message (h : level.WithinLiteral g r) :
    level.message = Parser.endOfFile := by
  cases h <;> rfl

theorem RaisedAt.position (h : level.RaisedAt g r) : level.position = r.position := by
  cases h with
  | telling _ => rfl
  | within short => exact short.position

/-- The mark tells that nothing is ahead, that it ends within a literal, or that it reads so itself.
-/
theorem RaisedAt.cases_endMark (h : level.RaisedAt g r) (marked : level.found = endMark) :
    r.remaining = [] ∨ level.WithinLiteral g r ∨ ['E', 'O', 'F'] <+: r.remaining := by
  cases h with
  | telling tells =>
    rcases tells.cases_endMark marked with nothing | letters
    · exact .inl nothing
    · exact .inr (.inr letters)
  | within short => exact .inr (.inl short)

end Level

def Grammar.PlainIn (g part : Grammar) : Prop :=
  (∀ p, part ≠ .custom p) ∧ part.Occurs g

/-- The contract, and of failures that the reader could get to where their root was raised. -/
def Discipline.rooted (g : Grammar) : Discipline :=
  { Discipline.contract with
    raised := fun r f => ∃ r', r.Reaches r' ∧ f.root.RaisedAt g r'
    raised_here := fun _ _ _ tells => ⟨_, .refl _, .telling tells⟩
    raised_refused := by
      intro r r' span message expected hr walk exact_span
      obtain ⟨walked, ahead, -, stands⟩ := walk.exists_walked
      have covered : span.slice r.input = walked := by
        rw [exact_span trivial, stands]
        exact congrArg (·.getD []) (Reader.slice?_past hr ahead)
      rw [covered]
      exact ⟨r, .refl r, .telling (.quotes ⟨r'.remaining, ahead.symm⟩)⟩
    raised_enclose := by
      rintro r r' f message - walk ⟨raiser, onward, here⟩
      rw [Failure.root_enclose]
      exact ⟨raiser, walk.trans onward, here⟩
    raised_restated := by
      rintro r r' f message expected found - walk ⟨raiser, onward, here⟩
      rw [Failure.root_restated]
      exact ⟨raiser, walk.trans onward, here⟩ }

instance (g : Grammar) : (Discipline.rooted g).AdmitsLiterals g.PlainIn where
  literal occurring _ ends := ⟨_, .refl _, .within (.exactly occurring.2 ends)⟩
  literalIgnoringCase occurring _ ends := ⟨_, .refl _, .within (.ignoringCase occurring.2 ends)⟩

/-- The root of each failure was raised on the way, by a parser of the grammar. -/
def Parser.RaisesWithin {α : Type} (p : Parser α) (g : Grammar) : Prop :=
  ∀ s f t, s.reader.OnBoundary → p.run s = .failed f t →
    ∃ r, s.reader.Reaches r ∧ f.root.RaisedAt g r

theorem Parser.raisesWithin_of_governs {α : Type} {p : Parser α} {g : Grammar}
    (h : (Discipline.rooted g).Governs p.run) : p.RaisesWithin g := by
  intro s f t boundary failed
  have ends := h s boundary
  rw [Run.Ends, failed] at ends
  exact ends.2

/-- Where a failure says that the input ran out, it did at its root: nothing is left there, or all
that is left begins a literal of the grammar. The exception is a root that quotes the letters `EOF`
from the input. -/
def Parser.RunsOutIn {α : Type} (p : Parser α) (g : Grammar) : Prop :=
  ∀ s f t, s.reader.OnBoundary → p.run s = .failed f t → f.ranOut = true →
    let r : Reader := ⟨s.reader.input, f.root.position⟩
    r.OnBoundary ∧
      (r.remaining = [] ∨ f.root.WithinLiteral g r ∨ ['E', 'O', 'F'] <+: r.remaining)

/-- A root that says so is where the input ran out, unless the input there reads like the mark. -/
theorem Parser.RaisesWithin.runsOutIn {α : Type} {p : Parser α} {g : Grammar}
    (h : p.RaisesWithin g) : p.RunsOutIn g := by
  intro s f t boundary failed ranOut
  obtain ⟨raiser, walk, raised⟩ := h s f t boundary failed
  have there : (⟨s.reader.input, f.root.position⟩ : Reader) = raiser := by
    rw [← walk.input, raised.position]
  have marked : f.root.found = endMark := by simpa [Failure.ranOut] using ranOut
  rw [there]
  exact ⟨walk.onBoundary boundary, raised.cases_endMark marked⟩

namespace Grammar

theorem Plain.raisesWithin {g : Grammar} (hg : g.Plain) (node : NodeId) :
    (∀ depth, (g.parserWithin depth node).RaisesWithin g) ∧ (g.toParser node).RaisesWithin g ∧
      ∀ kind label probe, (Deferred.mk kind label g probe).handle.RaisesWithin g := by
  have leaves : ∀ p, g.PlainIn (.custom p) → (Discipline.rooted g).Governs p.run :=
    fun p own => absurd rfl (own.1 p)
  have plain : g.Everywhere g.PlainIn := Everywhere.and_of_occurs hg fun _ occurring => occurring
  obtain ⟨within, whole, byHandle⟩ := Discipline.governs_parsers leaves plain node
  exact ⟨fun depth => Parser.raisesWithin_of_governs (within depth),
    Parser.raisesWithin_of_governs whole,
    fun kind label probe => Parser.raisesWithin_of_governs (byHandle kind label probe)⟩

/-- When a failure counts as the end of the input, for every grammar without parsers of one's own,
in whichever way it is run. -/
theorem plain_runsOutIn {g : Grammar} (hg : g.Plain) (node : NodeId) :
    (∀ depth, (g.parserWithin depth node).RunsOutIn g) ∧ (g.toParser node).RunsOutIn g ∧
      ∀ kind label probe, (Deferred.mk kind label g probe).handle.RunsOutIn g := by
  obtain ⟨within, whole, byHandle⟩ := hg.raisesWithin node
  exact ⟨fun depth => (within depth).runsOutIn, whole.runsOutIn,
    fun kind label probe => (byHandle kind label probe).runsOutIn⟩

def keywords : Grammar :=
  .either (.literal "let" ['l', 'e', 't']) (.literal "in" ['i', 'n'])

theorem keywords_plain : keywords.Plain :=
  .binary nofun rfl (.leaf nofun rfl) (.leaf nofun rfl)

theorem keywords_runsOutIn :
    keywords.Plain ∧ (Reader.startAt ['é', 'i'] ⟨2, 1, 2⟩).OnBoundary ∧
      ∃ f t, (keywords.toParser []).run ⟨Reader.startAt ['é', 'i'] ⟨2, 1, 2⟩, .empty⟩ =
          .failed f t ∧ f.ranOut = true ∧
        let r : Reader := ⟨['é', 'i'], f.root.position⟩
        r.OnBoundary ∧
          (r.remaining = [] ∨ f.root.WithinLiteral keywords r ∨
            ['E', 'O', 'F'] <+: r.remaining) := by
  have boundary : (Reader.startAt ['é', 'i'] ⟨2, 1, 2⟩).OnBoundary := by decide
  obtain ⟨f, t, failed, ranOut⟩ : ∃ f t, (keywords.toParser []).run
      ⟨Reader.startAt ['é', 'i'] ⟨2, 1, 2⟩, .empty⟩ = .failed f t ∧ f.ranOut = true :=
    ⟨_, _, rfl, by decide⟩
  have runsOut := (plain_runsOutIn keywords_plain []).2.1
    ⟨Reader.startAt ['é', 'i'] ⟨2, 1, 2⟩, .empty⟩ f t boundary failed ranOut
  exact ⟨keywords_plain, boundary, f, t, failed, ranOut, runsOut⟩

/-- The letters `EOF` in the input are taken for its end, with all of them left. -/
theorem ranOut_at_letters :
    ∃ f t, ((literal "abc" ['a', 'b', 'c']).toParser []).run
        ⟨Reader.start ['E', 'O', 'F'], .empty⟩ = .failed f t ∧ f.ranOut = true ∧
      let r : Reader := ⟨['E', 'O', 'F'], f.root.position⟩
      r.remaining = ['E', 'O', 'F'] ∧
        ¬ f.root.WithinLiteral (literal "abc" ['a', 'b', 'c']) r := by
  refine ⟨_, _, rfl, by decide, by decide, fun short => ?_⟩
  exact absurd short.message (by decide)

end Grammar

end RecursiveDescent
