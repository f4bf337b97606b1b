import RecursiveDescent.Proofs.Governed

/-!
# Shielding

A parser of one's own may leak: where it fails, it leaves the reader somewhere else. Most of the
combinators undo that before they fail themselves. The others pass it on to the next one around
them, and no success comes of a leak that was not undone.
-/
namespace RecursiveDescent

namespace Parser

variable {α : Type}

/-- The reader may be left anywhere, but in its text. -/
def KeepsText (p : Parser α) : Prop :=
  ∀ s, match p.run s with
    | .ok _ t | .failed _ t => t.reader.input = s.reader.input
    | .halted _ _ => True

def MatchesExactly (p : Parser α) : Prop :=
  ∀ s m t, p.run s = .ok m t → m.span = ⟨s.reader.position, t.reader.position⟩

/-- Matches are as expected, but failures may leave the reader anywhere in its text. -/
def MayLeak (p : Parser α) : Prop :=
  p.KeepsText ∧ p.MatchesExactly

end Parser

/-- Nothing is asked but that readers stay in their text, and of matches, as the case may be, that
they are exact. -/
def Discipline.sameText (exactSpans : Prop) : Discipline where
  start _ := True
  path r r' := r'.input = r.input
  lost r r' := r'.input = r.input
  exactSpans := exactSpans
  raised _ _ := True
  halts _ := True
  path_refl _ := rfl
  path_trans hp hp' := hp'.trans hp
  start_of_path _ _ := trivial
  lost_refl _ := rfl
  undo := by
    intro r r' r'' _ hp hl
    rw [Reader.rewind, hl, hp]
    by_cases inside : r.position.offset ≤ r.input.byteLength
    · rw [if_pos inside]
    · rw [if_neg inside]
      trivial
  take {r} n _ := by
    split <;> rename_i h
    · exact (Reader.reaches_of_take h).input
    · trivial
    · trivial
  takeBytes {r} n _ := by
    split <;> rename_i h
    · exact (Reader.reaches_of_takeBytes h).input
    · trivial
    · trivial
  raised_here _ _ _ _ := trivial
  raised_refused _ _ _ _ _ := trivial
  raised_enclose _ _ _ _ := trivial
  raised_restated _ _ _ _ _ _ := trivial
  halts_exhausted := trivial

instance (exactSpans : Prop) (P : Grammar → Prop) :
    (Discipline.sameText exactSpans).AdmitsLiterals P :=
  ⟨fun _ _ _ => trivial, fun _ _ _ => trivial⟩

namespace Parser

open Discipline

variable {α : Type} {p : Parser α}

theorem KeepsText.governs (h : p.KeepsText) : (sameText False).Governs p.run := by
  intro s _
  have kept := h s
  rw [Run.Ends]
  cases hrun : p.run s with
  | ok m t => rw [hrun] at kept; exact ⟨kept, False.elim⟩
  | failed f t => rw [hrun] at kept; exact ⟨kept, trivial⟩
  | halted cause t => trivial

theorem MayLeak.governs (h : p.MayLeak) : (sameText True).Governs p.run := by
  intro s hs
  have ends := h.1.governs s hs
  rw [Run.Ends] at ends ⊢
  cases hrun : p.run s with
  | ok m t => rw [hrun] at ends; exact ⟨ends.1, fun _ => h.2 s m t hrun⟩
  | failed f t => rwa [hrun] at ends
  | halted cause t => trivial

theorem mayLeak_of_governs (h : (sameText True).Governs p.run) : p.MayLeak := by
  constructor
  · intro s
    have ends := h s trivial
    rw [Run.Ends] at ends
    cases hrun : p.run s with
    | ok m t => rw [hrun] at ends; exact ends.1
    | failed f t => rw [hrun] at ends; exact ends.1
    | halted cause t => trivial
  · intro s m t matched
    have ends := h s trivial
    rw [Run.Ends, matched] at ends
    exact ends.2 trivial

theorem leaky_mayLeak (label : String) (count : Nat) : (leaky label count : Parser α).MayLeak := by
  apply mayLeak_of_governs
  intro s hs
  simp only [leaky, Run.ends_bind]
  apply ends_take hs
  · intro text span t taken
    exact ⟨taken.1, trivial⟩
  · exact fun _ => ⟨rfl, trivial⟩

end Parser

namespace Grammar

/-- Leaves that are parsers of one's own may leak. -/
def MayLeak : Grammar → Prop :=
  Everywhere fun g => ∀ p, g = .custom p → p.MayLeak

/-- Leaves that may leave the reader anywhere in its text make grammars that do no worse. -/
theorem MayLeak.parsers {g : Grammar} (hg : g.MayLeak) (node : NodeId) :
    (∀ depth, (g.parserWithin depth node).MayLeak) ∧ (g.toParser node).MayLeak := by
  have leaves : ∀ p, (∀ q, Grammar.custom p = .custom q → q.MayLeak) →
      (Discipline.sameText True).Governs p.run := fun p h => (h p rfl).governs
  constructor
  · intro depth
    exact Parser.mayLeak_of_governs (Discipline.governs_parserWithin leaves hg depth node)
  · exact Parser.mayLeak_of_governs (Discipline.governs_toParser leaves hg node)

end Grammar

end RecursiveDescent
