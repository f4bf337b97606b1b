import RecursiveDescent.Proofs.Governed

/-!
# The contract of parsers

What is expected of a parser is kept by every grammar whose leaves are none of one's own: where it
fails nothing is taken and the failure says so, and where it succeeds the match is exactly what was
taken. Such a grammar never misuses its reader.
-/
namespace RecursiveDescent

/-- The contract, for runs that begin at any position on a boundary of the text. -/
def Parser.KeepsContract {α : Type} (p : Parser α) : Prop :=
  ∀ s, s.reader.OnBoundary →
    match p.run s with
    | .ok m t =>
      t.reader.input = s.reader.input ∧ m.span = ⟨s.reader.position, t.reader.position⟩ ∧
        s.reader.offset ≤ t.reader.offset ∧
        (m.span.isEmpty = true ↔ t.reader.offset = s.reader.offset)
    | .failed f t => t.reader = s.reader ∧ f.top.position = s.reader.position
    | .halted cause _ => cause = .exhausted

/-- The contract as a discipline: readers walk from boundary to boundary. -/
def Discipline.contract : Discipline where
  start := Reader.OnBoundary
  path := Reader.Reaches
  lost r r' := r' = r
  exactSpans := True
  raised r f := f.top.position = r.position
  halts cause := cause = .exhausted
  path_refl _ := .refl _
  path_trans := .trans
  start_of_path hr hp := hp.onBoundary hr
  lost_refl _ := rfl
  undo := by
    rintro r r' _ hr hp rfl
    rw [hr.rewind hp.input]
  take n hr := by
    have moved := Reader.moves_take hr n
    generalize Reader.take _ n = result at moved ⊢
    cases moved with
    | onward walk _ => exact walk
    | nowhere => trivial
  takeBytes n hr := by
    have moved := Reader.moves_takeBytes hr n
    generalize Reader.takeBytes _ n = result at moved ⊢
    cases moved with
    | onward walk _ => exact walk
    | nowhere => trivial
  raised_here _ _ _ _ := rfl
  raised_refused _ _ _ _ _ := rfl
  raised_enclose _ _ _ _ := rfl
  raised_restated _ _ _ _ _ _ := rfl
  halts_exhausted := rfl

instance (P : Grammar → Prop) : Discipline.contract.AdmitsLiterals P :=
  ⟨fun _ _ _ => rfl, fun _ _ _ => rfl⟩

theorem Span.isEmpty_iff {p q : Position} (h : p.offset ≤ q.offset) :
    (Span.mk p q).isEmpty = true ↔ q.offset = p.offset := by
  rw [isEmpty, byteLength, beq_iff_eq]
  show q.offset - p.offset = 0 ↔ _
  omega

/-- The contract is what the discipline says, told of a whole run. -/
theorem Parser.keepsContract_of_governs {α : Type} {p : Parser α}
    (h : Discipline.contract.Governs p.run) : p.KeepsContract := by
  intro s hs
  have ends := h s hs
  rw [Run.Ends] at ends
  cases hrun : p.run s with
  | ok m t =>
    rw [hrun] at ends
    obtain ⟨walk, exact_span⟩ := ends
    have hle := walk.offset_le
    have hspan := exact_span trivial
    refine ⟨walk.input, hspan, hle, ?_⟩
    rw [hspan]
    exact Span.isEmpty_iff hle
  | failed f t => rwa [hrun] at ends
  | halted cause t => rwa [hrun] at ends

namespace Grammar

/-- The contract holds of the grammar in whichever way it is run: with rules entered to any depth,
as deep as its input asks for, or by a handle from outside the rule whose body it is. -/
theorem plain_keepsContract {g : Grammar} (hg : g.Plain) (node : NodeId) :
    (∀ depth, (g.parserWithin depth node).KeepsContract) ∧ (g.toParser node).KeepsContract ∧
      ∀ kind label probe, (Deferred.mk kind label g probe).handle.KeepsContract := by
  have leaves : ∀ p, (∀ q, Grammar.custom p ≠ .custom q) → Discipline.contract.Governs p.run :=
    fun p own => absurd rfl (own p)
  refine ⟨?_, ?_, ?_⟩
  · intro depth
    exact Parser.keepsContract_of_governs (Discipline.governs_parserWithin leaves hg depth node)
  · exact Parser.keepsContract_of_governs (Discipline.governs_toParser leaves hg node)
  · intro kind label probe
    exact Parser.keepsContract_of_governs (Discipline.governs_handle leaves hg)

def brackets : Grammar :=
  .recursive "brackets" (.optional (.between (.codePoint "(" '(') (.reference "brackets")
    (.codePoint ")" ')')))

theorem brackets_plain : brackets.Plain := by
  have leaf : ∀ label c, (Grammar.codePoint label c).Plain := fun _ _ => .leaf nofun rfl
  have inner : (Grammar.reference "brackets").Plain := .leaf nofun rfl
  refine .unary nofun rfl (.unary nofun rfl (.node nofun ?_))
  simp only [parts, List.forall_mem_cons]
  exact ⟨leaf _ _, inner, leaf _ _, List.forall_mem_nil _⟩

theorem brackets_keepsContract :
    brackets.Plain ∧ (Reader.startAt ['é', '(', ')', ')'] ⟨2, 5, 3⟩).OnBoundary ∧
      ∃ m t, (brackets.toParser []).run
          ⟨Reader.startAt ['é', '(', ')', ')'] ⟨2, 5, 3⟩, .empty⟩ = .ok m t ∧
        m.span = ⟨⟨2, 5, 3⟩, t.reader.position⟩ ∧ 2 ≤ t.reader.offset := by
  have boundary : (Reader.startAt ['é', '(', ')', ')'] ⟨2, 5, 3⟩).OnBoundary := by decide
  obtain ⟨m, t, matched⟩ : ∃ m t, (brackets.toParser []).run
      ⟨Reader.startAt ['é', '(', ')', ')'] ⟨2, 5, 3⟩, .empty⟩ = .ok m t := ⟨_, _, rfl⟩
  have kept := (plain_keepsContract brackets_plain []).2.1
    ⟨Reader.startAt ['é', '(', ')', ')'] ⟨2, 5, 3⟩, .empty⟩ boundary
  rw [matched] at kept
  exact ⟨brackets_plain, boundary, m, t, matched, kept.2.1, kept.2.2.1⟩

end Grammar

end RecursiveDescent
