import RecursiveDescent.Parser.Handmade
import RecursiveDescent.Proofs.Discipline

/-!
# Failures handed on

A filter answers for the values it refuses: it gives back what they took before it fails. A lexeme
has nothing to answer for, as white space never fails. Whatever else they fail with is the failure
of the parser in them, handed on with the reader where that parser left it. So they go back where
that parser does, and only there.
-/
namespace RecursiveDescent.Parser

variable {α : Type} {p : Parser α} {s t u : State} {m : Match α} {f : Failure} {label : String}
  {accepts : α → Bool}

def GoesBack (p : Parser α) (s : State) : Prop :=
  ∀ f t, p.run s = .failed f t → t.reader.position = s.reader.position

/-- How a filter fails by itself: the parser in it matched and left the state `u`, and the reader
was taken back from there. -/
structure RefusesMatch (label : String) (p : Parser α) (s : State) (m : Match α) (u : State)
    (f : Failure) (t : State) : Prop where
  back : u.reader.rewind s.reader.position = .ok t.reader
  store : t.store = u.store
  failure : f = .here s!"Filter rejected {p.label}" label
    (String.ofList (m.text t.reader.input)) t.reader

/-- From a match that is refused the reader goes back to where it began. -/
theorem RefusesMatch.position (h : RefusesMatch label p s m u f t) :
    t.reader.position = s.reader.position := by
  have back := h.back
  rw [Reader.rewind] at back
  by_cases inside : s.reader.position.offset ≤ u.reader.input.byteLength
  · rw [if_pos inside] at back
    rw [← Except.ok.inj back]
  · rw [if_neg inside] at back
    cases back

theorem refusesMatch_iff :
    (do
      Run.rewind s.reader.position
      let text := String.ofList (m.text (← Run.input))
      Run.failHere s!"Filter rejected {p.label}" label text : Run (Match α)) u = .failed f t ↔
      RefusesMatch label p s m u f t := by
  rw [Run.bind_apply, Run.rewind]
  constructor
  · intro failed
    cases back : u.reader.rewind s.reader.position with
    | ok r =>
      rw [back] at failed
      cases failed
      exact ⟨back, rfl, rfl⟩
    | error fault =>
      rw [back] at failed
      cases failed
  · rintro ⟨back, store, rfl⟩
    rw [back, ← store]
    rfl

/-- A filter fails with the failure of its parser, or because it refuses the match. -/
theorem filter_failed_iff : (filter label accepts p).run s = .failed f t ↔
    p.run s = .failed f t ∨
      ∃ m u, p.run s = .ok m u ∧ accepts m.value = false ∧ RefusesMatch label p s m u f t := by
  change (p.run >>= _) s = _ ↔ _
  rw [Run.bind_eq_failed_iff]
  refine or_congr_right (exists_congr fun m => exists_congr fun u => and_congr_right fun _ => ?_)
  cases accepted : accepts m.value with
  | true => simp [Run.pure_apply]
  | false => simpa using refusesMatch_iff

/-- A lexeme fails as the parser in it does. -/
theorem lexeme_failed_iff : (lexeme p).run s = .failed f t ↔ p.run s = .failed f t := by
  change (p.run >>= _) s = _ ↔ _
  rw [Run.bind_eq_failed_iff]
  constructor
  · rintro (failed | ⟨m, u, -, failed⟩)
    · exact failed
    · rcases Run.bind_eq_failed_iff.mp failed with never | ⟨trailing, v, -, never⟩
      · exact absurd never (takeWhile_never_fails _ _ u f t)
      · cases never
  · exact .inl

/-- A filter adds nothing to how its parser goes back, and takes nothing from it. -/
theorem filter_goesBack_iff : (filter label accepts p).GoesBack s ↔ p.GoesBack s := by
  constructor
  · intro back f t failed
    exact back f t (filter_failed_iff.mpr (.inl failed))
  · intro back f t failed
    rcases filter_failed_iff.mp failed with within | ⟨m, u, -, -, refuses⟩
    · exact back f t within
    · exact refuses.position

theorem lexeme_goesBack_iff : (lexeme p).GoesBack s ↔ p.GoesBack s :=
  forall_congr' fun _ => forall_congr' fun _ => imp_congr_left lexeme_failed_iff

/-- What a filter and a lexeme fail with: their own failures leave the reader where they began, and
any other is that of the parser in them, whatever it did to the reader. They go back from a state
just if that parser does. -/
theorem refinements_go_back (p : Parser α) (s : State) :
    (∀ label accepts f t, (filter label accepts p).run s = .failed f t ↔
      p.run s = .failed f t ∨
        ∃ m u, p.run s = .ok m u ∧ accepts m.value = false ∧ RefusesMatch label p s m u f t) ∧
    (∀ label m u f t, RefusesMatch label p s m u f t →
      t.reader.position = s.reader.position) ∧
    (∀ f t, (lexeme p).run s = .failed f t ↔ p.run s = .failed f t) ∧
    (∀ label accepts, (filter label accepts p).GoesBack s ↔ p.GoesBack s) ∧
    ((lexeme p).GoesBack s ↔ p.GoesBack s) :=
  ⟨fun _ _ _ _ => filter_failed_iff, fun _ _ _ _ _ => RefusesMatch.position,
    fun _ _ => lexeme_failed_iff, fun _ _ => filter_goesBack_iff, lexeme_goesBack_iff⟩

/-- A filter that refuses two characters, and a lexeme of three where there are two. -/
theorem refinements_go_back_from_letters :
    let s : State := ⟨Reader.startAt ['é', 'a', 'b'] ⟨2, 1, 2⟩, .empty⟩
    let digits := filter "digits" (List.all · Unicode.isAsciiDigit) (handmade "two" 2 .real)
    let spaced := lexeme (handmade "three" 3 .real)
    s.reader.OnBoundary ∧
      (∃ f t, digits.run s = .failed f t ∧ t.reader.position = s.reader.position) ∧
      ∃ f t, spaced.run s = .failed f t ∧ t.reader.position = s.reader.position := by
  intro s digits spaced
  have boundary : s.reader.OnBoundary := by decide
  have two : (handmade "two" 2 .real).GoesBack s := nofun
  have three : (handmade "three" 3 .real).GoesBack s := by
    rintro f t ⟨⟩
    rfl
  have digitsBack : digits.GoesBack s :=
    ((refinements_go_back (handmade "two" 2 .real) s).2.2.2.1 _ _).mpr two
  have spacedBack : spaced.GoesBack s :=
    (refinements_go_back (handmade "three" 3 .real) s).2.2.2.2.mpr three
  exact ⟨boundary, ⟨_, _, rfl, digitsBack _ _ rfl⟩, ⟨_, _, rfl, spacedBack _ _ rfl⟩⟩

/-- Neither undoes what a parser has taken before it failed. -/
theorem refinements_leave_leak :
    let s : State := ⟨Reader.start ['a', 'b'], .empty⟩
    let leak : Parser Unit := leaky "leak" 1
    s.reader.OnBoundary ∧
      (∃ f t, (filter "any" (fun _ => true) leak).run s = .failed f t ∧
        t.reader.position ≠ s.reader.position) ∧
      ∃ f t, (lexeme leak).run s = .failed f t ∧ t.reader.position ≠ s.reader.position := by
  intro s leak
  have boundary : s.reader.OnBoundary := by decide
  exact ⟨boundary, ⟨_, _, rfl, by decide⟩, ⟨_, _, rfl, by decide⟩⟩

end RecursiveDescent.Parser
