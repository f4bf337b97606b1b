import RecursiveDescent.Proofs.Dependable
import RecursiveDescent.Proofs.Shielding

/-!
# Ordered choice

The alternatives of a choice are run one after the other from one place, each with the store that
the one before it has left, up to the first that does not fail. The choice ends as this one does,
and it makes no difference whether an alternative is one of the choice itself or of a choice in it.
-/
namespace RecursiveDescent

/-- The outcomes are the same, except that failures need only have the same root, and this only if
`rooted`. -/
inductive Outcome.SameButLevels {α : Type} (rooted : Prop) : Outcome α → Outcome α → Prop
  | ok {a : α} {s : State} : SameButLevels rooted (.ok a s) (.ok a s)
  | failed {f g : Failure} {s : State} : (rooted → f.root = g.root) →
    SameButLevels rooted (.failed f s) (.failed g s)
  | halted {cause : Halt} {s : State} : SameButLevels rooted (.halted cause s) (.halted cause s)

theorem Outcome.SameButLevels.refl {α : Type} {rooted : Prop} (o : Outcome α) :
    SameButLevels rooted o o := by
  cases o with
  | ok a s => exact .ok
  | failed f s => exact .failed fun _ => rfl
  | halted cause s => exact .halted

namespace Parser

variable {α : Type} {p : Parser α} {ps qs a b c before after : List (Parser α)} {r : Reader}
  {s t : State} {store store' store₀ : Store} {f : Failure} {fs gs : List Failure}
  {last : Option Failure} {o : Outcome (Match α)}

/-- The parsers fail one after the other, each run from the same reader. They may take the reader
anywhere in its text before they fail. -/
inductive FailInTurn (r : Reader) : Store → List (Parser α) → List Failure → Store → Prop
  | none {store : Store} : FailInTurn r store [] [] store
  | more {p : Parser α} {ps : List (Parser α)} {f : Failure} {fs : List Failure} {t : State}
    {store store' : Store} : p.run ⟨r, store⟩ = .failed f t → t.reader.input = r.input →
    FailInTurn r t.store ps fs store' → FailInTurn r store (p :: ps) (f :: fs) store'

/-- One of the parsers does not fail but ends with the outcome, and all before it fail in turn. -/
def EndsInTurn (r : Reader) (store : Store) (ps : List (Parser α)) (o : Outcome (Match α)) :
    Prop :=
  (∀ f t, o ≠ .failed f t) ∧ ∃ before p after fs store', ps = before ++ p :: after ∧
    FailInTurn r store before fs store' ∧ p.run ⟨r, store'⟩ = o

/-- What a choice fails with at the reader, by the failure of its last alternative. -/
def choiceFailure (label : String) (r : Reader) : Option Failure → Failure
  | some cause => cause.enclose choiceFailed r
  | none => .here choiceFailed label r.found r

theorem root_choiceFailure (label : String) (r : Reader) (cause : Failure) :
    (choiceFailure label r (some cause)).root = cause.root :=
  cause.root_enclose choiceFailed r

/-- In a choice or in a choice in it, the last of the failures has the same root. -/
theorem root_choiceFailure_nested (ne : gs ≠ []) (label label' inner : String) (r : Reader)
    (fs fs' : List Failure) :
    (choiceFailure label r (fs ++ [choiceFailure inner r gs.getLast?] ++ fs').getLast?).root =
      (choiceFailure label' r (fs ++ gs ++ fs').getLast?).root := by
  rw [List.getLast?_append, List.getLast?_concat, List.getLast?_append, List.getLast?_append,
    List.getLast?_eq_some_getLast ne]
  cases fs'.getLast? with
  | some f => rw [Option.some_or, Option.some_or, root_choiceFailure, root_choiceFailure]
  | none =>
    rw [Option.none_or, Option.none_or, Option.some_or, root_choiceFailure, root_choiceFailure,
      root_choiceFailure]

theorem KeepsText.input_of_failed (h : p.KeepsText) (failed : p.run s = .failed f t) :
    t.reader.input = s.reader.input := by
  have kept := h s
  rwa [failed] at kept

namespace FailInTurn

theorem append (h : FailInTurn r store ps fs store₀) (h' : FailInTurn r store₀ qs gs store') :
    FailInTurn r store (ps ++ qs) (fs ++ gs) store' := by
  induction h with
  | none => exact h'
  | more failed kept _ ih => exact .more failed kept (ih h')

theorem ne_nil (h : FailInTurn r store ps fs store') (ne : ps ≠ []) : fs ≠ [] := by
  cases h with
  | none => exact absurd rfl ne
  | more _ _ _ => exact List.cons_ne_nil _ _

theorem endsInTurn (h : FailInTurn r store ps fs store₀) (h' : EndsInTurn r store₀ qs o) :
    EndsInTurn r store (ps ++ qs) o := by
  obtain ⟨ends, before, p, after, gs, store', rfl, failed, ran⟩ := h'
  exact ⟨ends, ps ++ before, p, after, fs ++ gs, store', (List.append_assoc ..).symm,
    h.append failed, ran⟩

end FailInTurn

/-- What stands behind the alternative that ends a choice is not run. -/
theorem EndsInTurn.append (h : EndsInTurn r store ps o) (qs : List (Parser α)) :
    EndsInTurn r store (ps ++ qs) o := by
  obtain ⟨ends, before, p, after, fs, store', rfl, failed, ran⟩ := h
  exact ⟨ends, before, p, after ++ qs, fs, store', List.append_assoc .., failed, ran⟩

theorem endsInTurn_single (ran : p.run ⟨r, store⟩ = o) (ends : ∀ f t, o ≠ .failed f t) :
    EndsInTurn r store [p] o :=
  ⟨ends, [], p, [], [], store, rfl, .none, ran⟩

/-- The alternatives all fail in turn, or one of them ends the choice. -/
theorem fail_or_end_inTurn (keeps : ∀ p ∈ ps, p.KeepsText) (r : Reader) (store : Store) :
    (∃ fs store', FailInTurn r store ps fs store') ∨ ∃ o, EndsInTurn r store ps o := by
  induction ps generalizing store with
  | nil => exact .inl ⟨[], store, .none⟩
  | cons p ps ih =>
    obtain ⟨first, others⟩ := List.forall_mem_cons.mp keeps
    cases ran : p.run ⟨r, store⟩ with
    | failed f t =>
      have failed : FailInTurn r store [p] [f] t.store :=
        .more ran (first.input_of_failed ran) .none
      rcases ih others t.store with ⟨fs, store', later⟩ | ⟨o, ends⟩
      · exact .inl ⟨f :: fs, store', failed.append later⟩
      · exact .inr ⟨o, failed.endsInTurn ends⟩
    | ok m t => exact .inr ⟨_, (endsInTurn_single ran nofun).append ps⟩
    | halted cause t => exact .inr ⟨_, (endsInTurn_single ran nofun).append ps⟩

/-! ## What a choice makes of it -/

theorem choiceFrom_nil (label : String) (start : Position) (s : State) :
    choiceFrom label start last ([] : List (Parser α)) s =
      .failed (choiceFailure label s.reader last) s := by
  cases last with
  | some cause => rfl
  | none =>
    rw [choiceFrom, Run.bind_apply, Run.found, choiceFailure, Reader.found]
    dsimp only [Run.bind_apply, Run.reader]
    cases s.reader.peek? <;> rfl

theorem choiceFrom_cons (label : String) (start : Position) (s : State) :
    choiceFrom label start last (p :: ps) s = match p.run s with
      | .ok m t => .ok m t
      | .failed f t => (do Run.rewind start; choiceFrom label start (some f) ps) t
      | .halted cause t => .halted cause t := by
  cases last with
  | none | some cause =>
    rw [choiceFrom, Run.bind_apply, Run.observe]
    cases p.run s <;> rfl

section FromOnePlace

variable (inText : r.offset ≤ r.input.byteLength) (label : String)
include inText

/-- Alternatives that fail leave the choice where it was, with the last failure and their store. -/
theorem FailInTurn.choiceFrom_append (h : FailInTurn r store ps fs store')
    (qs : List (Parser α)) :
    choiceFrom label r.position last (ps ++ qs) ⟨r, store⟩ =
      choiceFrom label r.position (fs.getLast?.or last) qs ⟨r, store'⟩ := by
  induction h generalizing last with
  | none => rw [List.getLast?_nil, Option.none_or, List.nil_append]
  | @more p ps f fs t store store' failed kept _ ih =>
    rw [List.cons_append, choiceFrom_cons, failed]
    dsimp only
    rw [Run.bind_of_ok (Run.rewind_to kept inText), ih, List.getLast?_cons, Option.or_some]
    rfl

theorem FailInTurn.run_choice (h : FailInTurn r store ps fs store') :
    (choice label ps).run ⟨r, store⟩ =
      .failed (choiceFailure label r fs.getLast?) ⟨r, store'⟩ := by
  have ran : choiceFrom label r.position Option.none (ps ++ []) ⟨r, store⟩ = _ :=
    h.choiceFrom_append inText label []
  rw [List.append_nil, Option.or_none, choiceFrom_nil] at ran
  exact ran

theorem EndsInTurn.run_choice (h : EndsInTurn r store ps o) :
    (choice label ps).run ⟨r, store⟩ = o := by
  obtain ⟨ends, before, p, after, fs, store', rfl, failed, ran⟩ := h
  refine (failed.choiceFrom_append inText label (p :: after)).trans ?_
  rw [choiceFrom_cons, ran]
  cases o with
  | ok m t => rfl
  | failed f t => exact absurd rfl (ends f t)
  | halted cause t => rfl

/-- A choice succeeds with the first alternative that does not fail. -/
theorem choice_ok_iff (keeps : ∀ p ∈ ps, p.KeepsText) {m : Match α} :
    (choice label ps).run ⟨r, store⟩ = .ok m t ↔ EndsInTurn r store ps (.ok m t) := by
  refine ⟨fun matched => ?_, EndsInTurn.run_choice inText label⟩
  rcases fail_or_end_inTurn keeps r store with ⟨fs, store', failed⟩ | ⟨o, ends⟩
  · cases (failed.run_choice inText label).symm.trans matched
  · rwa [← matched, ends.run_choice inText label]

/-- It fails only if all alternatives do, each from where the choice began. -/
theorem choice_failed_iff (keeps : ∀ p ∈ ps, p.KeepsText) :
    (choice label ps).run ⟨r, store⟩ = .failed f t ↔
      ∃ fs store', FailInTurn r store ps fs store' ∧ t = ⟨r, store'⟩ ∧
        f = choiceFailure label r fs.getLast? := by
  constructor
  · intro ran
    rcases fail_or_end_inTurn keeps r store with ⟨fs, store', failed⟩ | ⟨o, ends⟩
    · cases (failed.run_choice inText label).symm.trans ran
      exact ⟨fs, store', failed, rfl, rfl⟩
    · obtain rfl := (ends.run_choice inText label).symm.trans ran
      exact absurd rfl (ends.1 f t)
  · rintro ⟨fs, store', failed, rfl, rfl⟩
    exact failed.run_choice inText label

/-- Two choices that one outcome ends have it in common, whatever their labels. -/
theorem same_choices (label' : String) (rooted : Prop) (h : EndsInTurn r store ps o)
    (h' : EndsInTurn r store qs o) :
    ((choice label ps).run ⟨r, store⟩).SameButLevels rooted
      ((choice label' qs).run ⟨r, store⟩) := by
  rw [h.run_choice inText label, h'.run_choice inText label']
  exact .refl o

/-- It makes no difference whether alternatives are in the choice or in a choice in it. -/
theorem choice_nested (keeps : ∀ p ∈ a ++ b ++ c, p.KeepsText) (label' inner : String) :
    ((choice label (a ++ [choice inner b] ++ c)).run ⟨r, store⟩).SameButLevels (b ≠ [])
      ((choice label' (a ++ b ++ c)).run ⟨r, store⟩) := by
  rw [List.forall_mem_append, List.forall_mem_append] at keeps
  obtain ⟨⟨keepsA, keepsB⟩, keepsC⟩ := keeps
  rcases fail_or_end_inTurn keepsA r store with ⟨fs, store₁, failedA⟩ | ⟨o, ends⟩
  case inr =>
    exact same_choices inText _ _ _ ((ends.append _).append c) ((ends.append b).append c)
  rcases fail_or_end_inTurn keepsB r store₁ with ⟨gs, store₂, failedB⟩ | ⟨o, ends⟩
  case inr =>
    have inside : EndsInTurn r store₁ [choice inner b] o :=
      endsInTurn_single (ends.run_choice inText inner) ends.1
    exact same_choices inText _ _ _ ((failedA.endsInTurn inside).append c)
      ((failedA.endsInTurn ends).append c)
  have inside : FailInTurn r store₁ [choice inner b] _ store₂ :=
    .more (failedB.run_choice inText inner) rfl .none
  rcases fail_or_end_inTurn keepsC r store₂ with ⟨fs', store₃, failedC⟩ | ⟨o, ends⟩
  case inr =>
    exact same_choices inText _ _ _ ((failedA.append inside).endsInTurn ends)
      ((failedA.append failedB).endsInTurn ends)
  rw [((failedA.append inside).append failedC).run_choice inText label,
    ((failedA.append failedB).append failedC).run_choice inText label']
  exact .failed fun ne => root_choiceFailure_nested (failedB.ne_nil ne) label label' inner r fs fs'

end FromOnePlace

/-- The choice is made by what the alternatives do where it is run: the first to succeed there makes
it, and if there is none, the last one is the cause of the failure. -/
structure ChoosesFirst (label : String) (ps : List (Parser α)) (s : State) : Prop where
  succeeds : (choice label ps).SucceedsAt s ↔ ∃ p ∈ ps, p.SucceedsAt s
  first {before after : List (Parser α)} {p : Parser α} {m : Match α} {t : State} :
    ps = before ++ p :: after → (∀ q ∈ before, ¬ q.SucceedsAt s) → p.run s = .ok m t →
    ∃ store, (choice label ps).run s = .ok m ⟨t.reader, store⟩
  restores : (∀ p ∈ ps, ¬ p.SucceedsAt s) →
    ∃ f store, (choice label ps).run s = .failed f ⟨s.reader, store⟩
  last {before : List (Parser α)} {p : Parser α} :
    ps = before ++ [p] → (∀ q ∈ ps, ¬ q.SucceedsAt s) → ∃ f t store, p.run s = .failed f t ∧
      (choice label ps).run s = .failed (f.enclose choiceFailed s.reader) ⟨s.reader, store⟩

/-- Among the members of a list none is such, or there is a first one. -/
theorem none_or_first (P : Parser α → Prop) (ps : List (Parser α)) :
    (∀ p ∈ ps, ¬ P p) ∨
      ∃ before p after, ps = before ++ p :: after ∧ (∀ q ∈ before, ¬ P q) ∧ P p := by
  induction ps with
  | nil => exact .inl (List.forall_mem_nil _)
  | cons p ps ih =>
    by_cases holds : P p
    · exact .inr ⟨[], p, ps, rfl, List.forall_mem_nil _, holds⟩
    · rcases ih with none | ⟨before, q, after, rfl, none, first⟩
      · exact .inl (List.forall_mem_cons.mpr ⟨holds, none⟩)
      · exact .inr ⟨p :: before, q, after, rfl, List.forall_mem_cons.mpr ⟨holds, none⟩, first⟩

/-- From the reader the parser does not halt and does the same whatever the store. -/
def Answers (S : Setting) (p : Parser α) (r : Reader) : Prop :=
  ∃ v, S.Settles p.run r v ∧ ∀ cause, v ≠ .halts cause

section WhereItIsRun

variable {S : Setting}

theorem Dependable.answers (h : p.Dependable S) (hs : S.Holds s)
    (ends : ∀ cause t, p.run s ≠ .halted cause t) : p.Answers S s.reader :=
  ⟨_, Setting.settles_verdict h hs.reader hs.store, fun cause halts =>
    ends cause _ (Outcome.eq_halted_of_verdict halts)⟩

theorem Answers.settles_fails (h : p.Answers S s.reader) (hs : S.stores s.store)
    (none : ¬ p.SucceedsAt s) : ∃ f r', S.Settles p.run s.reader (.fails f r') := by
  obtain ⟨v, settles, ends⟩ := h
  cases v with
  | gives m r' => exact absurd (settles.succeedsAt hs) none
  | fails f r' => exact ⟨f, r', settles⟩
  | halts cause => exact absurd rfl (ends cause)

theorem Answers.settles_gives {m : Match α} (h : p.Answers S s.reader) (hs : S.stores s.store)
    (ran : p.run s = .ok m t) : S.Settles p.run s.reader (.gives m t.reader) := by
  obtain ⟨v, settles, -⟩ := h
  obtain rfl : .gives m t.reader = v := by
    rw [← (settles s.store hs).1, show p.run ⟨s.reader, s.store⟩ = _ from ran]
    rfl
  exact settles

/-- Parsers that do not succeed at the state fail in turn with any store. -/
theorem failInTurn_of_none (keeps : ∀ p ∈ ps, p.KeepsText) (hs : S.stores s.store)
    (answers : ∀ p ∈ ps, p.Answers S s.reader) (none : ∀ p ∈ ps, ¬ p.SucceedsAt s)
    (hstore : S.stores store) :
    ∃ fs store', FailInTurn s.reader store ps fs store' ∧ S.stores store' := by
  induction ps generalizing store with
  | nil => exact ⟨[], store, .none, hstore⟩
  | cons p ps ih =>
    rw [List.forall_mem_cons] at keeps answers none
    obtain ⟨f, r', settles⟩ := answers.1.settles_fails hs none.1
    obtain ⟨store₁, ran, kept⟩ := settles.exists_failed hstore
    have stays := keeps.1.input_of_failed ran
    obtain ⟨fs, store', failed, kept'⟩ := ih keeps.2 answers.2 none.2 kept
    exact ⟨f :: fs, store', .more ran stays failed, kept'⟩

/-- Alternatives that do not succeed are passed over, whatever the store. -/
theorem choice_of_first (hs : S.Holds s) (keeps : ∀ p ∈ before, p.KeepsText)
    (answers : ∀ p ∈ before, p.Answers S s.reader) (none : ∀ p ∈ before, ¬ p.SucceedsAt s)
    (answer : p.Answers S s.reader) {m : Match α} (ran : p.run s = .ok m t) (label : String) :
    ∃ store, (choice label (before ++ p :: after)).run s = .ok m ⟨t.reader, store⟩ := by
  obtain ⟨fs, store₁, failed, kept⟩ := failInTurn_of_none keeps hs.store answers none hs.store
  obtain ⟨store₂, ran', -⟩ := (answer.settles_gives hs.store ran).exists_ok kept
  have ends := failed.endsInTurn ((endsInTurn_single ran' nofun).append after)
  exact ⟨store₂, ends.run_choice (S.inText hs.reader) label⟩

/-- If none succeeds, the failure of the last one is the cause. -/
theorem choice_of_last (hs : S.Holds s) (keeps : ∀ q ∈ before ++ [p], q.KeepsText)
    (answers : ∀ q ∈ before ++ [p], q.Answers S s.reader)
    (none : ∀ q ∈ before ++ [p], ¬ q.SucceedsAt s) (label : String) :
    ∃ f t store, p.run s = .failed f t ∧ (choice label (before ++ [p])).run s =
      .failed (f.enclose choiceFailed s.reader) ⟨s.reader, store⟩ := by
  rw [List.forall_mem_append, List.forall_mem_singleton] at keeps answers none
  obtain ⟨fs, store₁, failed, kept⟩ :=
    failInTurn_of_none keeps.1 hs.store answers.1 none.1 hs.store
  obtain ⟨f, r', settles⟩ := answers.2.settles_fails hs.store none.2
  obtain ⟨_, here, -⟩ := settles.exists_failed hs.store
  obtain ⟨store₂, ran, -⟩ := settles.exists_failed kept
  have stays := keeps.2.input_of_failed ran
  have all := failed.append (.more ran stays .none)
  have result := all.run_choice (S.inText hs.reader) label
  rw [List.getLast?_concat] at result
  exact ⟨f, _, store₂, here, result⟩

theorem choosesFirst (hs : S.Holds s) (keeps : ∀ p ∈ ps, p.KeepsText)
    (answers : ∀ p ∈ ps, p.Answers S s.reader) (label : String) : ChoosesFirst label ps s := by
  have restores : (∀ p ∈ ps, ¬ p.SucceedsAt s) →
      ∃ f store, (choice label ps).run s = .failed f ⟨s.reader, store⟩ := by
    intro none
    obtain ⟨fs, store, failed, -⟩ := failInTurn_of_none keeps hs.store answers none hs.store
    exact ⟨_, store, failed.run_choice (S.inText hs.reader) label⟩
  have first : ∀ {before after p m t}, ps = before ++ p :: after →
      (∀ q ∈ before, ¬ q.SucceedsAt s) → p.run s = .ok m t →
      ∃ store, (choice label ps).run s = .ok m ⟨t.reader, store⟩ := by
    rintro before after p m t rfl none ran
    rw [List.forall_mem_append, List.forall_mem_cons] at keeps answers
    exact choice_of_first hs keeps.1 answers.1 none answers.2.1 ran label
  refine ⟨⟨?_, ?_⟩, first, restores, ?_⟩
  · rintro ⟨m, t, matched⟩
    rcases none_or_first (SucceedsAt · s) ps with none | ⟨before, p, after, rfl, -, succeeds⟩
    · obtain ⟨f, store, failed⟩ := restores none
      cases failed.symm.trans matched
    · exact ⟨p, List.mem_append_right before List.mem_cons_self, succeeds⟩
  · rintro ⟨p, mem, succeeds⟩
    rcases none_or_first (SucceedsAt · s) ps with none | ⟨before, q, after, split, none, m, t, ran⟩
    · exact absurd succeeds (none p mem)
    · obtain ⟨store, matched⟩ := first split none ran
      exact ⟨m, _, matched⟩
  · rintro before p rfl none
    exact choice_of_last hs keeps answers none label

end WhereItIsRun

/-- Where all alternatives answer, the choice is made by what each does at the start. In any case it
is made by the first that does not fail with what the ones before it left in the store, and fails
back at the start with the last failure as its cause. That one of the alternatives is itself a
choice makes no difference, except for the levels around the root of a failure. -/
theorem choice_takes_first (inText : s.reader.offset ≤ s.reader.input.byteLength) :
    (∀ label (ps : List (Parser α)), (∀ p ∈ ps, p.KeepsText) →
      (∀ S : Setting, S.Holds s → (∀ p ∈ ps, p.Answers S s.reader) → ChoosesFirst label ps s) ∧
      (∀ m t, (choice label ps).run s = .ok m t ↔ EndsInTurn s.reader s.store ps (.ok m t)) ∧
      ∀ f t, (choice label ps).run s = .failed f t ↔ ∃ fs store,
        FailInTurn s.reader s.store ps fs store ∧ t = ⟨s.reader, store⟩ ∧
          f = choiceFailure label s.reader fs.getLast?) ∧
    ∀ label label' inner (a b c : List (Parser α)), (∀ p ∈ a ++ b ++ c, p.KeepsText) →
      ((choice label (a ++ [choice inner b] ++ c)).run s).SameButLevels (b ≠ [])
        ((choice label' (a ++ b ++ c)).run s) := by
  refine ⟨fun label ps keeps => ⟨?_, ?_, ?_⟩, ?_⟩
  · exact fun S hs answers => choosesFirst hs keeps answers label
  · exact fun m t => choice_ok_iff inText label keeps
  · exact fun f t => choice_failed_iff inText label keeps
  · exact fun label label' inner a b c keeps => choice_nested inText label keeps label' inner

/-- Leaks are undone before the next alternative, which matches at the start or fails there. -/
theorem choice_takes_first_past_leaks :
    let s : State := ⟨Reader.startAt ['é', 'b', 'c'] ⟨2, 1, 2⟩, .empty⟩
    let leak : Parser Value := leaky "leak" 1
    let char : Parser Value := (Grammar.codePoint "b" 'b').toParser []
    s.reader.offset ≤ s.reader.input.byteLength ∧
    (∃ m r store, (choice "or" [leak, char]).run s = .ok m ⟨r, store⟩ ∧ r.position = ⟨3, 1, 3⟩) ∧
    ∃ f g t, (choice "or" [leak, choice "inner" [leak]]).run s = .failed f t ∧
      (choice "flat" [leak, leak]).run s = .failed g t ∧ f.root = g.root := by
  intro s leak char
  have inText : s.reader.offset ≤ s.reader.input.byteLength := by decide
  have boundary : s.reader.OnBoundary := by decide
  have holds : Setting.undropped.Holds s := ⟨boundary, rfl⟩
  have plain : (Grammar.codePoint "b" 'b').Plain := .leaf nofun rfl
  have mayLeak : (Grammar.codePoint "b" 'b').MayLeak := .leaf nofun rfl
  have leakKeeps : leak.KeepsText := (leaky_mayLeak "leak" 1).1
  have charKeeps : char.KeepsText := (mayLeak.parsers []).2.1
  have leakAnswers : leak.Answers .undropped s.reader := by
    let further := Reader.startAt ['é', 'b', 'c'] ⟨3, 1, 3⟩
    let f := Failure.here "leaked" "anything" "nothing" further
    exact ⟨.fails f further, fun _ undropped => ⟨rfl, undropped⟩, nofun⟩
  have charAnswers : char.Answers .undropped s.reader := (plain.dependable []).answers holds nofun
  obtain ⟨choices, nested⟩ := choice_takes_first inText
  refine ⟨inText, ?_, ?_⟩
  · have chosen := (choices "or" [leak, char] (by simp [leakKeeps, charKeeps])).1 .undropped holds
      (by simp [leakAnswers, charAnswers])
    have split : [leak, char] = [leak] ++ char :: [] := rfl
    have none : ∀ q ∈ [leak], ¬ q.SucceedsAt s :=
      List.forall_mem_singleton.mpr fun ⟨m, t, ok⟩ => by cases ok
    obtain ⟨m, t, ran, stands⟩ : ∃ m t, char.run s = .ok m t ∧ t.reader.position = ⟨3, 1, 3⟩ :=
      ⟨_, _, rfl, rfl⟩
    obtain ⟨store, matched⟩ := chosen.first split none ran
    exact ⟨m, t.reader, store, matched, stands⟩
  · have same : ((choice "or" [leak, choice "inner" [leak]]).run s).SameButLevels ([leak] ≠ [])
        ((choice "flat" [leak, leak]).run s) :=
      nested "or" "flat" "inner" [leak] [leak] [] (by simp [leakKeeps])
    obtain ⟨f, t, failed⟩ : ∃ f t, (choice "or" [leak, choice "inner" [leak]]).run s =
        .failed f t := ⟨_, _, rfl⟩
    obtain ⟨g, u, failed'⟩ : ∃ g u, (choice "flat" [leak, leak]).run s = .failed g u :=
      ⟨_, _, rfl⟩
    rw [failed, failed'] at same
    cases same with
    | failed roots => exact ⟨f, g, t, failed, failed', roots (List.cons_ne_nil leak [])⟩

end Parser

end RecursiveDescent
