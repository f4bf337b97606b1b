import RecursiveDescent.Parser.Choice
import RecursiveDescent.Parser.Repeat
import RecursiveDescent.Proofs.Dependable

/-!
# Repeated items

Every repetition of an item goes in rounds that take a byte or more, up to a place where there is no
such round. What it collects is known from what the item does there: it fails, and the repetition
ends before it; or it takes nothing, and is kept. So a repetition that asks for one item is one that
need not find any, unless it does not; and a repetition of an optional item has the same rounds, and
one missing item at their end.
-/
namespace RecursiveDescent

variable {α β : Type} {S : Setting}

namespace Parser

inductive Advances (p : Parser α) : State → List α → State → Prop
  | none {s : State} : Advances p s [] s
  | more {s t u : State} {m : Match α} {as : List α} : p.run s = .ok m t →
    m.span.isEmpty = false → t.reader.bytesLeft < s.reader.bytesLeft → Advances p t as u →
    Advances p s (m.value :: as) u

variable {p : Parser α} {s t u v : State} {m : Match α} {f : Failure} {cause : Halt}
  {as last : List α}

theorem Abides.bytesLeft_lt (h : p.Abides S) (hs : S.Holds s) (ran : p.run s = .ok m t)
    (further : m.span.isEmpty = false) : t.reader.bytesLeft < s.reader.bytesLeft := by
  obtain ⟨ht, input, span⟩ := h.of_ok hs ran
  have inText := S.inText ht.reader
  rw [span, Span.isEmpty, Span.byteLength, beq_eq_false_iff_ne] at further
  change t.reader.offset - s.reader.offset ≠ 0 at further
  rw [input] at inText
  rw [Reader.bytesLeft, Reader.bytesLeft, input]
  omega

/-- The rounds lead to a place where the parser fails, takes nothing, or halts. -/
theorem Abides.exists_advances (h : p.Abides S) (hs : S.Holds s) :
    ∃ as u, p.Advances s as u ∧ S.Holds u ∧ ∀ m t, p.run u = .ok m t → m.span.isEmpty = true := by
  -- By induction on the bytes ahead, of which each round leaves fewer.
  induction hn : s.reader.bytesLeft using Nat.strongRecOn generalizing s with
  | _ n ih =>
    by_cases more : ∃ m t, p.run s = .ok m t ∧ m.span.isEmpty = false
    · obtain ⟨m, t, ran, further⟩ := more
      have fewer := h.bytesLeft_lt hs ran further
      obtain ⟨as, u, advances, hu, idle⟩ := ih _ (hn ▸ fewer) (h.of_ok hs ran).1 rfl
      exact ⟨m.value :: as, u, .more ran further fewer advances, hu, idle⟩
    · refine ⟨[], s, .none, hs, fun m t ran => ?_⟩
      by_contra further
      exact more ⟨m, t, ran, by simpa using further⟩

/-! ## The loop -/

section Rounds

variable (n : Nat)

/-- An item that takes something is followed by what is left of the rounds. -/
theorem items_of_more (ran : p.run s = .ok m t) (more : m.span.isEmpty = false) :
    items p (n + 1) s = (items p n >>= fun as => pure (m.value :: as)) t := by
  change (p.run.orNothing s.reader.position >>= _) s = _
  rw [Run.bind_of_ok (Run.orNothing_of_ok ran _)]
  simp only [more, Bool.false_eq_true, if_false]

theorem items_of_idle (ran : p.run s = .ok m t) (idle : m.span.isEmpty = true) :
    items p (n + 1) s = .ok [m.value] t := by
  change (p.run.orNothing s.reader.position >>= _) s = _
  rw [Run.bind_of_ok (Run.orNothing_of_ok ran _)]
  simp only [idle, if_true]
  rfl

/-- The first failure ends the items, with what was taken undone. -/
theorem items_of_failed (inText : s.reader.offset ≤ s.reader.input.byteLength)
    (ran : p.run s = .failed f t) (input : t.reader.input = s.reader.input) :
    items p (n + 1) s = .ok [] ⟨s.reader, t.store⟩ := by
  change (p.run.orNothing s.reader.position >>= _) s = _
  rw [Run.bind_of_ok (Run.orNothing_of_failed ran input inText)]
  rfl

theorem items_of_halted (ran : p.run s = .halted cause t) :
    items p (n + 1) s = .halted cause t := by
  change (p.run.orNothing s.reader.position >>= _) s = _
  rw [Run.bind_of_halted (Run.orNothing_of_halted ran _)]

end Rounds

namespace Advances

/-- A loop with rounds enough does them, and has one left for what is behind them. -/
theorem exists_items_eq (advances : p.Advances s as u) {n : Nat} (enough : s.reader.bytesLeft < n) :
    ∃ k, items p n s = (items p (k + 1) >>= fun last => pure (as ++ last)) u := by
  induction advances generalizing n with
  | none =>
    obtain ⟨k, rfl⟩ : ∃ k, n = k + 1 := ⟨n - 1, by omega⟩
    exact ⟨k, by simp only [List.nil_append, bind_pure]⟩
  | more ran further fewer _ ih =>
    obtain ⟨n, rfl⟩ : ∃ k, n = k + 1 := ⟨n - 1, by omega⟩
    obtain ⟨k, later⟩ := ih (n := n) (by omega)
    refine ⟨k, ?_⟩
    rw [items_of_more n ran further, Run.bind_apply, later, ← Run.bind_apply]
    simp only [bind_assoc, pure_bind, List.cons_append]

/-- The items that take something, and then what the round behind them gives. -/
theorem items_eq_ok (advances : p.Advances s as u)
    (stop : ∀ k, items p (k + 1) u = .ok last v) :
    items p (s.reader.bytesLeft + 1) s = .ok (as ++ last) v := by
  obtain ⟨k, all⟩ := advances.exists_items_eq (Nat.lt_succ_self _)
  rw [all, Run.bind_of_ok (stop k)]
  rfl

theorem items_eq_halted (advances : p.Advances s as u)
    (stop : ∀ k, items p (k + 1) u = .halted cause v) :
    items p (s.reader.bytesLeft + 1) s = .halted cause v := by
  obtain ⟨k, all⟩ := advances.exists_items_eq (Nat.lt_succ_self _)
  rw [all, Run.bind_of_halted (stop k)]

end Advances

/-! ## None needed, and one needed -/

theorem itemsAfter_of_idle (idle : m.span.isEmpty = true) : itemsAfter m p t = .ok [] t := by
  rw [itemsAfter, if_pos idle]
  rfl

theorem itemsAfter_of_more (more : m.span.isEmpty = false) :
    itemsAfter m p t = items p (t.reader.bytesLeft + 1) t := by
  simp only [itemsAfter, more, Bool.false_eq_true, if_false]
  rfl

theorem run_many1_of_failed (inText : s.reader.offset ≤ s.reader.input.byteLength)
    (ran : p.run s = .failed f t) (input : t.reader.input = s.reader.input) :
    ∃ g, (many1 p).run s = .failed g ⟨s.reader, t.store⟩ := by
  let once := (f.enclose "Many1 parser failed." s.reader).withExpected s!"{p.label} at least once"
  refine ⟨once.withFound s!"{p.label} zero times", ?_⟩
  change (p.run.observe >>= _) s = _
  rw [Run.bind_apply, Run.observe, ran]
  exact Run.bind_of_ok (Run.rewind_to input inText) _

theorem run_many1_of_halted (ran : p.run s = .halted cause t) :
    (many1 p).run s = .halted cause t := by
  change (p.run.observe >>= _) s = _
  rw [Run.bind_apply, Run.observe, ran]

section AfterTheFirst

variable (ran : p.run s = .ok m t)
include ran

theorem run_many1_of_ok (rest : itemsAfter m p t = .ok as u) :
    (many1 p).run s = .ok ⟨m.value :: as, ⟨s.reader.position, u.reader.position⟩⟩ u := by
  change (p.run.observe >>= _) s = _
  rw [Run.bind_apply, Run.observe, ran]
  change (itemsAfter m p >>= _) t = _
  rw [Run.bind_of_ok rest]
  rfl

theorem run_many1_of_halted_after (rest : itemsAfter m p t = .halted cause u) :
    (many1 p).run s = .halted cause u := by
  change (p.run.observe >>= _) s = _
  rw [Run.bind_apply, Run.observe, ran]
  change (itemsAfter m p >>= _) t = _
  rw [Run.bind_of_halted rest]

end AfterTheFirst

namespace Advances

/-- Where rounds are followed by `last`, that is all of what is collected. -/
theorem run_many_of_ok (advances : p.Advances s as u)
    (stop : ∀ k, items p (k + 1) u = .ok last v) :
    (many p).run s = .ok ⟨as ++ last, ⟨s.reader.position, v.reader.position⟩⟩ v := by
  change (items p (s.reader.bytesLeft + 1) >>= _) s = _
  rw [Run.bind_of_ok (advances.items_eq_ok stop)]
  rfl

theorem run_many_of_halted (advances : p.Advances s as u)
    (stop : ∀ k, items p (k + 1) u = .halted cause v) : (many p).run s = .halted cause v := by
  change (items p (s.reader.bytesLeft + 1) >>= _) s = _
  rw [Run.bind_of_halted (advances.items_eq_halted stop)]

/-- The first round is the one that is needed. -/
theorem run_many1_of_ok (advances : p.Advances s as u) (round : as ≠ [])
    (stop : ∀ k, items p (k + 1) u = .ok last v) :
    (many1 p).run s = .ok ⟨as ++ last, ⟨s.reader.position, v.reader.position⟩⟩ v := by
  cases advances with
  | none => exact absurd rfl round
  | more ran further _ later =>
    have rest := later.items_eq_ok stop
    rw [← itemsAfter_of_more further] at rest
    exact Parser.run_many1_of_ok ran rest

theorem run_many1_of_halted (advances : p.Advances s as u) (halted : p.run u = .halted cause v) :
    (many1 p).run s = .halted cause v := by
  cases advances with
  | none => exact Parser.run_many1_of_halted halted
  | more ran further _ later =>
    have rest := later.items_eq_halted fun k => items_of_halted k halted
    rw [← itemsAfter_of_more further] at rest
    exact run_many1_of_halted_after ran rest

end Advances

/-! ## Optional items -/

theorem run_optional_of_ok (ran : p.run s = .ok m t) :
    (optional p).run s = .ok (m.map some) t := by
  change (p.run.orNothing s.reader.position >>= _) s = _
  rw [Run.bind_of_ok (Run.orNothing_of_ok ran _)]
  rfl

theorem run_optional_of_failed (inText : s.reader.offset ≤ s.reader.input.byteLength)
    (ran : p.run s = .failed f t) (input : t.reader.input = s.reader.input) :
    (optional p).run s = .ok ⟨none, .empty s.reader.position⟩ ⟨s.reader, t.store⟩ := by
  change (p.run.orNothing s.reader.position >>= _) s = _
  rw [Run.bind_of_ok (Run.orNothing_of_failed ran input inText)]
  rfl

theorem run_optional_of_halted (ran : p.run s = .halted cause t) :
    (optional p).run s = .halted cause t := by
  change (p.run.orNothing s.reader.position >>= _) s = _
  rw [Run.bind_of_halted (Run.orNothing_of_halted ran _)]

/-- Items that succeed are present as optional ones. -/
theorem Advances.optional (advances : p.Advances s as u) :
    (Parser.optional p).Advances s (as.map some) u := by
  induction advances with
  | none => exact .none
  | more ran further fewer _ ih => exact .more (run_optional_of_ok ran) further fewer ih

/-! ## The repetitions of one item -/

/-- How the rounds of a repetition end: the item fails, which an optional item gives as `none`, or
it takes nothing, and is kept. -/
inductive EndsRounds (p : Parser α) (u : State) : List α → List (Option α) → State → Prop
  | failed {f : Failure} {v : State} : p.run u = .failed f v → EndsRounds p u [] [none] v
  | idle {m : Match α} {v : State} : p.run u = .ok m v → m.span.isEmpty = true →
    EndsRounds p u [m.value] [] v

/-- How a repetition, one that needs an item, and one of the optional item go together. -/
inductive Repetitions (p : Parser α) (s : State) : Outcome (Match (List α)) →
    Outcome (Match (List α)) → Outcome (Match (List (Option α))) → Prop
  | nothing {f g : Failure} {t : State} : p.run s = .failed f t → t.reader = s.reader →
    Repetitions p s (.ok ⟨[], .empty s.reader.position⟩ t) (.failed g t)
      (.ok ⟨[none], .empty s.reader.position⟩ t)
  | collected {u t : State} {as last : List α} {missing : List (Option α)} {m : Match (List α)} :
    p.Advances s as u → p.EndsRounds u last missing t → m.value = as ++ last → m.value ≠ [] →
    Repetitions p s (.ok m t) (.ok m t) (.ok ⟨m.value.map some ++ missing, m.span⟩ t)
  | halted {cause : Halt} {t : State} : (¬ ∃ f t, p.run s = .failed f t) →
    Repetitions p s (.halted cause t) (.halted cause t) (.halted cause t)

namespace EndsRounds

variable {missing : List (Option α)}

theorem items_eq (ends : p.EndsRounds u last missing v) (h : p.Abides S) (hu : S.Holds u)
    (k : Nat) :
    items p (k + 1) u = .ok last v ∧
      items (optional p) (k + 1) u = .ok (last.map some ++ missing) v := by
  cases ends with
  | failed ran =>
    have back := h.of_failed hu ran
    obtain ⟨r, store⟩ := v
    obtain rfl : r = u.reader := back
    have inText := S.inText hu.reader
    constructor
    · exact items_of_failed k inText ran rfl
    · -- The optional item takes nothing here, so its own loop keeps the `none` and ends.
      have nothing := run_optional_of_failed inText ran rfl
      exact items_of_idle k nothing (Span.isEmpty_empty _)
  | idle ran nothing =>
    exact ⟨items_of_idle k ran nothing, items_of_idle k (run_optional_of_ok ran) nothing⟩

/-- What one needs and there is: the first round, or the last if it is the only one. -/
theorem run_many1 (ends : p.EndsRounds u last missing v) (advances : p.Advances s as u)
    (h : p.Abides S) (hu : S.Holds u) (any : as ++ last ≠ []) :
    (many1 p).run s = .ok ⟨as ++ last, ⟨s.reader.position, v.reader.position⟩⟩ v := by
  by_cases round : as = []
  · -- With no round the item that takes nothing is the first one, which the loop does not see.
    subst round
    cases advances
    cases ends with
    | failed ran => exact absurd rfl any
    | idle ran nothing => exact Parser.run_many1_of_ok ran (itemsAfter_of_idle nothing)
  · exact advances.run_many1_of_ok round fun k => (ends.items_eq h hu k).1

end EndsRounds

/-- Where it fails there is no first item. -/
theorem Advances.eq_nil_of_failed (advances : p.Advances s as u) {missing : List (Option α)}
    (ends : p.EndsRounds u last missing v) (ran : p.run s = .failed f t) : as ++ last = [] := by
  cases advances with
  | none =>
    cases ends with
    | failed _ => rfl
    | idle ran' _ => cases ran.symm.trans ran'
  | more ran' _ _ _ => cases ran.symm.trans ran'

theorem repetitions_of_failed (h : p.Abides S) (hs : S.Holds s) (ran : p.run s = .failed f t) :
    p.Repetitions s ((many p).run s) ((many1 p).run s) ((many (optional p)).run s) := by
  have ends : p.EndsRounds s [] [none] t := .failed ran
  have advances : p.Advances s [] s := .none
  have back := h.of_failed hs ran
  obtain ⟨g, one⟩ := run_many1_of_failed (S.inText hs.reader) ran (congrArg Reader.input back)
  rw [one, advances.run_many_of_ok fun k => (ends.items_eq h hs k).1,
    advances.optional.run_many_of_ok fun k => (ends.items_eq h hs k).2]
  obtain ⟨r, store⟩ := t
  obtain rfl : r = s.reader := back
  exact .nothing ran rfl

theorem repetitions_of_halted (advances : p.Advances s as u) (ran : p.run u = .halted cause v) :
    p.Repetitions s ((many p).run s) ((many1 p).run s) ((many (optional p)).run s) := by
  have goesOn : ¬ ∃ f t, p.run s = .failed f t := by
    rintro ⟨f, t, failed⟩
    cases advances with
    | none => cases failed.symm.trans ran
    | more ran' _ _ _ => cases failed.symm.trans ran'
  rw [advances.run_many1_of_halted ran,
    advances.run_many_of_halted fun k => items_of_halted k ran,
    advances.optional.run_many_of_halted fun k => items_of_halted k (run_optional_of_halted ran)]
  exact .halted goesOn

/-- Either there is no item, or the repetitions collect the same. -/
theorem repetitions_of_ends (h : p.Abides S) (hs : S.Holds s) (advances : p.Advances s as u)
    (hu : S.Holds u) {missing : List (Option α)} (ends : p.EndsRounds u last missing v) :
    p.Repetitions s ((many p).run s) ((many1 p).run s) ((many (optional p)).run s) := by
  by_cases fails : ∃ f t, p.run s = .failed f t
  · obtain ⟨f, t, ran⟩ := fails
    exact repetitions_of_failed h hs ran
  · have any : as ++ last ≠ [] := by
      intro none
      obtain ⟨rfl, rfl⟩ := List.append_eq_nil_iff.mp none
      cases advances
      cases ends with
      | failed ran => exact fails ⟨_, _, ran⟩
    have kept := advances.optional.run_many_of_ok fun k => (ends.items_eq h hu k).2
    rw [← List.append_assoc, ← List.map_append] at kept
    rw [kept, ends.run_many1 advances h hu any,
      advances.run_many_of_ok fun k => (ends.items_eq h hu k).1]
    exact .collected advances ends rfl any

/-- All three repetitions agree, however the items end. -/
theorem repetitions (h : p.Abides S) (hs : S.Holds s) :
    p.Repetitions s ((many p).run s) ((many1 p).run s) ((many (optional p)).run s) := by
  obtain ⟨as, u, advances, hu, idle⟩ := h.exists_advances hs
  cases ran : p.run u with
  | ok m v => exact repetitions_of_ends h hs advances hu (.idle ran (idle m v ran))
  | failed f v => exact repetitions_of_ends h hs advances hu (.failed ran)
  | halted cause v => exact repetitions_of_halted advances ran

/-- A repetition that needs an item gives what one gives that needs none, if that is any item, and
otherwise fails, which is where the item does. A repetition of the optional item has the same items
and the same span, and one that is missing behind them, unless the last took nothing. -/
theorem repetitions_agree (h : p.Abides S) (hs : S.Holds s) :
    let zero := (many p).run s
    let one := (many1 p).run s
    let optionals := (many (optional p)).run s
    (∀ m t, one = .ok m t ↔ zero = .ok m t ∧ m.value ≠ []) ∧
    ((∃ g t, one = .failed g t) ↔ ∃ f t, p.run s = .failed f t) ∧
    (∀ g t, one = .failed g t →
      t.reader = s.reader ∧ zero = .ok ⟨[], .empty s.reader.position⟩ t) ∧
    (∀ m t, zero = .ok m t → ∃ as u last missing, p.Advances s as u ∧
      p.EndsRounds u last missing t ∧ m.value = as ++ last ∧
      optionals = .ok ⟨m.value.map some ++ missing, m.span⟩ t) ∧
    (∀ cause t, (one = .halted cause t ↔ zero = .halted cause t) ∧
      (optionals = .halted cause t ↔ zero = .halted cause t)) ∧
    ∀ f t, zero ≠ .failed f t ∧ optionals ≠ .failed f t := by
  intro zero one optionals
  have all : p.Repetitions s zero one optionals := repetitions h hs
  generalize zero = zero, one = one, optionals = optionals at all
  cases all with
  | nothing ran back =>
    refine ⟨?_, ⟨fun _ => ⟨_, _, ran⟩, fun _ => ⟨_, _, rfl⟩⟩, ?_, ?_, ?_, ?_⟩
    · refine fun m t => ⟨nofun, ?_⟩
      rintro ⟨⟨⟩, any⟩
      exact absurd rfl any
    · rintro g t ⟨⟩
      exact ⟨back, rfl⟩
    · rintro m t ⟨⟩
      exact ⟨[], s, [], [none], .none, .failed ran, rfl, rfl⟩
    · exact fun cause t => ⟨⟨nofun, nofun⟩, ⟨nofun, nofun⟩⟩
    · exact fun f t => ⟨nofun, nofun⟩
  | collected advances ends items any =>
    refine ⟨?_, ⟨nofun, ?_⟩, nofun, ?_, ?_, ?_⟩
    · refine fun m t => ⟨?_, And.left⟩
      rintro ⟨⟩
      exact ⟨rfl, any⟩
    · rintro ⟨f, t, ran⟩
      exact absurd (items.trans (advances.eq_nil_of_failed ends ran)) any
    · rintro m t ⟨⟩
      exact ⟨_, _, _, _, advances, ends, items, rfl⟩
    · exact fun cause t => ⟨⟨nofun, nofun⟩, ⟨nofun, nofun⟩⟩
    · exact fun f t => ⟨nofun, nofun⟩
  | halted goesOn =>
    refine ⟨?_, ⟨nofun, fun fails => absurd fails goesOn⟩, nofun, nofun, ?_, ?_⟩
    · exact fun m t => ⟨nofun, fun ok => nomatch ok.1⟩
    · exact fun cause t => ⟨Iff.rfl, ⟨by rintro ⟨⟩; rfl, by rintro ⟨⟩; rfl⟩⟩
    · exact fun f t => ⟨nofun, nofun⟩

/-- Two letters in front of a comma, where no letter is. -/
theorem repetitions_agree_letters :
    let letter := (Grammar.satisfy "letter" Char.isAlpha).toParser []
    let state := fun p : Position => State.mk (Reader.startAt ['é', 'a', 'b', ','] p) .empty
    let s := state ⟨2, 1, 2⟩
    let t := state ⟨4, 1, 4⟩
    letter.Abides .undropped ∧ Setting.undropped.Holds s ∧ Setting.undropped.Holds t ∧
      (many1 letter).run s = .ok ⟨[.char 'a', .char 'b'], ⟨⟨2, 1, 2⟩, ⟨4, 1, 4⟩⟩⟩ t ∧
      (∃ missing, (many (optional letter)).run s =
        .ok ⟨[some (.char 'a'), some (.char 'b')] ++ missing, ⟨⟨2, 1, 2⟩, ⟨4, 1, 4⟩⟩⟩ t) ∧
      ∃ g u, (many1 letter).run t = .failed g u ∧ u.reader = t.reader := by
  intro letter state s t
  have plain : (Grammar.satisfy "letter" Char.isAlpha).Plain := .leaf nofun rfl
  have abides : letter.Abides .undropped := (plain.dependable []).abides
  have boundary : s.reader.OnBoundary ∧ t.reader.OnBoundary := by decide
  have hs : Setting.undropped.Holds s := ⟨boundary.1, rfl⟩
  have ht : Setting.undropped.Holds t := ⟨boundary.2, rfl⟩
  have found : (many letter).run s =
      .ok ⟨[.char 'a', .char 'b'], ⟨⟨2, 1, 2⟩, ⟨4, 1, 4⟩⟩⟩ t := rfl
  obtain ⟨needs, -, -, kept, -⟩ := repetitions_agree abides hs
  obtain ⟨-, fails, restores, -⟩ := repetitions_agree abides ht
  obtain ⟨g, u, failed⟩ := fails.mpr ⟨_, _, rfl⟩
  obtain ⟨-, -, -, missing, -, -, -, optionals⟩ := kept _ _ found
  exact ⟨abides, hs, ht, (needs _ _).mpr ⟨found, nofun⟩, ⟨missing, optionals⟩, g, u, failed,
    (restores g u failed).1⟩

end Parser

end RecursiveDescent
