import RecursiveDescent.Proofs.Rounds

/-!
# Items up to an ending

To repeat an item up to an ending is to repeat the item guarded by the ending not being ahead, and
then to see that the ending is. The rounds of both are the same. Where these end, an item that takes
nothing ends the guarded repetition, which keeps it, and fails the other; but then the ending is not
ahead, so the two never differ where it is.
-/
namespace RecursiveDescent

open RecursiveDescent.Parser

variable {α β : Type} {S : Setting} {item : Parser α} {ending : Parser β}

namespace Setting

variable {start r r' q : Reader} {a : α} {b : β} {f g : Failure} {cause : Halt}

/-! ## One round -/

/-- An item that takes a byte or more, where the ending is not ahead. -/
structure Unended (S : Setting) (item : Parser α) (ending : Parser β) (r : Reader) (a : α)
    (r' : Reader) : Prop where
  refused : ∃ f, S.Refuses ending r f
  takes : S.Takes item r a r'
  further : r.offset < r'.offset

theorem onward_unended (item : Parser α) (ending : Parser β) (start : Reader) :
    S.Onward start (S.Unended item ending) where
  on hr round := round.takes.on hr
  shorter _ round := round.takes.shorter round.further

theorem Takes.settles_progressing (h : S.Takes item r a r') (further : r.offset < r'.offset)
    (ending : Parser β) :
    S.Settles (progressing item ending) r (.gives ⟨a, ⟨r.position, r'.position⟩⟩ r') := by
  refine h.settles.bind ?_
  simp only [h.isEmpty_span further]
  exact settles_pure _ r'

/-- An item that takes nothing is refused. -/
theorem Takes.settles_progressing_idle (h : S.Takes item r a r) (ending : Parser β) :
    S.Settles (progressing item ending) r
      (.fails (.here s!"{item.label} made no progress" ending.label r.found r) r) := by
  have none_taken : (Span.mk r.position r.position).isEmpty = true := Span.isEmpty_empty _
  refine h.settles.bind ?_
  simp only [none_taken]
  exact (settles_found r).bind (settles_failHere _ _ _ r)

/-- In front of the ending the repetition stops with nothing more. -/
theorem Takes.settles_itemsTill (h : S.Takes ending r b r') (hr : S.readers r)
    (item : Parser α) (start : Position) (n : Nat) :
    S.Settles (itemsTill item ending start (n + 1)) r (.gives [] r) := by
  have ahead := h.settles.lookAhead (S.inText hr) h.input
  exact (settles_look Reader.position r).bind (ahead.bind (settles_pure _ r))

theorem HaltsAt.settles_itemsTill (h : S.HaltsAt ending r cause) (hr : S.readers r)
    (item : Parser α) (start : Position) (n : Nat) :
    S.Settles (itemsTill item ending start (n + 1)) r (.halts cause) := by
  have ahead := Settles.lookAhead (S.inText hr) h trivial
  exact (settles_look Reader.position r).bind ahead.bind_halts

section NotAhead

variable {v : Verdict (List α)} {n : Nat} (unended : S.Refuses ending r f) (hr : S.readers r)
include unended hr

/-- Where the ending is not ahead it comes down to the item. -/
theorem Refuses.settles_itemsTill {start : Position}
    (onward : S.Settles (do
      let m ← (progressing item ending).enclosing start "ManyTill combinator failed."
      return m.value :: (← itemsTill item ending start n)) r v) :
    S.Settles (itemsTill item ending start (n + 1)) r v := by
  have ahead := Settles.lookAhead (S.inText hr) unended rfl
  exact (settles_look Reader.position r).bind (ahead.bind onward)

variable (hstart : S.readers start)
include hstart

/-- An item that fails, or takes nothing, fails the whole from its start. -/
theorem Refuses.itemsTill_fails (onText : r.input = start.input)
    (h : S.Settles (progressing item ending) r (.fails g r)) :
    S.Settles (itemsTill item ending start.position (n + 1)) r
      (.fails (g.enclose "ManyTill combinator failed." start) start) := by
  have failed := h.enclosing (S.inText hstart) onText "ManyTill combinator failed."
  exact unended.settles_itemsTill hr failed.bind_fails

theorem Refuses.itemsTill_halts (h : S.HaltsAt item r cause) :
    S.Settles (itemsTill item ending start.position (n + 1)) r (.halts cause) := by
  have halted := (Settles.bind_halts h : S.Settles (progressing item ending) r _).enclosing
    (S.inText hstart) trivial "ManyTill combinator failed."
  exact unended.settles_itemsTill hr halted.bind_halts

end NotAhead

/-! ## All rounds -/

/-- One more item in front of what the later rounds give. -/
theorem Unended.settles_itemsTill (h : S.Unended item ending r a r') (hstart : S.readers start)
    (hr : S.On start r) (n : Nat) (v : Verdict (List α))
    (later : S.Settles (itemsTill item ending start.position n) r' v) :
    S.Settles (itemsTill item ending start.position (n + 1)) r (v.map (a :: ·)) := by
  obtain ⟨f, refused⟩ := h.refused
  have taken := (h.takes.settles_progressing h.further ending).enclosing (S.inText hstart)
    (h.takes.input.trans hr.input) "ManyTill combinator failed."
  exact refused.settles_itemsTill hr.reader (taken.bind (later.map _))

section AllRounds

variable {as : List α} {v : Verdict (List α)} (hr : S.readers r)
  (rounds : Rounds (S.Unended item ending) r as q)
include hr rounds

/-- Up to the ending: the rounds, and then what is done where they end. -/
theorem settles_manyTill
    (stop : ∀ n, S.Settles (itemsTill item ending r.position (n + 1)) q v) :
    S.Settles (manyTill item ending).run r ((v.map (as ++ ·)).since r.position) := by
  exact (onward_unended item ending r).settles_match (itemsTill item ending)
    (fun n v hu round later => round.settles_itemsTill hr hu n v later) stop hr rounds

/-- Guarded: the same rounds, and then what is done there. -/
theorem settles_manyGuarded (label : String)
    (stop : ∀ n, S.Settles (items (snd (andThen (notAhead label ending) item)) (n + 1)) q v) :
    S.Settles (many (snd (andThen (notAhead label ending) item))).run r
      ((v.map (as ++ ·)).since r.position) := by
  refine (onward_unended item ending r).settles_many (fun hu round => ?_) stop hr rounds
  obtain ⟨f, refused⟩ := round.refused
  exact ⟨round.takes.after (refused.takes_notAhead hu.reader label) hu.reader, round.further⟩

end AllRounds

/-- How both repetitions end, with the same rounds behind them. -/
inductive EndsAlike (S : Setting) (item : Parser α) (ending : Parser β) (r : Reader)
    (till guarded : Run (Match (List α))) : Prop
  | ended {as : List α} {b : β} {q q' : Reader} :
    S.Settles till r (.gives ⟨as, ⟨r.position, q.position⟩⟩ q) →
    S.Settles guarded r (.gives ⟨as, ⟨r.position, q.position⟩⟩ q) →
    S.Takes ending q b q' → EndsAlike S item ending r till guarded
  | unended {m : Match (List α)} {f g : Failure} {q : Reader} :
    S.Settles till r (.fails f r) → S.Settles guarded r (.gives m q) →
    S.Refuses ending q g → EndsAlike S item ending r till guarded
  | halted {cause : Halt} {q : Reader} :
    S.Settles till r (.halts cause) → S.Settles guarded r (.halts cause) → S.On r q →
    S.HaltsAt item q cause ∨ S.HaltsAt ending q cause → EndsAlike S item ending r till guarded

namespace EndsAlike

variable {s : State} {till guarded : Run (Match (List α))}
  (h : S.EndsAlike item ending s.reader till guarded) (hs : S.Holds s)
include h hs

/-- A guarded repetition that stopped for another reason than the ending has it not ahead. -/
theorem gives_iff (m : Match (List α)) (q : Reader) :
    (till s).verdict = .gives m q ↔
      (guarded s).verdict = .gives m q ∧ ending.SucceedsAt (guarded s).state := by
  cases h with
  | ended tillSettles guardedSettles ahead =>
    obtain ⟨store, ran, hstore⟩ := guardedSettles.ran hs
    have succeeds := ahead.settles.succeedsAt hstore
    rw [tillSettles.verdict hs, ran]
    exact ⟨fun same => ⟨same, succeeds⟩, And.left⟩
  | unended tillSettles guardedSettles refused =>
    obtain ⟨store, ran, hstore⟩ := guardedSettles.ran hs
    have absent := refused.not_succeedsAt hstore
    rw [tillSettles.verdict hs, ran]
    exact ⟨nofun, fun both => absurd both.2 absent⟩
  | halted tillSettles guardedSettles _ _ =>
    rw [tillSettles.verdict hs, guardedSettles.verdict hs]
    exact ⟨nofun, fun both => nomatch both.1⟩

/-- Either the ending is ahead, or all is undone, or a part halts. -/
theorem ends :
    (∃ as q, (till s).verdict = .gives ⟨as, ⟨s.reader.position, q.position⟩⟩ q ∧
        ending.SucceedsAt (till s).state) ∨
      (∃ f, (till s).verdict = .fails f s.reader) ∨
      ∃ cause, (till s).verdict = .halts cause ∧
        (item.HaltsBehind S s.reader cause ∨ ending.HaltsBehind S s.reader cause) := by
  cases h with
  | ended tillSettles _ ahead =>
    obtain ⟨store, ran, hstore⟩ := tillSettles.ran hs
    rw [ran]
    exact .inl ⟨_, _, rfl, ahead.settles.succeedsAt hstore⟩
  | unended tillSettles _ _ =>
    exact .inr (.inl ⟨_, tillSettles.verdict hs⟩)
  | halted tillSettles _ on halting =>
    have where_halted := halting.imp (·.haltsBehind on hs.store) (·.haltsBehind on hs.store)
    exact .inr (.inr ⟨_, tillSettles.verdict hs, where_halted⟩)

end EndsAlike

/-- The cases are those of the two parts at the end of the rounds. -/
theorem endsAlike (hitem : item.Dependable S) (hending : ending.Dependable S) (label : String)
    (hr : S.readers r) {store : Store} (hstore : S.stores store) :
    S.EndsAlike item ending r (manyTill item ending).run
      (many (snd (andThen (notAhead label ending) item))).run := by
  obtain ⟨as, q, rounds, on, last⟩ := (onward_unended item ending r).exists_rounds (.refl hr)
  have hq := on.reader
  cases goes hending hq hstore with
  | takes ahead =>
    obtain ⟨f, guard⟩ := ahead.refuses_notAhead hq label
    obtain ⟨g, refused⟩ := guard.before hq item
    have till := settles_manyTill hr rounds (ahead.settles_itemsTill hq item r.position)
    have guarded := settles_manyGuarded hr rounds label (refused.settles_items hq)
    exact .ended till guarded ahead
  | halts halting =>
    have guard := (halting.halts_notAhead hq label).before hq item
    have till := settles_manyTill hr rounds (halting.settles_itemsTill hq item r.position)
    have guarded := settles_manyGuarded hr rounds label (guard.settles_items hq)
    exact .halted till guarded on (.inr halting)
  | refuses unended =>
    have guard := unended.takes_notAhead hq label
    cases goes hitem hq hstore with
    | takes taken =>
      rename_i a q'
      -- The last round would not be the last if it took a byte.
      obtain rfl := taken.eq_of_not_lt fun further => last a q' ⟨⟨_, unended⟩, taken, further⟩
      have idle := taken.settles_progressing_idle ending
      have till := settles_manyTill hr rounds fun n =>
        unended.itemsTill_fails hq hr on.input idle
      have guarded := settles_manyGuarded hr rounds label
        ((taken.after guard hq).settles_items_idle hq)
      exact .unended till guarded unended
    | refuses refused =>
      obtain ⟨g, none⟩ := refused.after guard hq
      have till := settles_manyTill hr rounds fun n =>
        unended.itemsTill_fails hq hr on.input (Settles.bind_fails refused)
      have guarded := settles_manyGuarded hr rounds label (none.settles_items hq)
      exact .unended till guarded unended
    | halts halting =>
      have till := settles_manyTill hr rounds fun n => unended.itemsTill_halts hq hr halting
      have guarded := settles_manyGuarded hr rounds label
        ((halting.after guard hq).settles_items hq)
      exact .halted till guarded on (.inl halting)

end Setting

/-- Items up to an ending are found where guarded items lead to where the ending succeeds, and they
are the same. If not, and neither the item nor the ending halts, the failure undoes all of it. -/
theorem Parser.manyTill_gives_iff_guarded (hitem : item.Dependable S)
    (hending : ending.Dependable S) (label : String) {s : State} (hs : S.Holds s) :
    let till := (manyTill item ending).run s
    let guarded := (many (snd (andThen (notAhead label ending) item))).run s
    (∀ m q, till.verdict = .gives m q ↔
        guarded.verdict = .gives m q ∧ ending.SucceedsAt guarded.state) ∧
      ((∃ as q, till.verdict = .gives ⟨as, ⟨s.reader.position, q.position⟩⟩ q ∧
          ending.SucceedsAt till.state) ∨
        (∃ f, till.verdict = .fails f s.reader) ∨
        ∃ cause, till.verdict = .halts cause ∧
          (item.HaltsBehind S s.reader cause ∨ ending.HaltsBehind S s.reader cause)) := by
  intro till guarded
  have alike := Setting.endsAlike hitem hending label hs.reader hs.store
  exact ⟨alike.gives_iff hs, alike.ends hs⟩

/-- Words up to a mark. A word may be empty, and is none where the mark is ahead. -/
theorem Parser.words_manyTill_mark :
    let word := (Grammar.takeWhile "word" Char.isAlpha).toParser []
    let mark := (Grammar.codePoint ";" ';').toParser []
    let s : State := ⟨Reader.startAt ['é', 'a', 'b', ';'] ⟨2, 1, 2⟩, .empty⟩
    word.Dependable .undropped ∧ mark.Dependable .undropped ∧ Setting.undropped.Holds s ∧
      ∃ m q, ((manyTill word mark).run s).verdict = .gives m q ∧ m.value = [.text ['a', 'b']] ∧
        q.position = ⟨4, 1, 4⟩ := by
  intro word mark s
  have letters : ∀ label accepts, (Grammar.takeWhile label accepts).Plain := fun _ _ =>
    .leaf nofun rfl
  have one : ∀ label c, (Grammar.codePoint label c).Plain := fun _ _ => .leaf nofun rfl
  have hword : word.Dependable .undropped := (letters _ _).dependable []
  have hmark : mark.Dependable .undropped := (one _ _).dependable []
  have boundary : s.reader.OnBoundary := by decide
  have hs : Setting.undropped.Holds s := ⟨boundary, rfl⟩
  have same := (manyTill_gives_iff_guarded hword hmark "no mark" hs).1
  exact ⟨hword, hmark, hs, _, _, (same _ _).mpr ⟨rfl, _, _, rfl⟩, rfl, rfl⟩

end RecursiveDescent
