import RecursiveDescent.Proofs.ChainedItems
import RecursiveDescent.Proofs.GuardedItems
import RecursiveDescent.Proofs.Termination

/-!
# Bounds of loops

A repetition ends within one round more than there are bytes ahead, and more rounds would change
nothing. So does a chain, unless its rounds lead to a place where a round takes nothing; then it
does not end. The rounds that parsers are given are therefore spent by chains without an end only.
-/
namespace RecursiveDescent

open RecursiveDescent.Parser

variable {α β : Type} {S : Setting} {item : Parser α} {other : Parser β}

def Verdict.Ended (v : Verdict α) : Prop :=
  v ≠ .halts .exhausted

namespace Verdict.Ended

variable {v : Verdict α}

theorem gives {a : α} {r : Reader} : (Verdict.gives a r).Ended := nofun

theorem fails {f : Failure} {r : Reader} : (Verdict.fails f r : Verdict α).Ended := nofun

theorem halts {cause : Halt} (h : cause ≠ .exhausted) :
    (Verdict.halts cause : Verdict α).Ended := by
  rintro ⟨⟩
  exact h rfl

theorem bind (h : v.Ended) {after : α → Reader → Verdict β} (ended : ∀ a r, (after a r).Ended) :
    (v.bind after).Ended := by
  cases v with
  | gives a r => exact ended a r
  | fails f r => exact .fails
  | halts cause => exact .halts fun same => h (congrArg _ same)

theorem map (h : v.Ended) (f : α → β) : (v.map f).Ended :=
  h.bind fun _ _ => .gives

theorem since (h : v.Ended) (start : Position) : (v.since start).Ended :=
  h.bind fun _ _ => .gives

end Verdict.Ended

namespace Setting

variable {start r : Reader} {store : Store}

/-- With `k` rounds or more the loop ends, and always in the same way. -/
def EndsBy (S : Setting) (loop : Nat → Run α) (r : Reader) (k : Nat) : Prop :=
  ∃ v : Verdict α, v.Ended ∧ ∀ n, k ≤ n → S.Settles (loop n) r v

/-- The rounds lead to where the loop ends. -/
theorem Onward.endsBy {loop : Nat → Run (List α)} {round : Reader → α → Reader → Prop}
    (h : S.Onward start round)
    (step : ∀ {r a r'} n v, S.On start r → round r a r' → S.Settles (loop n) r' v →
      S.Settles (loop (n + 1)) r (v.map (a :: ·)))
    (stop : ∀ q, S.On start q → (∀ a q', ¬ round q a q') →
      ∃ v : Verdict (List α), v.Ended ∧ ∀ n, S.Settles (loop (n + 1)) q v)
    (hr : S.On start r) : S.EndsBy loop r (r.bytesLeft + 1) := by
  obtain ⟨as, q, rounds, on, last⟩ := h.exists_rounds hr
  obtain ⟨v, ended, stopped⟩ := stop q on last
  exact ⟨_, ended.map _, fun n enough => h.settles step stopped hr rounds enough⟩

section Loops

variable (hitem : item.Dependable S) (itemEnds : item.Terminates S) (hstart : S.readers start)
  (hr : S.On start r) (hstore : S.stores store)
include hitem itemEnds hr hstore

/-- Each round but the last takes something, so there is one more of them than bytes at most. -/
theorem endsBy_items : S.EndsBy (items item) r (r.bytesLeft + 1) := by
  have onward : S.Onward start (Advancing (S.Takes item)) :=
    onward_advancing fun hr taken => taken.on hr
  refine onward.endsBy (fun n v hr round later => round.1.settles_items hr.reader round.2 later)
    (fun q on last => ?_) hr
  cases goes hitem on.reader hstore with
  | takes taken =>
    -- It takes nothing, or the rounds would not have ended here.
    obtain rfl := taken.eq_of_not_lt fun further => last _ _ ⟨taken, further⟩
    exact ⟨_, .gives, taken.settles_items_idle on.reader⟩
  | refuses refused => exact ⟨_, .gives, refused.settles_items on.reader⟩
  | halts halted =>
    have cause := halted.ne_exhausted itemEnds on.reader hstore
    exact ⟨_, .halts cause, halted.settles_items on.reader⟩

variable (hother : other.Dependable S) (otherEnds : other.Terminates S)
include hstart hother otherEnds

/-- The cases of a list are those of a chain, but where rounds take nothing it ends. -/
theorem endsBy_delimitedItems :
    S.EndsBy (delimitedItems item other start.position) r (r.bytesLeft + 1) := by
  obtain ⟨ops, q, rounds, on, last⟩ := exists_roundsEnd hitem hother hr hstore
  have listed := delimited_of_operated rounds
  have ends {v : Verdict (List α)} (ended : v.Ended)
      (stop : ∀ n, S.Settles (delimitedItems item other start.position (n + 1)) q v) :
      S.EndsBy (delimitedItems item other start.position) r (r.bytesLeft + 1) :=
    ⟨_, ended.map _, fun n enough => (onward_delimited item other start).settles
      (fun n v hr round later => round.settles_delimitedItems hstart hr n v later) stop hr listed
      enough⟩
  cases last with
  | none refused => exact ends .gives (refused.settles_delimitedItems on.reader item _)
  | dangling found refused => exact ends .fails (found.delimitedItems_fails hstart on refused)
  | halts halted =>
    have cause := halted.ne_exhausted otherEnds on.reader hstore
    exact ends (.halts cause) (halted.settles_delimitedItems on.reader item _)
  | haltsBehind found halted =>
    have cause := halted.ne_exhausted itemEnds found.reader hstore
    exact ends (.halts cause) (found.delimitedItems_halts hstart on halted)
  | idles idles =>
    obtain ⟨b, a, found, taken⟩ := idles
    exact ends .gives (found.settles_delimitedItems_idle taken hstart on)

theorem endsBy_itemsTill :
    S.EndsBy (itemsTill item other start.position) r (r.bytesLeft + 1) := by
  refine (onward_unended item other start).endsBy
    (fun n v hr round later => round.settles_itemsTill hstart hr n v later)
    (fun q on last => ?_) hr
  cases goes hother on.reader hstore with
  | takes ahead => exact ⟨_, .gives, ahead.settles_itemsTill on.reader item _⟩
  | halts halted =>
    have cause := halted.ne_exhausted otherEnds on.reader hstore
    exact ⟨_, .halts cause, halted.settles_itemsTill on.reader item _⟩
  | refuses unended =>
    cases goes hitem on.reader hstore with
    | takes taken =>
      obtain rfl := taken.eq_of_not_lt fun further => last _ _ ⟨⟨_, unended⟩, taken, further⟩
      have idle := taken.settles_progressing_idle other
      exact ⟨_, .fails, fun n => unended.itemsTill_fails on.reader hstart on.input idle⟩
    | refuses refused =>
      exact ⟨_, .fails, fun n =>
        unended.itemsTill_fails on.reader hstart on.input (Settles.bind_fails refused)⟩
    | halts halted =>
      have cause := halted.ne_exhausted itemEnds on.reader hstore
      exact ⟨_, .halts cause, fun n => unended.itemsTill_halts on.reader hstart halted⟩

/-- Unless rounds lead to where one takes nothing, a chain is no different. -/
theorem endsBy_operations (name : String) (unstalled : ¬ S.Stalls item other r) :
    S.EndsBy (operations name item other start.position) r (r.bytesLeft + 1) := by
  obtain ⟨ops, q, rounds, on, last⟩ := exists_roundsEnd hitem hother hr hstore
  have ends {v : Verdict (List (β × α))} (ended : v.Ended)
      (stop : ∀ n, S.Settles (operations name item other start.position (n + 1)) q v) :
      S.EndsBy (operations name item other start.position) r (r.bytesLeft + 1) :=
    ⟨_, ended.map _, fun n enough => settles_operations hstart hr rounds stop enough⟩
  cases last with
  | none refused => exact ends .gives (refused.settles_operations on.reader name item _)
  | dangling found refused => exact ends .fails (found.operations_fails hstart on refused name)
  | halts halted =>
    have cause := halted.ne_exhausted otherEnds on.reader hstore
    exact ends (.halts cause) (halted.settles_operations on.reader name item _)
  | haltsBehind found halted =>
    have cause := halted.ne_exhausted itemEnds found.reader hstore
    exact ends (.halts cause) (found.operations_halts hstart on halted name)
  | idles idles => exact absurd ⟨ops, q, rounds.mono And.left, idles⟩ unstalled

/-- A chain ends in some number of rounds unless an operator and an operand stall. -/
theorem exists_endsBy_operations_iff (name : String) :
    (∃ n, S.EndsBy (operations name item other start.position) r n) ↔ ¬ S.Stalls item other r := by
  constructor
  · rintro ⟨n, v, ended, settles⟩ stalls
    have spent := stalls.settles_operations hstart hr name n
    exact ended ((settles n (Nat.le_refl n)).unique spent hstore)
  · exact fun unstalled => ⟨_, endsBy_operations hitem itemEnds hstart hr hstore hother otherEnds
      name unstalled⟩

end Loops

/-! ## Whole parsers -/

/-- A parser terminates if from every place it settles on how it ends. -/
theorem terminates_of_settles {p : Parser α}
    (h : ∀ {r store}, S.readers r → S.stores store → ∃ v, v.Ended ∧ S.Settles p.run r v) :
    p.Terminates S := by
  intro s hs t halted
  obtain ⟨v, ended, settles⟩ := h hs.reader hs.store
  have verdict := settles.verdict hs
  rw [halted] at verdict
  exact ended verdict.symm

/-- The loop of a parser that gives one match is given rounds enough. -/
theorem EndsBy.exists_match {loop : Position → Nat → Run (List α)}
    (h : S.EndsBy (loop r.position) r (r.bytesLeft + 1)) :
    ∃ v : Verdict (Match (List α)), v.Ended ∧ S.Settles (do
      let start ← Run.position
      let values ← loop start (← Run.rounds)
      return ⟨values, ⟨start, ← Run.position⟩⟩) r v := by
  obtain ⟨v, ended, settles⟩ := h
  have values := (settles _ (Nat.le_refl _)).since id r.position
  exact ⟨_, (ended.map id).since r.position,
    (settles_look Reader.position r).bind ((settles_look (·.bytesLeft + 1) r).bind values)⟩

section Whole

variable (hitem : item.Dependable S) (itemEnds : item.Terminates S)
include hitem itemEnds

theorem terminates_many : (many item).Terminates S :=
  terminates_of_settles fun hr hstore =>
    (endsBy_items hitem itemEnds (.refl hr) hstore).exists_match

theorem exists_settles_itemsAfter (first : Match α) (hr : S.readers r) (hstore : S.stores store) :
    ∃ v, v.Ended ∧ S.Settles (itemsAfter first item) r v := by
  cases idle : first.span.isEmpty with
  | true =>
    refine ⟨.gives [] r, .gives, ?_⟩
    simp only [itemsAfter, idle, if_true]
    exact settles_pure [] r
  | false =>
    obtain ⟨v, ended, settles⟩ := endsBy_items hitem itemEnds (.refl hr) hstore
    refine ⟨v, ended, ?_⟩
    simp only [itemsAfter, idle, Bool.false_eq_true, if_false]
    exact (settles_look (·.bytesLeft + 1) r).bind (settles _ (Nat.le_refl _))

theorem terminates_many1 : (many1 item).Terminates S := by
  refine terminates_of_settles fun {r store} hr hstore => ?_
  cases goes hitem hr hstore with
  | takes first =>
    rename_i a u
    obtain ⟨v, ended, settles⟩ :=
      exists_settles_itemsAfter hitem itemEnds ⟨a, ⟨r.position, u.position⟩⟩ first.reader hstore
    have rest := settles.since (a :: ·) r.position
    exact ⟨_, (ended.map (a :: ·)).since r.position,
      (settles_look Reader.position r).bind (first.settles.observe.bind rest)⟩
  | refuses refused =>
    rename_i f
    let once := (f.enclose "Many1 parser failed." r).withExpected s!"{item.label} at least once"
    let g := once.withFound s!"{item.label} zero times"
    refine ⟨.fails g r, .fails, ?_⟩
    refine (settles_look Reader.position r).bind (Settles.bind refused.observe ?_)
    refine (settles_rewind rfl (S.inText hr)).bind ?_
    exact (settles_look id r).bind (settles_fail g r)
  | halts halted =>
    have cause := halted.ne_exhausted itemEnds hr hstore
    have observed := Settles.observe halted
    exact ⟨_, .halts cause, (settles_look Reader.position r).bind observed.bind_halts⟩

variable (hother : other.Dependable S) (otherEnds : other.Terminates S)
include hother otherEnds

theorem terminates_sepBy : (sepBy item other).Terminates S := by
  refine terminates_of_settles fun {r store} hr hstore => ?_
  cases goes hitem hr hstore with
  | takes first =>
    rename_i a u
    have on := first.on (.refl hr)
    obtain ⟨v, ended, settles⟩ :=
      endsBy_delimitedItems hitem itemEnds hr on hstore hother otherEnds
    have taken := first.settles.enclosing (S.inText hr) first.input sepByFailed
    have rest := (settles _ (Nat.le_refl _)).since (a :: ·) r.position
    exact ⟨_, (ended.map (a :: ·)).since r.position, (settles_look Reader.position r).bind
      (taken.bind ((settles_look (·.bytesLeft + 1) u).bind rest))⟩
  | refuses refused => exact ⟨_, .fails, refused.settles_sepBy hr other⟩
  | halts halted =>
    exact ⟨_, .halts (halted.ne_exhausted itemEnds hr hstore), halted.settles_sepBy hr other⟩

theorem terminates_manyTill : (manyTill item other).Terminates S :=
  terminates_of_settles fun hr hstore =>
    (endsBy_itemsTill hitem itemEnds hr (.refl hr) hstore hother otherEnds).exists_match

/-- A chain is given rounds enough, if any number of them is. -/
theorem exists_settles_operands (hr : S.readers r) (hstore : S.stores store) (name : String) :
    ∃ v, S.Settles (operands name item other) r v ∧
      (v.Ended ↔ ¬ ∃ a u, S.Takes item r a u ∧ S.Stalls item other u) := by
  cases goes hitem hr hstore with
  | takes first =>
    rename_i a u
    have on := first.on (.refl hr)
    by_cases stalls : S.Stalls item other u
    · have spent := first.settles_operands hr (stalls.settles_operations hr on name _)
      exact ⟨_, spent, fun ended => absurd rfl ended, fun none => absurd ⟨a, u, first, stalls⟩ none⟩
    · obtain ⟨v, ended, settles⟩ :=
        endsBy_operations hitem itemEnds hr on hstore hother otherEnds name stalls
      have all := first.settles_operands hr (settles _ (Nat.le_refl _))
      refine ⟨_, all, fun _ => ?_, fun _ => ended.map _⟩
      rintro ⟨b, w, other_first, stalls'⟩
      have same := first.settles.unique other_first.settles hstore
      obtain rfl : u = w := (Verdict.gives.inj same).2
      exact stalls stalls'
  | refuses refused =>
    have failed := refused.settles_operands hr name other
    refine ⟨_, failed, fun _ => ?_, fun _ => .fails⟩
    rintro ⟨b, w, first, -⟩
    exact nomatch first.settles.unique refused hstore
  | halts halted =>
    have cause := halted.ne_exhausted itemEnds hr hstore
    refine ⟨_, halted.settles_operands hr name other, fun _ => ?_, fun _ => .halts cause⟩
    rintro ⟨b, w, first, -⟩
    exact nomatch first.settles.unique halted hstore

end Whole

end Setting

/-- What well-formed grammars of parsers that are none of one's own do is not cut short. -/
theorem Grammar.Plain.terminates {g : Grammar} {node : NodeId} (plain : g.Plain)
    (hw : g.WellFormed node) : (g.toParser node).Terminates .undropped := by
  intro s hs t halted
  have ready := Place.ready_node hw rfl (Place.ready_enter hw rfl plain _) plain
    (Place.suffices_root rfl (Nat.le_refl (g.depthFor s.reader.bytesLeft)))
  have ends := ready hs.reader s.store trivial
  rw [Run.Ends] at ends
  change (parser (enter (g.depthFor s.reader.bytesLeft)) [] node g).run s = _ at halted
  rw [halted] at ends
  exact ends

/-- Repetitions end within a round more than there are bytes ahead, and so do parsers that repeat.
The loop of chains ends within as many, or its rounds lead to a place where an operator and an
operand take nothing; and then no number of rounds is enough. -/
theorem Parser.loops_end (hitem : item.Dependable S) (hother : other.Dependable S)
    (itemEnds : item.Terminates S) (otherEnds : other.Terminates S) {start : Reader} {s : State}
    (hs : S.Holds s) (hstart : S.readers start) (on : S.On start s.reader) (name : String) :
    let rounds := s.reader.bytesLeft + 1
    let chain := operations name item other start.position
    S.EndsBy (items item) s.reader rounds ∧
      S.EndsBy (delimitedItems item other start.position) s.reader rounds ∧
      S.EndsBy (itemsTill item other start.position) s.reader rounds ∧
      ((∃ n, S.EndsBy chain s.reader n) ↔ ¬ S.Stalls item other s.reader) ∧
      (¬ S.Stalls item other s.reader → S.EndsBy chain s.reader rounds) ∧
      (S.Stalls item other s.reader → ∀ n, S.Settles (chain n) s.reader (.halts .exhausted)) ∧
      (many item).Terminates S ∧ (many1 item).Terminates S ∧ (sepBy item other).Terminates S ∧
      (manyTill item other).Terminates S ∧
      ((operands name item other s).verdict = .halts .exhausted ↔
        ∃ a u, S.Takes item s.reader a u ∧ S.Stalls item other u) := by
  intro rounds chain
  refine ⟨?_, ?_, ?_, ?_, ?_, ?_, ?_, ?_, ?_, ?_, ?_⟩
  · exact Setting.endsBy_items hitem itemEnds on hs.store
  · exact Setting.endsBy_delimitedItems hitem itemEnds hstart on hs.store hother otherEnds
  · exact Setting.endsBy_itemsTill hitem itemEnds hstart on hs.store hother otherEnds
  · exact Setting.exists_endsBy_operations_iff hitem itemEnds hstart on hs.store hother otherEnds
      name
  · exact Setting.endsBy_operations hitem itemEnds hstart on hs.store hother otherEnds name
  · exact fun stalls => stalls.settles_operations hstart on name
  · exact Setting.terminates_many hitem itemEnds
  · exact Setting.terminates_many1 hitem itemEnds
  · exact Setting.terminates_sepBy hitem itemEnds hother otherEnds
  · exact Setting.terminates_manyTill hitem itemEnds hother otherEnds
  · obtain ⟨v, settles, ended⟩ :=
      Setting.exists_settles_operands hitem itemEnds hother otherEnds hs.reader hs.store name
    rw [settles.verdict hs]
    exact not_iff_not.mp ended

/-- Words, and blanks between them. Both may take nothing, and behind the second word they do, so
the loop of a chain does not end there; that of a list does. -/
theorem Parser.words_with_blanks_end :
    let word := (Grammar.takeWhile "word" Char.isAlpha).toParser []
    let blanks := (Grammar.takeWhile "blanks" (· == ' ')).toParser []
    let start := Reader.startAt ['é', 'a', ' ', 'b', ';'] ⟨2, 1, 2⟩
    let s : State := ⟨Reader.startAt ['é', 'a', ' ', 'b', ';'] ⟨3, 1, 3⟩, .empty⟩
    word.Dependable .undropped ∧ blanks.Dependable .undropped ∧
      word.Terminates .undropped ∧ blanks.Terminates .undropped ∧
      Setting.undropped.Holds s ∧ Setting.undropped.readers start ∧
      Setting.undropped.On start s.reader ∧ Setting.undropped.Stalls word blanks s.reader ∧
      Setting.undropped.EndsBy (delimitedItems word blanks start.position) s.reader 4 ∧
      ∀ n, Setting.undropped.Settles (operations "Chainl1" word blanks start.position n) s.reader
        (.halts .exhausted) := by
  intro word blanks start s
  have plain : ∀ label accepts, (Grammar.takeWhile label accepts).Plain := fun _ _ =>
    .leaf nofun rfl
  have wellFormed : ∀ label accepts, (Grammar.takeWhile label accepts).WellFormed [] :=
    fun _ _ => Grammar.wellFormed_of_isWellFormed rfl []
  have hword : word.Dependable .undropped := (plain _ _).dependable []
  have hblanks : blanks.Dependable .undropped := (plain _ _).dependable []
  have wordEnds : word.Terminates .undropped := (plain _ _).terminates (wellFormed _ _)
  have blanksEnd : blanks.Terminates .undropped := (plain _ _).terminates (wellFormed _ _)
  have startBoundary : start.OnBoundary := by decide
  have boundary : s.reader.OnBoundary := by decide
  have hs : Setting.undropped.Holds s := ⟨boundary, rfl⟩
  have on : Setting.undropped.On start s.reader := ⟨boundary, rfl, by decide⟩
  let t : State := ⟨Reader.startAt start.input ⟨4, 1, 4⟩, .empty⟩
  let u : State := ⟨Reader.startAt start.input ⟨5, 1, 5⟩, .empty⟩
  have behind : t.reader.OnBoundary := by decide
  have last : u.reader.OnBoundary := by decide
  have stalls : Setting.undropped.Stalls word blanks s.reader := by
    have found : Setting.undropped.Takes blanks s.reader (.text [' ']) t.reader :=
      Setting.takes_of_ok hblanks hs rfl
    have taken : Setting.undropped.Takes word t.reader (.text ['b']) u.reader :=
      Setting.takes_of_ok hword ⟨behind, rfl⟩ rfl
    have noBlanks : Setting.undropped.Takes blanks u.reader (.text []) u.reader :=
      Setting.takes_of_ok hblanks ⟨last, rfl⟩ rfl
    have noWord : Setting.undropped.Takes word u.reader (.text []) u.reader :=
      Setting.takes_of_ok hword ⟨last, rfl⟩ rfl
    exact ⟨[(.text [' '], .text ['b'])], _, .more ⟨_, found, taken⟩ .none, _, _, noBlanks, noWord⟩
  obtain ⟨-, list, -, -, -, never, -⟩ :=
    loops_end hword hblanks wordEnds blanksEnd hs startBoundary on "Chainl1"
  exact ⟨hword, hblanks, wordEnds, blanksEnd, hs, startBoundary, on, stalls, list, never stalls⟩

end RecursiveDescent
