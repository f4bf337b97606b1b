import RecursiveDescent.Proofs.Finishing
import RecursiveDescent.Proofs.Places

/-!
# Well-formed grammars terminate

A run can enter rules only as deep as it is given. What it needs is measured by the bytes ahead and,
as long as nothing is taken, by the rules around: each rule entered from within another without
taking anything is further out. So the depth that `toParser` gives is never spent, and the rounds of
repetitions are not either.
-/
namespace RecursiveDescent

/-- The run has not been cut short. -/
def Outcome.Finishes {α : Type} (o : Outcome α) : Prop :=
  ∀ cause t, o ≠ .halted cause t

namespace Grammar

open Conditions

variable {scope outer : Scope} {rule : Rule} {node : NodeId} {g part : Grammar}

theorem exists_getElem?_of_getLast?_parsers {run : Rule → Scope → Run (Match Value)}
    {gs : List Grammar} {q : Parser Value} (h : (parsers run scope node 0 gs).getLast? = some q) :
    ∃ (i : Nat) (g : Grammar), gs[i]? = some g ∧ gs.getLast? = some g ∧
      q = parser run scope (i :: node) g := by
  rw [List.getLast?_eq_getElem?, length_parsers, getElem?_parsers, Nat.zero_add] at h
  obtain ⟨g, at_last, rfl⟩ := Option.map_eq_some_iff.mp h
  exact ⟨_, g, at_last, by rw [List.getLast?_eq_getElem?, at_last], rfl⟩

theorem mayTakeNothing_allOf {around : String → Bool} {label : String} {gs : List Grammar}
    (last : gs.getLast? = some part) (idle : part.mayTakeNothing around = true) :
    (Grammar.allOf label gs).mayTakeNothing around = true := by
  rw [Grammar.mayTakeNothing, mayEachTakeNothing_eq, List.getLast?_map, last, Option.map_some, idle]
  rfl

theorem mayTakeNothing_choice {around : String → Bool} {label : String} {gs : List Grammar}
    (mem : part ∈ gs) (idle : part.mayTakeNothing around = true) :
    (Grammar.choice label gs).mayTakeNothing around = true := by
  rw [Grammar.mayTakeNothing, mayEachTakeNothing_eq, List.any_map, List.any_eq_true]
  exact ⟨part, mem, idle⟩

theorem mayTakeNothing_inOrder {around : String → Bool} {label : String} {gs : List Grammar}
    (idle : ∀ part ∈ gs, part.mayTakeNothing around = true) :
    (Grammar.inOrder label gs).mayTakeNothing around = true := by
  rw [Grammar.mayTakeNothing, mayEachTakeNothing_eq, List.all_map, List.all_eq_true]
  exact idle

namespace Place

variable {root p q : Place} {depth : Nat} {r r' : Reader}

/-- The depth is enough for a run of the place from the reader: for what is begun once something
has been taken, and for all that the run may enter before that. -/
structure Suffices (root : Place) (depth : Nat) (r : Reader) (p : Place) : Prop where
  below : Below root p
  further : root.grammar.recursiveRules * r.bytesLeft ≤ depth
  here : ∀ q rule outer, LeadsOn p q → q.RefersTo rule outer →
    root.grammar.recursiveRules * r.bytesLeft + outer.length + 1 ≤ depth

/-- The rules around a reference are fewer than all that the grammar has. -/
theorem outer_lt (h : Below root p) (top : root.scope = []) (path : LeadsOn p q)
    (refers : q.RefersTo rule outer) : outer.length < root.grammar.recursiveRules := by
  have inside := (h.leadsOn top path).length_scope_le
  rw [top, List.length_nil, Nat.zero_add] at inside
  have := refers.suffix.length_le
  rw [List.length_cons] at this
  omega

/-- A part begins where nothing has been taken, and then is led to, or further on. -/
theorem Suffices.onward (h : Suffices root depth r p) (top : root.scope = []) (hr : r.OnBoundary)
    (walk : r.Reaches r') {i : Nat} (at_i : p.grammar.parts[i]? = some part)
    (leads : r'.offset = r.offset → Leads p (p.branch i part)) :
    Suffices root depth r' (p.branch i part) := by
  have below := h.below.branch at_i
  by_cases same : r'.offset = r.offset
  · obtain rfl := walk.eq_of_offset same
    refine ⟨below, h.further, fun q rule outer path refers => ?_⟩
    exact h.here q rule outer (.head (leads same) path) refers
  · have fewer := bytesLeft_lt hr walk (Nat.lt_of_le_of_ne walk.offset_le (Ne.symm same))
    have less := Nat.mul_le_mul_left root.grammar.recursiveRules fewer
    rw [Nat.mul_succ] at less
    have further := h.further
    refine ⟨below, by omega, fun q rule outer path refers => ?_⟩
    have := outer_lt below top path refers
    omega

/-- Entering a rule costs one, and the rules that may be entered next are further out. -/
theorem Suffices.enter (h : Suffices root depth r p) (hw : WellFormed root) (top : root.scope = [])
    (refers : p.RefersTo rule outer) :
    ∃ less, depth = less + 1 ∧ Suffices root less r (Place.ofRule rule outer) := by
  have here := h.here p rule outer .refl refers
  refine ⟨depth - 1, by omega, h.below.ofRule top refers.suffix, by omega, ?_⟩
  intro q rule' outer' path refers'
  have := hw.length_lt top h.below refers.suffix path refers'
  omega

/-- The depth that a grammar is run with is enough for all of it. -/
theorem suffices_root (hr : root.scope = [])
    (enough : root.grammar.depthFor r.bytesLeft ≤ depth) : Suffices root depth r root := by
  rw [depthFor, Nat.mul_succ] at enough
  refine ⟨.root, by omega, fun q rule outer path refers => ?_⟩
  have := outer_lt .root hr path refers
  omega

/-- The run of the place from the reader finishes; if it succeeds without taking anything, the place
may do so. -/
def Ready (run : Run (Match Value)) (r : Reader) (p : Place) : Prop :=
  run.FinishesFrom r (p.mayTakeNothing = true)

section Parts

variable {run : Rule → Scope → Run (Match Value)} {label : String} {gs : List Grammar}
variable {a b c : Grammar}

/-- The parts of the place finish wherever a run from the reader begins them; with nothing taken, it
begins only those that the place leads to. -/
def PartsReady (run : Rule → Scope → Run (Match Value)) (r : Reader) (p : Place) : Prop :=
  ∀ (i : Nat) (part : Grammar), p.grammar.parts[i]? = some part → ∀ before : Prop,
    (before → Leads p (p.branch i part)) →
      (parser run p.inside (i :: p.node) part).run.FinishesBehind r before
        ((p.branch i part).mayTakeNothing = true)

/-- The first part, which may be begun again and again. -/
theorem PartsReady.again (h : PartsReady run r p) (at_0 : p.grammar.parts[0]? = some a) :
    (parser run p.inside (0 :: p.node) a).run.FinishesBehind r True
      ((p.branch 0 a).mayTakeNothing = true) :=
  h 0 a at_0 True fun _ => leads_first at_0

theorem PartsReady.first (h : PartsReady run r p) (at_0 : p.grammar.parts[0]? = some a) :
    Ready (parser run p.inside (0 :: p.node) a).run r (p.branch 0 a) :=
  (h.again at_0).here trivial

/-- The second part, begun where the first one has ended. -/
theorem PartsReady.second (h : PartsReady run r p) (at_0 : p.grammar.parts[0]? = some a)
    (at_1 : p.grammar.parts[1]? = some b) :
    (parser run p.inside (1 :: p.node) b).run.FinishesBehind r
      ((p.branch 0 a).mayTakeNothing = true) ((p.branch 1 b).mayTakeNothing = true) :=
  h 1 b at_1 _ fun idle => .part at_1 fun _ => passedTo_zero.next at_0 idle

/-- A part of a node that begins all of them where it begins itself. -/
theorem PartsReady.abreast (h : PartsReady run r p) (abreast : p.grammar.inTurn = false) {i : Nat}
    (at_i : p.grammar.parts[i]? = some part) :
    (parser run p.inside (i :: p.node) part).run.FinishesBehind r True
      ((p.branch i part).mayTakeNothing = true) :=
  h i part at_i True fun _ => leads_abreast abreast at_i

/-- Each alternative begins where the choice does. -/
theorem ready_choice (h : PartsReady run r ⟨scope, node, .choice label gs⟩) :
    Ready (Parser.choice label (parsers run scope node 0 gs)).run r
      ⟨scope, node, .choice label gs⟩ := by
  apply finishes_choice
  intro q hq
  obtain ⟨i, part, at_i, rfl⟩ := exists_getElem?_of_mem_parsers hq
  exact ((h.abreast rfl at_i).here trivial).imp
    (mayTakeNothing_choice (List.mem_of_getElem? at_i))

theorem ready_either (h : PartsReady run r ⟨scope, node, .either a b⟩) :
    Ready (Parser.either (parser run scope (0 :: node) a) (parser run scope (1 :: node) b)).run r
      ⟨scope, node, .either a b⟩ := by
  have second := (h.abreast rfl (i := 1) rfl).here trivial
  exact (finishes_either (h.first rfl) second).imp Bool.or_eq_true_iff.mpr

theorem ready_allOf (h : PartsReady run r ⟨scope, node, .allOf label gs⟩) :
    Ready (Parser.allOf label (parsers run scope node 0 gs)).run r
      ⟨scope, node, .allOf label gs⟩ := by
  apply finishes_allOf
  · intro q hq
    obtain ⟨i, part, at_i, rfl⟩ := exists_getElem?_of_mem_parsers hq
    exact ((h.abreast rfl at_i).here trivial).imp fun _ => trivial
  · intro q hq
    obtain ⟨i, part, at_i, last, rfl⟩ := exists_getElem?_of_getLast?_parsers hq
    exact ((h.abreast rfl at_i).here trivial).imp (mayTakeNothing_allOf last)

/-- Each part begins where the one before has ended, which may be where the whole began. -/
theorem ready_inOrder (h : PartsReady run r ⟨scope, node, .inOrder label gs⟩) :
    Ready (Parser.inOrder label (parsers run scope node 0 gs)).run r
      ⟨scope, node, .inOrder label gs⟩ := by
  let p : Place := ⟨scope, node, .inOrder label gs⟩
  let idle (i : Nat) : Prop :=
    ∃ part, p.grammar.parts[i]? = some part ∧ (p.branch i part).mayTakeNothing = true
  have next : ∀ i, p.PassedTo i → idle i → p.PassedTo (i + 1) := by
    rintro i passed ⟨part, at_i, here⟩
    exact passed.next at_i here
  have inTurn : ∀ i (q : Parser Value), (parsers run scope node 0 gs)[i]? = some q →
      q.run.FinishesBehind r (p.PassedTo i) (idle i) := by
    intro i q there
    rw [getElem?_parsers, Nat.zero_add] at there
    obtain ⟨part, at_i, rfl⟩ := Option.map_eq_some_iff.mp there
    have ready := h i part at_i (p.PassedTo i) fun passed => .part at_i fun _ => passed
    exact fun r' walk passed => (ready r' walk passed).imp fun here => ⟨part, at_i, here⟩
  refine (finishes_inOrder label passedTo_zero next inTurn).imp fun all => ?_
  rw [length_parsers] at all
  refine mayTakeNothing_inOrder fun part mem => ?_
  obtain ⟨j, at_j⟩ := List.mem_iff_getElem?.mp mem
  exact all j (List.getElem?_eq_some_iff.mp at_j).1 part at_j

theorem ready_andThen (h : PartsReady run r ⟨scope, node, .andThen a b⟩) :
    Ready ((Parser.andThen (parser run scope (0 :: node) a)
      (parser run scope (1 :: node) b)).recast fun v => .pair v.1 v.2).run r
        ⟨scope, node, .andThen a b⟩ := by
  apply finishes_recast
  exact (finishes_andThen (h.first rfl) (h.second rfl rfl)).imp Bool.and_eq_true_iff.mpr

/-- The last part begins with nothing taken only if both before it may take nothing. -/
theorem ready_between (h : PartsReady run r ⟨scope, node, .between a b c⟩) :
    Ready (Parser.between (parser run scope (0 :: node) a) (parser run scope (1 :: node) b)
      (parser run scope (2 :: node) c)).run r ⟨scope, node, .between a b c⟩ := by
  let p : Place := ⟨scope, node, .between a b c⟩
  have third := h 2 c rfl
    ((p.branch 0 a).mayTakeNothing = true ∧ (p.branch 1 b).mayTakeNothing = true)
    fun idle => .part rfl fun _ => (passedTo_zero.next rfl idle.1).next rfl idle.2
  refine (finishes_between (h.first rfl) (h.second rfl rfl) third).imp fun idle => ?_
  exact Bool.and_eq_true_iff.mpr ⟨Bool.and_eq_true_iff.mpr idle.1, idle.2⟩

end Parts

/-- A run that enters the rule of a reference, or says that it cannot. -/
theorem ready_reference {run : Rule → Scope → Run (Match Value)} {label : String}
    (bodies : ∀ rule outer, RefersTo ⟨scope, node, .reference label⟩ rule outer →
      Ready (run rule outer) r (Place.ofRule rule outer)) :
    Ready (parser run scope node (.reference label)).run r ⟨scope, node, .reference label⟩ := by
  rw [parser]
  split
  · rename_i rule outer found
    have entered := bodies rule outer ⟨label, rfl, found⟩
    refine yields_reference (entered.imp fun idle => ?_) fun _ _ _ _ _ _ => trivial
    exact (idleRules_found found).trans (mayTakeNothing_of_within idle)
  · exact yields_unavailable fun _ _ _ => trivial

/-- One case for each kind of node, by what its combinator makes of the parts. The rules that
references enter are left to `bodies`. -/
theorem ready_node {run : Rule → Scope → Run (Match Value)} (hw : WellFormed root)
    (top : root.scope = [])
    (bodies : ∀ p r rule outer, Suffices root depth r p → p.RefersTo rule outer →
      Ready (run rule outer) r (Place.ofRule rule outer))
    (plain : g.Plain) (h : Suffices root depth r ⟨scope, node, g⟩) :
    Ready (parser run scope node g).run r ⟨scope, node, g⟩ := by
  induction plain generalizing scope node r with
  | node here below ih =>
    rename_i g
    let p : Place := ⟨scope, node, g⟩
    apply Yields.of_onBoundary
    intro hr
    have parts : PartsReady run r p := by
      intro i part at_i before leads r' walk begun
      exact ih part (List.mem_of_getElem? at_i)
        (h.onward top hr walk at_i fun same => leads (begun same))
    cases g with
    | custom q => exact absurd rfl (here q)
    | codePoint label c => exact finishes_recast _ (finishes_codePoint label c)
    | literal label text =>
      exact finishes_recast _ ((finishes_literal label text).imp List.isEmpty_iff.mpr)
    | literalIgnoringCase label text =>
      exact finishes_recast _ ((finishes_literalIgnoringCase label text).imp List.isEmpty_iff.mpr)
    | oneOf label chars => exact finishes_recast _ (finishes_oneWhere _ _ _ _)
    | noneOf label chars => exact finishes_recast _ (finishes_oneWhere _ _ _ _)
    | satisfy label accepts => exact finishes_recast _ (finishes_oneWhere _ _ _ _)
    | takeWhile label accepts =>
      exact yields_recast (yields_takeWhile label accepts fun _ _ _ _ _ _ => rfl)
    | endOfInput => exact yields_recast (yields_endOfInput (fun _ _ => rfl) fun _ _ _ _ => trivial)
    | choice label gs => exact ready_choice parts
    | either a b => exact ready_either parts
    | allOf label gs => exact ready_allOf parts
    | inOrder label gs => exact ready_inOrder parts
    | andThen a b => exact ready_andThen parts
    | fst pair => exact yields_fst (finishes_recast _ (parts.first rfl))
    | snd pair => exact yields_snd (finishes_recast _ (parts.first rfl))
    | many item =>
      exact finishes_recast _ ((finishes_many (parts.again rfl)).imp fun _ => rfl)
    | many1 item => exact finishes_recast _ (finishes_many1 (parts.again rfl))
    | optional part =>
      exact finishes_recast _ ((finishes_optional (parts.first rfl)).imp fun _ => rfl)
    | notAhead label part =>
      exact finishes_recast _ ((finishes_notAhead _ (parts.first rfl)).imp fun _ => rfl)
    | attempt part => exact yields_attempt (parts.first rfl)
    | map f part => exact yields_map (parts.first rfl)
    | filter label accepts part => exact finishes_filter label accepts (parts.first rfl)
    | withSpan part => exact yields_recast (yields_withSpan (parts.first rfl))
    | lexeme part => exact finishes_lexeme (parts.first rfl)
    | traced name part => exact yields_traced (parts.first rfl)
    | between a b c => exact ready_between parts
    | sepBy item delimiter =>
      have delimiters := parts.second (a := item) (b := delimiter) rfl rfl
      exact finishes_recast _ (finishes_sepBy (parts.again rfl) delimiters)
    | manyTill item ending =>
      have endings := parts.abreast rfl (i := 1) rfl
      exact finishes_recast _ ((finishes_manyTill (parts.again rfl) endings).imp fun _ => rfl)
    | chainLeft combine operand operator =>
      have notBoth := hw.moving p h.below combine operand operator (.inl rfl)
      exact finishes_chainLeft notBoth (parts.again rfl) fun r' walk passed =>
        finishes_recast combine (parts.second rfl rfl r' walk passed)
    | chainRight combine operand operator =>
      have notBoth := hw.moving p h.below combine operand operator (.inr rfl)
      exact finishes_chainRight notBoth (parts.again rfl) fun r' walk passed =>
        finishes_recast combine (parts.second rfl rfl r' walk passed)
    | «lazy» label body => exact yields_deferred_same (fun _ _ => trivial) (parts.first rfl)
    | recursive label body =>
      exact yields_deferred_same (fun _ _ => trivial)
        ((parts.first rfl).imp mayTakeNothing_of_within)
    | reference label => exact ready_reference fun rule outer => bodies p r rule outer h
    | «alias» part => exact parts.first rfl
    | labelled label part => exact parts.first rfl

theorem Below.everywhere {P : Grammar → Prop} (h : Below root p)
    (hroot : root.grammar.Everywhere P) : p.grammar.Everywhere P := by
  induction h with
  | root => exact hroot
  | branch _ at_i ih =>
    cases ih with
    | node _ below => exact below _ (List.mem_of_getElem? at_i)

/-- Each rule that is entered has a depth that is enough for it. -/
theorem ready_enter (hw : WellFormed root) (top : root.scope = []) (plain : root.grammar.Plain)
    (depth : Nat) (p : Place) (r : Reader) (rule : Rule) (outer : Scope)
    (h : Suffices root depth r p) (refers : p.RefersTo rule outer) :
    Ready (enter depth rule outer) r (Place.ofRule rule outer) := by
  induction depth generalizing p r rule outer with
  | zero =>
    obtain ⟨less, impossible, -⟩ := h.enter hw top refers
    cases impossible
  | succ depth ih =>
    obtain ⟨less, same, inside⟩ := h.enter hw top refers
    obtain rfl := Nat.succ.inj same
    have body : rule.body.Plain := inside.below.everywhere plain
    exact ready_node hw top (fun p r rule outer => ih p r rule outer) body inside

end Place

/-- A run of a well-formed grammar of parsers that are none of one's own is never cut short: it
gives a value or it fails, wherever it begins, however much deeper than `toParser` it may enter
rules. -/
theorem wellFormed_finishes {g : Grammar} (plain : g.Plain) {node : NodeId}
    (hw : g.WellFormed node) {r : Reader} (hr : r.OnBoundary) (store : Store) :
    (∀ depth ≥ g.depthFor r.bytesLeft, ((g.parserWithin depth node).run ⟨r, store⟩).Finishes) ∧
      ((g.toParser node).run ⟨r, store⟩).Finishes := by
  have finishes : ∀ depth ≥ g.depthFor r.bytesLeft,
      ((g.parserWithin depth node).run ⟨r, store⟩).Finishes := by
    intro depth enough cause t halted
    have ready := Place.ready_node hw rfl (Place.ready_enter hw rfl plain depth) plain
      (Place.suffices_root rfl enough)
    have ends := ready hr store trivial
    rw [Run.Ends] at ends
    rw [parserWithin] at halted
    rw [halted] at ends
    exact ends
  exact ⟨finishes, finishes _ (Nat.le_refl _)⟩

/-- Sums of digits, each with any number of minus signs, or of sums in brackets. -/
def nestedSums : Grammar :=
  .recursive "sum" (.chainLeft .operation
    (.recursive "term" (.choice "term" [digit,
      .snd (.andThen (.codePoint "minus" '-') (.reference "term")),
      .between (.codePoint "opening" '[') (.reference "sum") (.codePoint "closing" ']')]))
    (.lexeme (.codePoint "plus" '+')))

theorem nestedSums_plain : nestedSums.Plain :=
  .unary nofun rfl (.binary nofun rfl
    (.unary nofun rfl (.ternary nofun rfl (.leaf nofun rfl)
      (.unary nofun rfl (.binary nofun rfl (.leaf nofun rfl) (.leaf nofun rfl)))
      (.ternary nofun rfl (.leaf nofun rfl) (.leaf nofun rfl) (.leaf nofun rfl))))
    (.unary nofun rfl (.leaf nofun rfl)))

theorem nestedSums_wellFormed : nestedSums.WellFormed [] :=
  wellFormed_of_isWellFormed (by decide) []

theorem nestedSums_finishes :
    nestedSums.Plain ∧ nestedSums.WellFormed [] ∧
      (Reader.startAt ['é', '-', '[', '1', '+'] ⟨2, 1, 2⟩).OnBoundary ∧
      ((nestedSums.toParser []).run
        ⟨Reader.startAt ['é', '-', '[', '1', '+'] ⟨2, 1, 2⟩, .empty⟩).Finishes := by
  have boundary : (Reader.startAt ['é', '-', '[', '1', '+'] ⟨2, 1, 2⟩).OnBoundary := by decide
  have finishes := wellFormed_finishes nestedSums_plain nestedSums_wellFormed boundary .empty
  exact ⟨nestedSums_plain, nestedSums_wellFormed, boundary, finishes.2⟩

/-- A rule that goes round behind what may take nothing. -/
example : (Grammar.recursive "signs" (.andThen (.optional (.codePoint "minus" '-'))
    (.reference "signs"))).isWellFormed (fun _ => false) = false := by decide

end Grammar

end RecursiveDescent
