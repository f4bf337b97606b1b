import RecursiveDescent.Deferred
import RecursiveDescent.Proofs.Lines
import RecursiveDescent.Proofs.LineTracking
import RecursiveDescent.Proofs.YieldingLoops

/-!
# The causes of a failure

The levels of a failure lead from where the run began to where its root was raised. Each stands
where the reader stood when its parser began, or failed by itself, and repeats what its cause
expected and found; only a repetition without an item says this in its own words.
-/
namespace RecursiveDescent

def many1Failed : String := "Many1 parser failed."

namespace Level

/-- The level was made where the reader stood. -/
def StandsAt (l : Level) (r : Reader) : Prop :=
  l.position = r.position ∧ l.lineText = String.ofList r.currentLine

/-- From a level to its cause; `items` are the labels of what is repeated. -/
structure Repeats (items : String → Prop) (l cause : Level) : Prop where
  onward : l.position.offset ≤ cause.position.offset
  same : l.message ≠ many1Failed → l.expected = cause.expected ∧ l.found = cause.found
  restated : l.message = many1Failed →
    ∃ item, items item ∧ l.expected = s!"{item} at least once" ∧ l.found = s!"{item} zero times"

end Level

namespace Failure

/-- The failure was raised by a run from `r`. -/
structure RaisedFrom (items : String → Prop) (r : Reader) (f : Failure) : Prop where
  top : f.top.StandsAt r
  reached : ∀ l ∈ f.levels, ∃ r', r.Reaches r' ∧ l.StandsAt r'
  causes : f.levels.IsChain (Level.Repeats items)

/-- What is told of a failed run over a whole text. The levels lead from the start of the text
onwards; each is where a reader can get over whole symbols, tells the line and column there, and
shows the line around. -/
structure Faithful (items : String → Prop) (input : Text) (f : Failure) : Prop where
  start : f.top.position = Position.start
  reached : ∀ l ∈ f.levels, ∃ n r, (Reader.start input).steps? n = some r ∧ l.position = r.position
  counted : ∀ l ∈ f.levels, Position.start.CountsFrom input l.position
  shown : ∀ l ∈ f.levels, input.LineAround l.position.offset l.lineText.toList
  causes : f.levels.IsChain (Level.Repeats items)

variable {items : String → Prop} {r r₁ : Reader} {f : Failure}

theorem raisedFrom_here (items : String → Prop) (r : Reader) (message expected found : String) :
    RaisedFrom items r (.here message expected found r) where
  top := ⟨rfl, rfl⟩
  reached l hl := by
    obtain rfl := List.mem_singleton.mp hl
    exact ⟨r, .refl r, rfl, rfl⟩
  causes := .singleton _

/-- A level put on top where a walk to the failure of a part began. -/
theorem RaisedFrom.under (h : RaisedFrom items r₁ f) (walk : r.Reaches r₁) {top : Level}
    (stands : top.StandsAt r) (repeats : top.Repeats items f.top) :
    RaisedFrom items r ⟨top, f.levels⟩ where
  top := stands
  reached l hl := by
    rcases List.mem_cons.mp hl with rfl | hl
    · exact ⟨r, .refl r, stands⟩
    · obtain ⟨r', onward, there⟩ := h.reached l hl
      exact ⟨r', walk.trans onward, there⟩
  causes := List.isChain_cons_cons.mpr ⟨repeats, h.causes⟩

theorem RaisedFrom.offset_le (h : RaisedFrom items r₁ f) (walk : r.Reaches r₁) :
    r.position.offset ≤ f.top.position.offset := by
  rw [h.top.1]
  exact walk.offset_le

/-- A level put on top of the failure of a part repeats what that expected and found. -/
theorem RaisedFrom.enclose (h : RaisedFrom items r₁ f) (walk : r.Reaches r₁) {message : String}
    (other : message ≠ many1Failed) : RaisedFrom items r (f.enclose message r) :=
  h.under walk ⟨rfl, rfl⟩ ⟨h.offset_le walk, fun _ => ⟨rfl, rfl⟩, fun same => absurd same other⟩

theorem RaisedFrom.betweenLeft (h : RaisedFrom items r f) :
    RaisedFrom items r (Conditions.betweenLeft r f) := by
  have second := h.enclose (.refl r) (show "KeepRight failed." ≠ many1Failed by decide)
  have left := second.enclose (.refl r) (show "Left of Then failed" ≠ many1Failed by decide)
  have first := left.enclose (.refl r) (show "KeepLeft failed." ≠ many1Failed by decide)
  exact first.enclose (.refl r) (by decide)

theorem RaisedFrom.betweenRight (h : RaisedFrom items r₁ f) (walk : r.Reaches r₁) :
    RaisedFrom items r (Conditions.betweenRight r f) := by
  have right := h.enclose walk (show "Right of Then failed" ≠ many1Failed by decide)
  have first := right.enclose (.refl r) (show "KeepLeft failed." ≠ many1Failed by decide)
  exact first.enclose (.refl r) (by decide)

/-- What a repetition makes of the failure of its first item. -/
theorem RaisedFrom.restate (h : RaisedFrom items r f) {item : String} (hitem : items item) :
    RaisedFrom items r (((f.enclose many1Failed r).withExpected s!"{item} at least once").withFound
      s!"{item} zero times") :=
  h.under (.refl r) ⟨rfl, rfl⟩
    ⟨h.offset_le (.refl r), fun other => absurd rfl other, fun _ => ⟨item, hitem, rfl, rfl⟩⟩

/-- The start of a text is a place from where walks tell lines and columns. -/
theorem RaisedFrom.faithful {input : Text} (h : RaisedFrom items (Reader.start input) f) :
    f.Faithful items input where
  start := h.top.1
  reached l hl := by
    obtain ⟨r, ⟨n, steps⟩, stands⟩ := h.reached l hl
    exact ⟨n, r, steps, stands.1⟩
  counted l hl := by
    obtain ⟨r, walk, stands⟩ := h.reached l hl
    rw [stands.1]
    exact walk.countsFrom (Reader.onBoundary_start input)
  shown l hl := by
    obtain ⟨r, walk, stands⟩ := h.reached l hl
    obtain ⟨walked, ahead, whole, hr⟩ := walk.exists_walked
    have offset : r.offset = walked.byteLength := by
      rw [hr, Reader.offset, Position.offset_past]
      exact Nat.zero_add _
    have hinput : r.input = walked ++ r.remaining := by
      rw [← ahead, walk.input, Reader.remaining_start]
      rfl
    have line := Reader.lineAround_currentLine hinput offset whole
    rw [walk.input] at line
    rw [stands.1, stands.2, String.toList_ofList]
    exact line
  causes := h.causes

end Failure

def Parser.RaisesFromStart (p : Parser Value) (items : String → Prop) : Prop :=
  ∀ input store f t, p.run ⟨Reader.start input, store⟩ = .failed f t →
    f.RaisedFrom items (Reader.start input)

def Parser.FailsFaithfully (p : Parser Value) (items : String → Prop) : Prop :=
  ∀ input store f t, p.run ⟨Reader.start input, store⟩ = .failed f t → f.Faithful items input

theorem Parser.RaisesFromStart.failsFaithfully {p : Parser Value} {items : String → Prop}
    (h : p.RaisesFromStart items) : p.FailsFaithfully items :=
  fun input store f t failed => (h input store f t failed).faithful

namespace Grammar

open Conditions Failure

/-- The node is no parser of one's own, and the label of what it repeats is known. -/
def LabelledNode (items : String → Prop) (g : Grammar) : Prop :=
  (∀ p, g ≠ .custom p) ∧ ∀ item, g = .many1 item → items item.label

def Labelled (items : String → Prop) : Grammar → Prop :=
  Everywhere (LabelledNode items)

variable {items : String → Prop} {g : Grammar} {scope : Scope}

/-- Wherever the run begins, its failure was raised from there. -/
def Raises {α : Type} (items : String → Prop) (run : Run (Match α)) : Prop :=
  ∀ r, any.Yields run r (fun _ _ => True) (RaisedFrom items r)

theorem refuses (items : String → Prop) (r : Reader) : Refuses (RaisedFrom items r) r :=
  raisedFrom_here items r

section Combinators

variable {α β γ : Type} {p item : Parser α} {q : Parser β} {ps : List (Parser α)}

/-- A part of a run from `r`, whose failure the run puts under a level of its own. -/
theorem Raises.enclosed {run : Run (Match α)} (h : Raises items run) {r r' : Reader}
    (walk : r.Reaches r') {message : String} (other : message ≠ many1Failed) :
    any.Yields run r' (fun _ _ => True) fun f => RaisedFrom items r (f.enclose message r) :=
  (h r').mono (fun _ _ _ => id) fun _ hf => hf.enclose walk other

theorem raises_oneWhere (label message expected : String) (accepts : Char → Bool) :
    Raises items (Parser.oneWhere label message expected accepts).run :=
  fun r => yields_oneWhere label message expected accepts (fun _ _ _ _ _ => trivial)
    fun _ => refuses items r

theorem raises_recast (f : α → β) (h : Raises items p.run) : Raises items (p.recast f).run :=
  fun r => yields_recast (h r)

/-! ## Alternatives, guards and lookahead -/

/-- The failure of a choice is that of its last alternative. -/
theorem raises_choice (label : String) (h : ∀ p ∈ ps, Raises items p.run) :
    Raises items (Parser.choice label ps).run := by
  intro r
  apply yields_choice
  refine yields_choiceFrom (fun p hp => ?_) nofun (refuses items r)
  exact (h p hp).enclosed (.refl r) (by decide)

theorem raises_either {p q : Parser α} (hp : Raises items p.run) (hq : Raises items q.run) :
    Raises items (Parser.either p q).run := by
  apply raises_choice
  rw [List.forall_mem_cons, List.forall_mem_singleton]
  exact ⟨hp, hq⟩

theorem raises_allOf (label : String) (h : ∀ p ∈ ps, Raises items p.run) :
    Raises items (Parser.allOf label ps).run := by
  intro r
  refine yields_allOf (fun p hp => ?_) (fun p hp => ?_) fun _ => refuses items r
  · exact (h p hp).enclosed (.refl r) (by decide)
  · exact (h p (List.mem_of_getLast? hp)).enclosed (.refl r) (by decide)

theorem raises_optional (h : Raises items p.run) : Raises items (Parser.optional p).run :=
  fun r => yields_optional ((h r).mono (fun _ _ _ => id) fun _ _ => trivial)

theorem raises_notAhead (label : String) (h : Raises items p.run) :
    Raises items (Parser.notAhead label p).run := by
  intro r
  apply yields_notAhead
  exact (h r).mono (fun _ _ _ _ => refuses items r) fun _ _ => trivial

/-! ## One parser after the other -/

/-- Wherever a parser of the sequence begins, those behind it raise their failures too. -/
theorem raises_inOrder (label : String) (h : ∀ p ∈ ps, Raises items p.run) :
    Raises items (Parser.inOrder label ps).run := by
  intro r
  refine yields_inOrder (fun left _ => ∀ p ∈ left, Raises items p.run) h ?_
    fun _ => refuses items r
  intro p left r' walk all
  obtain ⟨hp, behind⟩ := List.forall_mem_cons.mp all
  exact (hp.enclosed walk (by decide)).mono (fun _ _ _ _ => ⟨behind, fun _ => trivial⟩)
    fun _ => id

theorem raises_andThen (left : Raises items p.run) (right : Raises items q.run) :
    Raises items (Parser.andThen p q).run := by
  intro r
  apply yields_andThen
  refine (left.enclosed (.refl r) (by decide)).mono (fun _ r₁ walk _ => ?_) fun _ => id
  exact right.enclosed walk (by decide)

/-- The failure of a part is passed on by the parsers that `between` is made of, each from the
start. -/
theorem raises_between {closing : Parser γ} (first : Raises items p.run)
    (second : Raises items q.run) (third : Raises items closing.run) :
    Raises items (Parser.between p q closing).run := by
  intro r
  apply yields_between
  refine (first r).mono (fun _ r₁ walk₁ _ => ?_) fun f hf =>
    (hf.enclose (.refl r) (by decide)).betweenLeft
  refine (second r₁).mono (fun _ r₂ walk₂ _ => ?_) fun f hf =>
    (hf.enclose walk₁ (by decide)).betweenLeft
  exact (third r₂).mono (fun _ _ _ _ => trivial) fun f hf =>
    hf.betweenRight (walk₁.trans walk₂)

/-! ## Changing what a parser gives -/

theorem raises_filter (label : String) (accepts : α → Bool) (h : Raises items p.run) :
    Raises items (Parser.filter label accepts p).run := by
  intro r
  apply yields_filter
  exact (h r).mono (fun _ _ _ _ => ⟨fun _ => trivial, fun _ => refuses items r⟩) fun _ => id

theorem raises_lexeme (h : Raises items p.run) : Raises items (Parser.lexeme p).run := by
  intro r
  apply yields_lexeme
  exact (h r).mono (fun _ _ _ _ _ _ _ _ _ => trivial) fun _ => id

/-! ## Repetitions -/

theorem raises_many (h : Raises items item.run) : Raises items (Parser.many item).run := by
  intro r
  refine (yields_many (fun _ => True) trivial (fun _ _ _ => True) fun r' _ _ => ?_).mono
    (fun _ _ _ => id) fun _ => id
  exact (h r').mono (fun _ _ _ _ => continues_any) fun _ _ => trivial

/-- Only the first item can fail the repetition. -/
theorem raises_many1 (h : Raises items item.run) (named : items item.label) :
    Raises items (Parser.many1 item).run := by
  intro r
  refine yields_many1 (fun _ => True) (fun _ _ _ => True) ?_ fun r' _ _ => ?_
  · exact (h r).mono (fun _ _ _ _ => continues_any) fun f hf => hf.restate named
  · exact (h r').mono (fun _ _ _ _ => continues_any) fun _ _ => trivial

theorem raises_sepBy (hitem : Raises items item.run) (hq : Raises items q.run) :
    Raises items (Parser.sepBy item q).run := by
  intro r
  refine yields_sepBy (fun _ => True) (fun _ _ _ => True) ?_ fun r' walk _ => ?_
  · exact (hitem.enclosed (.refl r) (by decide)).mono
      (fun _ _ _ _ => ⟨trivial, fun _ _ _ => trivial⟩) fun _ => id
  · refine (hq r').mono (fun _ r₁ walk₁ _ => ?_) fun _ _ => trivial
    exact (hitem.enclosed (walk.trans walk₁) (by decide)).mono
      (fun _ _ _ _ => continues_any) fun _ => id

/-- An item that takes nothing fails where it began, which the repetition encloses as well. -/
theorem raises_manyTill (hitem : Raises items item.run) (hq : Raises items q.run) :
    Raises items (Parser.manyTill item q).run := by
  intro r
  refine (yields_manyTill (fun _ => True) trivial (fun _ _ _ => True) fun r' walk _ => ?_).mono
    (fun _ _ _ => id) fun _ => id
  refine (hq r').mono (fun _ _ _ _ => trivial) fun _ _ => ?_
  refine (hitem.enclosed walk (by decide)).mono (fun _ _ _ _ => ⟨fun _ => ?_,
    fun _ => ⟨trivial, fun _ _ _ => trivial⟩⟩) fun _ => id
  exact fun message expected found =>
    (raisedFrom_here items r' message expected found).enclose walk (by decide)

def AnyRounds (_ : Reader) (after : List ((α → α → α) × α) → Reader → Prop) : Prop :=
  ∀ ops r', after ops r'

variable {operator : Parser (α → α → α)} {name : String} {r : Reader}

theorem raises_first (first : Raises items p.run) (other : initialFailed name ≠ many1Failed) :
    any.Yields p.run r
      (fun _ r₁ => ∃ behind : List ((α → α → α) × α) → Reader → Prop,
        AnyRounds r₁ behind ∧ ∀ ops r₂, behind ops r₂ → True)
      fun f => RaisedFrom items r (f.enclose (initialFailed name) r) :=
  (first.enclosed (.refl r) other).mono
    (fun _ _ _ _ => ⟨fun _ _ => True, fun _ _ => trivial, fun _ _ _ => trivial⟩) fun _ => id

/-- A round fails with its operand; without an operator the chain has ended. -/
theorem raises_round (right : Raises items p.run) (between : Raises items operator.run)
    (other : rightFailed name ≠ many1Failed) :
    any.Round r name p operator AnyRounds (RaisedFrom items r) := by
  intro r' after walk free
  refine (between r').mono (fun _ r₁ walk₁ _ => ?_) fun _ _ => free _ _
  exact (right.enclosed (walk.trans walk₁) other).mono
    (fun _ _ _ _ => ⟨fun _ => trivial, after, free, fun _ _ _ => free _ _⟩) fun _ => id

theorem raises_chainLeft (hp : Raises items p.run) (hop : Raises items operator.run) :
    Raises items (Parser.chainLeft p operator).run :=
  fun _ => yields_chainLeft AnyRounds (raises_first hp (by decide))
    (raises_round hp hop (by decide))

theorem raises_chainRight (hp : Raises items p.run) (hop : Raises items operator.run) :
    Raises items (Parser.chainRight p operator).run :=
  fun _ => yields_chainRight AnyRounds (raises_first hp (by decide))
    (raises_round hp hop (by decide))

end Combinators

/-- One case for each kind of node, by what its combinator raises. The bodies that references enter
are not parts of the node, so they are left to `bodies`. -/
theorem raises_node {run : Rule → Scope → Run (Match Value)}
    (bodies : ∀ (rule : Rule) (outer : Scope), rule.body.Labelled items →
      InScope (LabelledNode items) outer → Raises items (run rule outer))
    (hg : g.Labelled items) (hscope : InScope (LabelledNode items) scope) (node : NodeId) :
    Raises items (parser run scope node g).run := by
  induction hg generalizing scope node with
  | node here below ih =>
    rename_i g
    have branch : ∀ i h, g.parts[i]? = some h → Raises items (parser run scope (i :: node) h).run :=
      fun i h at_i => ih h (List.mem_of_getElem? at_i) hscope (i :: node)
    have branches : ∀ p ∈ parsers run scope node 0 g.parts, Raises items p.run := by
      intro p hp
      obtain ⟨i, h, hh, rfl⟩ := exists_of_mem_parsers hp
      exact ih h hh hscope (i :: node)
    cases g with
    | custom p => exact absurd rfl (here.1 p)
    | codePoint label c =>
      exact fun r => yields_recast
        (yields_codePoint label c (fun _ _ _ => trivial) fun _ => refuses items r)
    | literal label text =>
      exact fun r => yields_recast
        (yields_literal label text (fun _ _ _ => trivial) (refuses items r))
    | literalIgnoringCase label text =>
      exact fun r => yields_recast
        (yields_literalIgnoringCase label text (fun _ _ _ _ _ => trivial) (refuses items r))
    | oneOf label chars => exact raises_recast _ (raises_oneWhere _ _ _ _)
    | noneOf label chars => exact raises_recast _ (raises_oneWhere _ _ _ _)
    | satisfy label accepts => exact raises_recast _ (raises_oneWhere _ _ _ _)
    | takeWhile label accepts =>
      exact fun r => yields_recast (yields_takeWhile label accepts fun _ _ _ _ _ => trivial)
    | endOfInput =>
      exact fun r => yields_recast (yields_endOfInput (fun _ => trivial) fun _ => refuses items r)
    | choice label gs => exact raises_choice label branches
    | either a b => exact raises_either (branch 0 a rfl) (branch 1 b rfl)
    | allOf label gs => exact raises_allOf label branches
    | inOrder label gs => exact raises_inOrder label branches
    | andThen a b => exact raises_recast _ (raises_andThen (branch 0 a rfl) (branch 1 b rfl))
    | fst pair =>
      have parted := raises_recast Value.toPair (branch 0 pair rfl)
      exact fun r => yields_fst (parted.enclosed (.refl r) (by decide))
    | snd pair =>
      have parted := raises_recast Value.toPair (branch 0 pair rfl)
      exact fun r => yields_snd (parted.enclosed (.refl r) (by decide))
    | many item => exact raises_recast _ (raises_many (branch 0 item rfl))
    | many1 item =>
      have named : items (parser run scope (0 :: node) item).label := by
        rw [(below item List.mem_cons_self).parser_label]
        exact here.2 item rfl
      exact raises_recast _ (raises_many1 (branch 0 item rfl) named)
    | optional part => exact raises_recast _ (raises_optional (branch 0 part rfl))
    | notAhead label part => exact raises_recast _ (raises_notAhead _ (branch 0 part rfl))
    | attempt part =>
      exact fun r => yields_attempt ((branch 0 part rfl).enclosed (.refl r) (by decide))
    | map f part => exact fun r => yields_map ((branch 0 part rfl).enclosed (.refl r) (by decide))
    | filter label accepts part => exact raises_filter label accepts (branch 0 part rfl)
    | withSpan part => exact fun r => yields_recast (yields_withSpan (branch 0 part rfl r))
    | lexeme part => exact raises_lexeme (branch 0 part rfl)
    | traced name part => exact fun r => yields_traced (branch 0 part rfl r)
    | between opening content closing =>
      exact raises_between (branch 0 opening rfl) (branch 1 content rfl) (branch 2 closing rfl)
    | sepBy item delimiter =>
      exact raises_recast _ (raises_sepBy (branch 0 item rfl) (branch 1 delimiter rfl))
    | manyTill item ending =>
      exact raises_recast _ (raises_manyTill (branch 0 item rfl) (branch 1 ending rfl))
    | chainLeft combine operand operator =>
      have operators := raises_recast combine (branch 1 operator rfl)
      exact raises_chainLeft (branch 0 operand rfl) operators
    | chainRight combine operand operator =>
      have operators := raises_recast combine (branch 1 operator rfl)
      exact raises_chainRight (branch 0 operand rfl) operators
    | «lazy» label body =>
      exact fun r => yields_deferred_same (fun _ _ => trivial) (branch 0 body rfl r)
    | recursive label body =>
      have within : InScope (LabelledNode items) (⟨label, node, body⟩ :: scope) :=
        hscope.cons (below body List.mem_cons_self)
      have inside := ih body List.mem_cons_self within (0 :: node)
      exact fun r => yields_deferred_same (fun _ _ => trivial) (inside r)
    | reference label =>
      rw [parser]
      split
      · rename_i rule outer found
        obtain ⟨body, outside⟩ := hscope.found found
        exact fun r => yields_reference (bodies rule outer body outside r) fun _ _ _ =>
          refuses items r
      · exact fun r => yields_unavailable (refuses items r)
    | «alias» part => exact branch 0 part rfl
    | labelled label part => exact branch 0 part rfl

/-- However deep rules may be entered: the bodies are parts of the grammar too. -/
theorem raises_enter (depth : Nat) {rule : Rule} {outer : Scope}
    (body : rule.body.Labelled items) (outside : InScope (LabelledNode items) outer) :
    Raises items (enter depth rule outer) := by
  induction depth generalizing rule outer with
  | zero => exact fun r _ _ _ => trivial
  | succ depth ih =>
    exact raises_node (fun _ _ body outside => ih body outside) body (outside.cons body)
      (0 :: rule.node)

theorem Raises.raisesFromStart {p : Parser Value} (h : Raises items p.run) :
    p.RaisesFromStart items := by
  intro input store f t failed
  have ends := h _ (Reader.onBoundary_start input) store trivial
  rw [Run.Ends, failed] at ends
  exact ends.2

/-- What is repeated at least once somewhere in the grammar, by label. -/
def RepeatedLabel (g : Grammar) (label : String) : Prop :=
  ∃ item : Grammar, (Grammar.many1 item).Occurs g ∧ item.label = label

theorem Plain.labelled (hg : g.Plain) : g.Labelled g.RepeatedLabel := by
  apply Everywhere.and_of_occurs hg
  rintro _ occurs item rfl
  exact ⟨item, occurs, rfl⟩

/-- A grammar of parsers that are none of one's own raises its failures from where it begins, in
whichever way it is run. -/
theorem Plain.raisesFromStart (hg : g.Plain) (node : NodeId) :
    (∀ depth, (g.parserWithin depth node).RaisesFromStart g.RepeatedLabel) ∧
      (g.toParser node).RaisesFromStart g.RepeatedLabel ∧
      ∀ kind label probe,
        (Deferred.mk kind label g probe).handle.RaisesFromStart g.RepeatedLabel := by
  have within : ∀ depth, Raises g.RepeatedLabel (g.parserWithin depth node).run := fun depth =>
    raises_node (fun _ _ body outside => raises_enter depth body outside) hg.labelled inScope_nil
      node
  refine ⟨fun depth => (within depth).raisesFromStart, ?_, ?_⟩
  · exact fun input store f t failed => (within _).raisesFromStart input store f t failed
  · intro kind label probe input store f t failed
    have entered : ∀ depth, Raises g.RepeatedLabel
        (Parser.reference [] label (enter depth ⟨label, [], g⟩ [])).run := fun depth r =>
      yields_reference (raises_enter depth hg.labelled inScope_nil r) fun _ _ _ => refuses _ r
    exact (entered _).raisesFromStart input store f t failed

/-- A grammar of parsers that are none of one's own fails faithfully, in whichever way it is run. -/
theorem plain_failsFaithfully (hg : g.Plain) (node : NodeId) :
    (∀ depth, (g.parserWithin depth node).FailsFaithfully g.RepeatedLabel) ∧
      (g.toParser node).FailsFaithfully g.RepeatedLabel ∧
      ∀ kind label probe,
        (Deferred.mk kind label g probe).handle.FailsFaithfully g.RepeatedLabel := by
  obtain ⟨within, whole, deferred⟩ := hg.raisesFromStart node
  exact ⟨fun depth => (within depth).failsFaithfully, whole.failsFaithfully,
    fun kind label probe => (deferred kind label probe).failsFaithfully⟩

def numberLines : Grammar :=
  .sepBy (.many1 digit) (.codePoint "line break" '\n')

theorem numberLines_plain : numberLines.Plain :=
  .binary nofun rfl (.unary nofun rfl (.leaf nofun rfl)) (.leaf nofun rfl)

theorem numberLines_failsFaithfully :
    numberLines.Plain ∧ ∃ f t, (numberLines.toParser []).run
        ⟨Reader.start ['1', '2', '\r', '\n', '3', '\n', 'x', 'y', '\r'], .empty⟩ = .failed f t ∧
      f.Faithful numberLines.RepeatedLabel ['1', '2', '\r', '\n', '3', '\n', 'x', 'y', '\r'] ∧
      f.levels.map (fun l => (l.message, l.expected, l.position, l.lineText)) =
        [("SeparatedBy combinator failed.", "digit at least once", ⟨0, 1, 1⟩, "12"),
          ("Many1 parser failed.", "digit at least once", ⟨6, 3, 1⟩, "xy"),
          ("Char parser with predicate failed.", "digit", ⟨6, 3, 1⟩, "xy")] := by
  have failure : ((numberLines.toParser []).run ⟨Reader.start
        ['1', '2', '\r', '\n', '3', '\n', 'x', 'y', '\r'], .empty⟩).failure?.map (fun f =>
        f.levels.map fun l => (l.message, l.expected, l.position, l.lineText)) =
      some [("SeparatedBy combinator failed.", "digit at least once", ⟨0, 1, 1⟩, "12"),
        ("Many1 parser failed.", "digit at least once", ⟨6, 3, 1⟩, "xy"),
        ("Char parser with predicate failed.", "digit", ⟨6, 3, 1⟩, "xy")] := by decide +kernel
  obtain ⟨f, t, failed, levels⟩ := Outcome.exists_failed_of_failure? failure
  have faithful := (plain_failsFaithfully numberLines_plain []).2.1 _ _ f t failed
  exact ⟨numberLines_plain, f, t, failed, faithful, levels⟩

end Grammar

end RecursiveDescent
