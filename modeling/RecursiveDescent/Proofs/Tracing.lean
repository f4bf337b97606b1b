import RecursiveDescent.Proofs.Contract
import RecursiveDescent.Proofs.RulesBuilt

/-!
# The log of traced parsers

A traced parser logs that it tries and then how the attempt ends, whatever is done with the result
afterwards. What is logged in between comes from attempts that have ended themselves. So the events
come in brackets, and since parsers keep their contract, each attempt is closed by an event that
agrees with it: on the position where it began and on the text that was matched.
-/
namespace RecursiveDescent

/-! ## Brackets -/

namespace Event

/-- Builds of rules are logged too, but for debugging. -/
def isTrace : Event → Bool
  | .building _ _ _ => false
  | .trying _ _ _ | .matched _ _ _ _ | .failed _ _ _ => true

/-- The event ends the attempt of `node` at `position`. -/
inductive Closes (input : Text) (node : NodeId) (name : String) (position : Position) :
    Event → Prop
  | matched {text : Text} {span : Span} : span.start = position →
    input.slice? span.start.offset span.stop.offset = some text →
    Closes input node name position (.matched node name text span)
  | failed {failure : Failure} : failure.top.position = position →
    Closes input node name position (.failed node name failure)

/-- By how much the event changes the number of attempts under way. -/
def rise : Event → Int
  | .building _ _ _ => 0
  | .trying _ _ _ => 1
  | .matched _ _ _ _ | .failed _ _ _ => -1

variable {input : Text} {node : NodeId} {name : String} {position : Position} {close : Event}

theorem Closes.rise_eq (h : close.Closes input node name position) : close.rise = -1 := by
  cases h <;> rfl

theorem Closes.not_trying (h : close.Closes input node name position) {other : NodeId}
    {label : String} {p : Position} : close ≠ .trying other label p := by
  cases h <;> nofun

end Event

/-- Each attempt is closed, and so is each one in between. -/
inductive Bracketed (input : Text) : List Event → Prop
  | nil : Bracketed input []
  | attempt {node : NodeId} {name : String} {position : Position} {close : Event}
    {inside rest : List Event} : close.Closes input node name position → Bracketed input inside →
    Bracketed input rest →
    Bracketed input (.trying node name position :: (inside ++ close :: rest))

/-- Of each attempt there is one way only to say by what event it is closed. -/
def ClosedOnce (input : Text) (log : List Event) : Prop :=
  ∀ (before after : List Event) (node : NodeId) (name : String) (position : Position),
    log = before ++ .trying node name position :: after →
      ∃! parts : List Event × Event × List Event, after = parts.1 ++ parts.2.1 :: parts.2.2 ∧
        Bracketed input parts.1 ∧ parts.2.1.Closes input node name position

def height : List Event → Int
  | [] => 0
  | e :: log => e.rise + height log

theorem height_append (log log' : List Event) :
    height (log ++ log') = height log + height log' := by
  induction log with
  | nil => exact (Int.zero_add _).symm
  | cons e log ih => rw [List.cons_append, height, height, ih, Int.add_assoc]

namespace Bracketed

variable {input : Text} {log log' before after inside rest : List Event} {close : Event}
variable {node : NodeId} {name : String} {position : Position}

theorem append (h : Bracketed input log) (h' : Bracketed input log') :
    Bracketed input (log ++ log') := by
  induction h with
  | nil => exact h'
  | attempt closes inside _ _ ih =>
    rw [List.cons_append, List.append_assoc, List.cons_append]
    exact .attempt closes inside ih

/-- A bracketed log rises as often as it falls. -/
theorem height_eq (h : Bracketed input log) : height log = 0 := by
  induction h with
  | nil => rfl
  | attempt closes _ _ ihInside ihRest =>
    rw [height, height_append, height, closes.rise_eq, ihInside, ihRest]
    rfl

/-- Nothing is closed in brackets that was not tried there before. -/
theorem height_nonneg (h : Bracketed input log) (split : log = before ++ after) :
    0 ≤ height before := by
  induction h generalizing before after with
  | nil =>
    obtain ⟨rfl, -⟩ := List.append_eq_nil_iff.mp split.symm
    exact Int.le_refl 0
  | attempt closes inside _ ihInside ihRest =>
    cases before with
    | nil => exact Int.le_refl 0
    | cons e before =>
      obtain ⟨rfl, tail⟩ := List.cons.inj split
      rw [height, Event.rise]
      rcases List.append_eq_append_iff.mp tail with ⟨behind, rfl, outer⟩ | ⟨ahead, inner, -⟩
      -- the cut is in front of the closing event, behind it, or further inside
      · cases behind with
        | nil =>
          rw [List.append_nil, inside.height_eq]
          omega
        | cons e behind =>
          obtain ⟨rfl, behindClose⟩ := List.cons.inj outer
          have later := ihRest behindClose
          rw [height_append, height, inside.height_eq, closes.rise_eq]
          omega
      · have earlier := ihInside inner
        omega

theorem not_closing_within (h : Bracketed input (inside ++ close :: rest))
    (balanced : Bracketed input inside) : close.rise ≠ -1 := by
  intro closing
  have split : inside ++ close :: rest = inside ++ [close] ++ rest := by simp
  have nonneg := h.height_nonneg split
  rw [height_append, balanced.height_eq, height, closing] at nonneg
  exact absurd nonneg (by decide)

/-- The brackets that follow an attempt end where it does. -/
theorem closing_unique {inside' rest' : List Event} {close' : Event} (h : Bracketed input inside)
    (h' : Bracketed input inside') (closing : close.rise = -1) (closing' : close'.rise = -1)
    (same : inside ++ close :: rest = inside' ++ close' :: rest') :
    inside = inside' ∧ close = close' ∧ rest = rest' := by
  rcases List.append_eq_append_iff.mp same with ⟨more, rfl, split⟩ | ⟨more, rfl, split⟩
  · cases more with
    | nil =>
      obtain ⟨rfl, rfl⟩ := List.cons.inj split
      exact ⟨(List.append_nil inside).symm, rfl, rfl⟩
    | cons e more =>
      obtain ⟨rfl, -⟩ := List.cons.inj split
      exact absurd closing (h'.not_closing_within h)
  · cases more with
    | nil =>
      obtain ⟨rfl, rfl⟩ := List.cons.inj split
      exact ⟨List.append_nil inside', rfl, rfl⟩
    | cons e more =>
      obtain ⟨rfl, -⟩ := List.cons.inj split
      exact absurd closing' (h.not_closing_within h')

/-- An attempt in a bracketed log is closed behind a bracketed part. -/
theorem exists_closing (h : Bracketed input log)
    (split : log = before ++ .trying node name position :: after) :
    ∃ inside close rest, after = inside ++ close :: rest ∧ Bracketed input inside ∧
      close.Closes input node name position := by
  induction h generalizing before after with
  | nil => cases before <;> cases split
  | attempt closes balanced _ ihInside ihRest =>
    rename_i close inside rest _
    cases before with
    | nil =>
      obtain ⟨here, rfl⟩ := List.cons.inj split
      cases here
      exact ⟨inside, close, rest, rfl, balanced, closes⟩
    | cons e before =>
      obtain ⟨-, split⟩ := List.cons.inj split
      rcases List.append_eq_append_iff.mp split with ⟨behind, -, split⟩ | ⟨ahead, inner, split⟩
      · cases behind with
        | nil => exact absurd (List.cons.inj split).1 closes.not_trying
        | cons e behind => exact ihRest (List.cons.inj split).2
      · cases ahead with
        | nil => exact absurd (List.cons.inj split).1.symm closes.not_trying
        | cons e ahead =>
          obtain ⟨rfl, rfl⟩ := List.cons.inj split
          obtain ⟨deeper, end_, rest', rfl, within, ends⟩ := ihInside inner
          exact ⟨deeper, end_, rest' ++ close :: rest, by simp, within, ends⟩

/-- There is no other event that could close it. -/
theorem closedOnce (h : Bracketed input log) : ClosedOnce input log := by
  intro before after node name position split
  obtain ⟨inside, close, rest, rfl, balanced, closes⟩ := h.exists_closing split
  refine ⟨⟨inside, close, rest⟩, ⟨rfl, balanced, closes⟩, ?_⟩
  rintro ⟨inside', close', rest'⟩ ⟨same, balanced', closes'⟩
  obtain ⟨rfl, rfl, rfl⟩ :=
    closing_unique balanced balanced' closes.rise_eq closes'.rise_eq same
  rfl

end Bracketed

/-! ## What the store has logged -/

namespace Store

def traces (s : Store) : List Event :=
  s.log.toList.filter Event.isTrace

theorem traces_emit (s : Store) (e : Event) :
    (s.emit e).traces = s.traces ++ [e].filter Event.isTrace := by
  rw [traces, emit, Array.toList_push, List.filter_append, traces]

theorem traces_afterBuild (s : Store) (kind : RuleKind) (rule : NodeId) (label : String) :
    (s.afterBuild kind rule label).traces = s.traces := by
  rw [afterBuild]
  split
  · rfl
  · exact (s.traces_emit _).trans (List.append_nil _)

/-- From `s` to `t` whole attempts are logged. -/
def Traces (input : Text) (s t : Store) : Prop :=
  ∃ added, t.traces = s.traces ++ added ∧ Bracketed input added

variable {input : Text} {s t u : Store}

theorem Traces.of_eq (h : t.traces = s.traces) : s.Traces input t :=
  ⟨[], by rw [h, List.append_nil], .nil⟩

theorem Traces.trans (h : s.Traces input t) (h' : t.Traces input u) : s.Traces input u := by
  obtain ⟨first, logged, nested⟩ := h
  obtain ⟨second, logged', nested'⟩ := h'
  exact ⟨first ++ second, by rw [logged', logged, List.append_assoc], nested.append nested'⟩

/-- An attempt and its closing, around what was traced in between. -/
theorem Traces.attempt {node : NodeId} {name : String} {position : Position} {close : Event}
    (inside : (s.emit (.trying node name position)).Traces input t)
    (closes : close.Closes input node name position) : s.Traces input (t.emit close) := by
  obtain ⟨added, logged, nested⟩ := inside
  have isTrace : [close].filter Event.isTrace = [close] := by cases closes <;> rfl
  refine ⟨.trying node name position :: (added ++ [close]), ?_, .attempt closes nested .nil⟩
  rw [traces_emit, isTrace, logged, traces_emit, List.append_assoc, List.append_assoc]
  rfl

end Store

/-! ## Runs over one text -/

/-- Readers stand on boundaries of the input, and whole attempts are logged. -/
def Upkeep.tracing (input : Text) (rules : List NodeId) : Upkeep where
  place r := r.input = input ∧ r.OnBoundary
  change := Store.Traces input
  whenHalted := False
  rules
  change_refl _ := .of_eq rfl
  change_trans := .trans
  change_afterBuild s kind label _ := .of_eq (s.traces_afterBuild kind _ label)
  back := by
    rintro ⟨_, p⟩ ⟨_, p'⟩ ⟨rfl, -⟩ ⟨rfl, boundary⟩
    exact ⟨rfl, boundary⟩
  take := by
    rintro r r' n text ⟨rfl, boundary⟩ taken
    have moved := Reader.moves_take boundary n
    rw [taken] at moved
    cases moved with
    | onward walk _ => exact ⟨walk.input, walk.onBoundary boundary⟩
  takeBytes := by
    rintro r r' n text ⟨rfl, boundary⟩ taken
    have moved := Reader.moves_takeBytes boundary n
    rw [taken] at moved
    cases moved with
    | onward walk _ => exact ⟨walk.input, walk.onBoundary boundary⟩

/-- An attempt agrees with its end because the part keeps its contract. -/
theorem Upkeep.keeps_traced {α : Type} {input : Text} {rules : List NodeId} {p : Parser α}
    (node : NodeId) (name : String) (governed : Discipline.contract.Governs p.run)
    (kept : (tracing input rules).Keeps p.run) :
    (tracing input rules).Keeps (Parser.traced node name p).run := by
  rintro s ⟨rfl, boundary⟩
  let tried : State := ⟨s.reader, s.store.emit (.trying node name s.reader.position)⟩
  have ends := kept tried ⟨rfl, boundary⟩
  have contract := governed tried boundary
  rw [Run.Ends] at contract
  rw [Parser.traced_run]
  cases hrun : p.run tried with
  | ok m t =>
    rw [hrun] at ends contract
    obtain ⟨walk, exact_span⟩ := contract
    obtain ⟨walked, ahead, -, stands⟩ := walk.exists_walked
    have span : m.span = ⟨s.reader.position, t.reader.position⟩ := exact_span trivial
    have sliced : s.reader.input.slice? m.span.start.offset m.span.stop.offset = some walked := by
      rw [span, stands]
      exact Reader.slice?_past boundary ahead
    have text : m.text t.reader.input = walked := by
      rw [Match.text, Span.slice, ends.1.1, sliced, Option.getD_some]
    refine ⟨ends.1, ends.2.attempt (.matched ?_ ?_)⟩
    · rw [span]
    · rw [sliced, text]
  | failed f t =>
    rw [hrun] at ends contract
    exact ⟨ends.1, ends.2.attempt (.failed contract.2)⟩
  | halted cause t => exact False.elim

/-! ## Grammars -/

/-- What runs from boundaries add to the traces, if they end: whole attempts, each closed by one
event. -/
def Parser.TracesNested (p : Parser Value) : Prop :=
  ∀ s, s.reader.OnBoundary →
    match p.run s with
    | .ok _ t | .failed _ t =>
      ∃ added, t.store.traces = s.store.traces ++ added ∧ Bracketed s.reader.input added ∧
        ClosedOnce s.reader.input added
    | .halted _ _ => True

theorem Parser.tracesNested_of_keeps {p : Parser Value} {rules : List NodeId}
    (h : ∀ input, (Upkeep.tracing input rules).Keeps p.run) : p.TracesNested := by
  intro s boundary
  have ends := h s.reader.input s ⟨rfl, boundary⟩
  cases hrun : p.run s with
  | ok m t =>
    rw [hrun] at ends
    obtain ⟨-, added, logged, nested⟩ := ends
    exact ⟨added, logged, nested, nested.closedOnce⟩
  | failed f t =>
    rw [hrun] at ends
    obtain ⟨-, added, logged, nested⟩ := ends
    exact ⟨added, logged, nested, nested.closedOnce⟩
  | halted cause t => trivial

/-- Also of a run that fails the log is bracketed. -/
theorem Parser.TracesNested.of_failed {p : Parser Value} (h : p.TracesNested) {s t : State}
    (boundary : s.reader.OnBoundary) {f : Failure} (failed : p.run s = .failed f t) :
    ∃ added, t.store.traces = s.store.traces ++ added ∧ Bracketed s.reader.input added ∧
      ClosedOnce s.reader.input added := by
  have ends := h s boundary
  rwa [failed] at ends

namespace Grammar

variable {g : Grammar} {input : Text} {rules : List NodeId}

theorem keepsTraced_tracing (depth : Nat) :
    KeepsTraced (.tracing input rules) (fun g => ∀ p, g ≠ .custom p) (enter depth) :=
  fun node name _ _ part hscope kept =>
    Upkeep.keeps_traced node name (Discipline.governs_node plain_leaf
      (fun _ _ body outside => Discipline.governs_enter plain_leaf depth body outside) part hscope
      (0 :: node)) kept

/-- The traces of a grammar without parsers of one's own are bracketed, in whichever way it is run.
-/
theorem plain_tracesNested (hg : g.Plain) (node : NodeId) :
    (∀ depth, (g.parserWithin depth node).TracesNested) ∧ (g.toParser node).TracesNested ∧
      ∀ kind label probe, (Deferred.mk kind label g probe).handle.TracesNested := by
  have within (input : Text) (depth : Nat) :
      (Upkeep.tracing input (g.deferredNodes node)).Keeps (g.parserWithin depth node).run :=
    keeps_parserWithin plain_leaf keepsTraced_tracing hg depth node (List.Subset.refl _)
  refine ⟨fun depth => Parser.tracesNested_of_keeps fun input => within input depth, ?_, ?_⟩
  · exact Parser.tracesNested_of_keeps fun input s hs =>
      within input (g.depthFor s.reader.bytesLeft) s hs
  · intro kind label probe
    have among : ScopeAmong (g.deferredNodes [0]) [⟨label, [], g⟩] :=
      List.forall_mem_cons.mpr ⟨List.Subset.refl _, nofun⟩
    have entered (input : Text) (depth : Nat) :
        (Upkeep.tracing input (g.deferredNodes [0])).Keeps
          (Parser.reference [] label (enter depth ⟨label, [], g⟩ [])).run :=
      Upkeep.keeps_reference [] label
        (keeps_enter plain_leaf keepsTraced_tracing depth hg inScope_nil among)
    exact Parser.tracesNested_of_keeps fun input s hs => entered input _ s hs

def tracedItems : Grammar :=
  .recursive "item" (.traced "item" (.either
    (.between (.codePoint "(" '(') (.reference "item") (.codePoint ")" ')'))
    (.traced "x" (.codePoint "x" 'x'))))

theorem tracedItems_plain : tracedItems.Plain := by
  have leaf : ∀ label c, (Grammar.codePoint label c).Plain := fun _ _ => .leaf nofun rfl
  have inner : (Grammar.reference "item").Plain := .leaf nofun rfl
  exact .unary nofun rfl (.unary nofun rfl (.binary nofun rfl
    (.ternary nofun rfl (leaf _ _) inner (leaf _ _)) (.unary nofun rfl (leaf _ _))))

/-- The bracket is not closed, so that the item inside is given up: its attempt has succeeded by
then, while the one around it fails. -/
theorem tracedItems_tracesNested :
    tracedItems.Plain ∧ (Reader.start ['(', 'x']).OnBoundary ∧
      ∃ f t, (tracedItems.toParser []).parse ['(', 'x'] = .failed f t ∧
        t.store.traces.length = 8 ∧ Bracketed ['(', 'x'] t.store.traces ∧
        ClosedOnce ['(', 'x'] t.store.traces := by
  have boundary := Reader.onBoundary_start ['(', 'x']
  have failure : ((tracedItems.toParser []).parse ['(', 'x']).failure?.map (·.depth) = some 2 := by
    decide +kernel
  have eight : ((tracedItems.toParser []).parse ['(', 'x']).state.store.traces.length = 8 := by
    decide +kernel
  obtain ⟨f, t, failed, -⟩ := Outcome.exists_failed_of_failure? failure
  rw [failed] at eight
  obtain ⟨added, logged, bracketed, once⟩ :=
    (plain_tracesNested tracedItems_plain []).2.1.of_failed boundary failed
  obtain rfl : t.store.traces = added := logged
  exact ⟨tracedItems_plain, boundary, f, t, failed, eight, bracketed, once⟩

end Grammar

end RecursiveDescent
