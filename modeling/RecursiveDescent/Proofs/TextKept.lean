import RecursiveDescent.Deferred
import RecursiveDescent.Proofs.Parts
import RecursiveDescent.Proofs.YieldingLoops

/-!
# No text is lost

The values of most nodes still hold all the text that was taken, in order. It is told as pieces:
`Reads r t r'` says that the text from `r` to `r'` is read as `t`, and pieces add up (`Reads.trans`)
because no parser stops inside a line break. What failed, was looked at or was refused adds nothing.
-/
namespace RecursiveDescent

namespace Value

mutual

/-- All that is left in the value of the text it was made of, in order. -/
def spelled : Value → Text
  | .char c => [c]
  | .text t => t.read
  | .unit => []
  | .absent => []
  | .present v => v.spelled
  | .list vs => listSpelled vs
  | .pair l r => l.spelled ++ r.spelled
  | .located v _ => v.spelled
  | .int _ => []
  | .operation op l r => l.spelled ++ op.spelled ++ r.spelled

def listSpelled : List Value → Text
  | [] => []
  | v :: vs => v.spelled ++ listSpelled vs

end

end Value

namespace Reader

def Reads (r : Reader) (t : Text) (r' : Reader) : Prop :=
  ∃ walked : Text, r.Passes walked r' ∧ t = walked.read

variable {r r₁ r₂ : Reader}

/-- What is walked past is read as it reads. -/
theorem reads_past (hr : r.OnBoundary) {walked rest : Text} (ahead : r.remaining = walked ++ rest)
    (whole : ¬ Text.SplitsBreak walked rest) :
    r.Reads walked.read ⟨r.input, r.position.past walked⟩ :=
  ⟨walked, passes_past hr ahead whole, rfl⟩

theorem Reads.refl (r : Reader) : r.Reads [] r :=
  ⟨[], .refl r, rfl⟩

theorem Reads.trans {s t : Text} (h : r.Reads s r₁) (h' : r₁.Reads t r₂) :
    r.Reads (s ++ t) r₂ := by
  obtain ⟨w, passes, rfl⟩ := h
  obtain ⟨w', passes', rfl⟩ := h'
  exact ⟨w ++ w', passes.trans passes', (passes.read_append passes').symm⟩

theorem reads_of_step? {c : Char} (peek : r.peek? = some c) (step : r.step? = some r₁) :
    r.Reads [c] r₁ := by
  obtain ⟨head, d, passes, hd, peek'⟩ := exists_passes_of_step? step
  obtain rfl : c = d := Option.some.inj (peek.symm.trans peek')
  exact ⟨head, passes, hd.symm⟩

/-- It is what the span between the readers cuts out of the input. -/
theorem Reads.slice {t : Text} (hr : r.OnBoundary) (h : r.Reads t r₁) :
    t = ((Span.mk r.position r₁.position).slice r.input).read := by
  obtain ⟨walked, passes, rfl⟩ := h
  rw [passes.stands]
  exact congrArg (fun o : Option Text => (o.getD []).read) (slice?_past hr passes.ahead).symm

end Reader

/-- All text that is taken is in the value. -/
def Parser.KeepsAll (p : Parser Value) : Prop :=
  ∀ s m t, s.reader.OnBoundary → p.run s = .ok m t →
    m.value.spelled = (m.span.slice s.reader.input).read

namespace Grammar

/-- The kinds of node whose values hold all that was taken. -/
def givesAll : Grammar → Bool
  | .codePoint _ _ | .literal _ _ | .literalIgnoringCase _ _ | .oneOf _ _ | .noneOf _ _
  | .satisfy _ _ | .takeWhile _ _ | .endOfInput | .notAhead _ _ | .andThen _ _ | .many _
  | .many1 _ | .manyTill _ _ | .optional _ | .choice _ _ | .either _ _ | .allOf _ _ | .attempt _
  | .filter _ _ _ | .withSpan _ | .traced _ _ | .lazy _ _ | .recursive _ _ | .reference _
  | .alias _ | .labelled _ _ => true
  | .inOrder _ _ | .fst _ | .snd _ | .map _ _ | .lexeme _ | .between _ _ _ | .sepBy _ _
  | .chainLeft _ _ _ | .chainRight _ _ _ | .custom _ => false

/-- No node drops or changes what it takes. -/
def GivesAll : Grammar → Prop :=
  Everywhere fun g => g.givesAll = true

open Conditions

def Spells (run : Run (Match Value)) : Prop :=
  ∀ r, any.Yields run r (fun v r' => r.Reads v.spelled r') fun _ => True

variable {g : Grammar} {scope : Scope}

def ReadsAll (r : Reader) (vs : List Value) (r' : Reader) : Prop :=
  r.Reads (Value.listSpelled vs) r'

theorem readsAll_cons {r r₁ r₂ : Reader} {v : Value} {vs : List Value}
    (h : r.Reads v.spelled r₁) (hs : ReadsAll r₁ vs r₂) : ReadsAll r (v :: vs) r₂ :=
  h.trans hs

/-- An item in front of items is read in front of them. -/
theorem readsAll_continues {r r₁ : Reader} {v : Value} (h : r.Reads v.spelled r₁) :
    Continues (fun _ => True) ReadsAll r v r₁ where
  last _ := readsAll_cons h (.refl r₁)
  more _ := ⟨trivial, fun _ _ hs => readsAll_cons h hs⟩

section Combinators

variable {p q : Parser Value} {ps : List (Parser Value)}

theorem spells_oneWhere (label message expected : String) (accepts : Char → Bool) :
    Spells ((Parser.oneWhere label message expected accepts).recast .char).run :=
  fun _ => yields_recast (yields_oneWhere label message expected accepts
    (fun _ _ peek _ step => Reader.reads_of_step? peek step) fun _ _ _ _ => trivial)

theorem spells_codePoint (label : String) (c : Char) :
    Spells ((Parser.codePoint label c).recast .char).run :=
  fun _ => yields_recast (yields_codePoint label c
    (fun _ peek step => Reader.reads_of_step? peek step) fun _ _ _ _ => trivial)

theorem spells_literal (label : String) (text : Text) :
    Spells ((Parser.literal label text).recast .text).run :=
  fun _ => .of_onBoundary fun hr => yields_recast (yields_literal label text
    (fun _ ahead whole => Reader.reads_past hr ahead whole) fun _ _ _ => trivial)

/-- It gives the text that stood there, in the case it had. -/
theorem spells_literalIgnoringCase (label : String) (text : Text) :
    Spells ((Parser.literalIgnoringCase label text).recast .text).run :=
  fun _ => .of_onBoundary fun hr => yields_recast (yields_literalIgnoringCase label text
    (fun _ _ ahead whole _ => Reader.reads_past hr ahead whole) fun _ _ _ => trivial)

theorem spells_takeWhile (label : String) (accepts : Char → Bool) :
    Spells ((Parser.takeWhile label accepts).recast .text).run :=
  fun _ => .of_onBoundary fun hr => yields_recast (yields_takeWhile label accepts
    fun _ _ ahead whole _ => Reader.reads_past hr ahead whole)

theorem spells_choice (label : String) (h : ∀ p ∈ ps, Spells p.run) :
    Spells (Parser.choice label ps).run := by
  intro r
  apply yields_choice
  exact yields_choiceFrom (fun p hp => h p hp r) (fun _ _ => trivial) fun _ _ _ => trivial

theorem spells_either (hp : Spells p.run) (hq : Spells q.run) :
    Spells (Parser.either p q).run := by
  apply spells_choice
  rw [List.forall_mem_cons, List.forall_mem_singleton]
  exact ⟨hp, hq⟩

/-- The match is that of the last parser, and the others are taken back. -/
theorem spells_allOf (label : String) (h : ∀ p ∈ ps, Spells p.run) :
    Spells (Parser.allOf label ps).run := by
  intro r
  apply yields_allOf _ _ fun _ _ _ _ => trivial
  · intro p hp
    exact (h p hp r).mono (fun _ _ _ _ => trivial) fun _ _ => trivial
  · exact fun p hp => h p (List.mem_of_getLast? hp) r

theorem spells_optional (h : Spells p.run) :
    Spells ((Parser.optional p).recast ofOption).run := by
  intro r
  apply yields_recast
  apply yields_optional
  exact (h r).mono (fun _ _ _ hv => hv) fun _ _ => .refl r

/-- What was looked at is not taken, and the value is empty. -/
theorem spells_notAhead (label : String) (h : Spells p.run) :
    Spells ((Parser.notAhead label p).recast fun _ => .unit).run := by
  intro r
  apply yields_recast
  apply yields_notAhead
  exact (h r).mono (fun _ _ _ _ _ _ _ => trivial) fun _ _ => .refl r

theorem spells_filter (label : String) (accepts : Value → Bool) (h : Spells p.run) :
    Spells (Parser.filter label accepts p).run := by
  intro r
  apply yields_filter
  exact (h r).mono (fun _ _ _ hv => ⟨fun _ => hv, fun _ _ _ _ => trivial⟩) fun _ => id

/-- Both parts of a pair are kept, in order. -/
theorem spells_andThen (left : Spells p.run) (right : Spells q.run) :
    Spells ((Parser.andThen p q).recast fun v => .pair v.1 v.2).run := by
  intro r
  apply yields_recast
  apply yields_andThen
  refine (left r).mono (fun v r₁ _ hv => ?_) fun _ _ => trivial
  refine (right r₁).mono (fun w r₂ _ hw => ?_) fun _ _ => trivial
  exact hv.trans hw

/-- All items are kept, and what failed behind them took nothing. -/
theorem spells_many (h : Spells p.run) : Spells ((Parser.many p).recast .list).run := by
  intro r
  apply yields_recast
  refine yields_many (fun _ => True) trivial ReadsAll fun r' _ _ => ?_
  exact (h r').mono (fun _ _ _ => readsAll_continues) fun _ _ => .refl r'

theorem spells_many1 (h : Spells p.run) : Spells ((Parser.many1 p).recast .list).run := by
  intro r
  apply yields_recast
  apply yields_many1 (fun _ => True) ReadsAll
  · exact (h r).mono (fun _ _ _ => readsAll_continues) fun _ _ => trivial
  · exact fun r' _ _ => (h r').mono (fun _ _ _ => readsAll_continues) fun _ _ => .refl r'

/-- The ending is looked at and not taken. -/
theorem spells_manyTill (item : Spells p.run) (ending : Spells q.run) :
    Spells ((Parser.manyTill p q).recast .list).run := by
  intro r
  apply yields_recast
  refine yields_manyTill (fun _ => True) trivial ReadsAll fun r' _ _ => ?_
  refine (ending r').mono (fun _ _ _ _ => .refl r') fun _ _ => ?_
  refine (item r').mono (fun v r₁ _ hv => ?_) fun _ _ => trivial
  exact ⟨fun _ _ _ _ => trivial, (readsAll_continues hv).more⟩

end Combinators

/-- One case for each kind of node that drops nothing. The bodies that references enter are not
parts of the node, so they are left to `bodies`. -/
theorem spells_node {run : Rule → Scope → Run (Match Value)}
    (bodies : ∀ (rule : Rule) (outer : Scope), rule.body.GivesAll →
      InScope (fun g => g.givesAll = true) outer → Spells (run rule outer))
    (hg : g.GivesAll) (hscope : InScope (fun g => g.givesAll = true) scope) (node : NodeId) :
    Spells (parser run scope node g).run := by
  induction hg generalizing scope node with
  | node here below ih =>
    rename_i g
    have branch : ∀ i h, g.parts[i]? = some h → Spells (parser run scope (i :: node) h).run :=
      fun i h at_i => ih h (List.mem_of_getElem? at_i) hscope (i :: node)
    have branches : ∀ p ∈ parsers run scope node 0 g.parts, Spells p.run := by
      intro p hp
      obtain ⟨i, h, hh, rfl⟩ := exists_of_mem_parsers hp
      exact ih h hh hscope (i :: node)
    cases g with
    | codePoint label c => exact spells_codePoint label c
    | literal label text => exact spells_literal label text
    | literalIgnoringCase label text => exact spells_literalIgnoringCase label text
    | oneOf label chars => exact spells_oneWhere _ _ _ _
    | noneOf label chars => exact spells_oneWhere _ _ _ _
    | satisfy label accepts => exact spells_oneWhere _ _ _ _
    | takeWhile label accepts => exact spells_takeWhile label accepts
    | endOfInput =>
      exact fun r => yields_recast (yields_endOfInput (fun _ => .refl r) fun _ _ _ _ => trivial)
    | choice label gs => exact spells_choice label branches
    | either a b => exact spells_either (branch 0 a rfl) (branch 1 b rfl)
    | allOf label gs => exact spells_allOf label branches
    | andThen a b => exact spells_andThen (branch 0 a rfl) (branch 1 b rfl)
    | many item => exact spells_many (branch 0 item rfl)
    | many1 item => exact spells_many1 (branch 0 item rfl)
    | manyTill item ending => exact spells_manyTill (branch 0 item rfl) (branch 1 ending rfl)
    | optional part => exact spells_optional (branch 0 part rfl)
    | notAhead label part => exact spells_notAhead _ (branch 0 part rfl)
    | attempt part => exact fun r => yields_attempt (branch 0 part rfl r)
    | filter label accepts part => exact spells_filter label accepts (branch 0 part rfl)
    | withSpan part => exact fun r => yields_recast (yields_withSpan (branch 0 part rfl r))
    | traced name part => exact fun r => yields_traced (branch 0 part rfl r)
    | «lazy» label body =>
      exact fun r => yields_deferred_same (fun _ _ => trivial) (branch 0 body rfl r)
    | recursive label body =>
      have within : InScope (fun g => g.givesAll = true) (⟨label, node, body⟩ :: scope) :=
        hscope.cons (below body List.mem_cons_self)
      have inside := ih body List.mem_cons_self within (0 :: node)
      exact fun r => yields_deferred_same (fun _ _ => trivial) (inside r)
    | reference label =>
      rw [parser]
      split
      · rename_i rule outer found
        obtain ⟨body, outside⟩ := hscope.found found
        exact fun r => yields_reference (bodies rule outer body outside r) fun _ _ _ _ _ _ =>
          trivial
      · exact fun r => yields_unavailable fun _ _ _ => trivial
    | «alias» part => exact branch 0 part rfl
    | labelled label part => exact branch 0 part rfl
    | inOrder | fst | snd | map | lexeme | between | sepBy | chainLeft | chainRight | custom =>
      cases here

/-- The bodies of rules drop nothing either, however deep they are entered. -/
theorem spells_enter (depth : Nat) {rule : Rule} {outer : Scope} (body : rule.body.GivesAll)
    (outside : InScope (fun g => g.givesAll = true) outer) : Spells (enter depth rule outer) := by
  induction depth generalizing rule outer with
  | zero => exact fun r _ _ _ => trivial
  | succ depth ih =>
    have inner : InScope (fun g => g.givesAll = true) (rule :: outer) := outside.cons body
    exact spells_node (fun _ _ body outside => ih body outside) body inner (0 :: rule.node)

theorem Spells.keepsAll {p : Parser Value} (h : Spells p.run) : p.KeepsAll := by
  intro s m t hs matched
  have ends := h s.reader hs s.store trivial
  change p.run ⟨s.reader, s.store⟩ = _ at matched
  rw [Run.Ends, matched] at ends
  obtain ⟨-, hspan, hm⟩ := ends
  rw [hspan]
  exact hm.slice hs

/-- A grammar whose nodes drop nothing, in whichever way it is run: what is left in the value of a
match is what the match covered. -/
theorem givesAll_keepsAll {g : Grammar} (hg : g.GivesAll) (node : NodeId) :
    (∀ depth, (g.parserWithin depth node).KeepsAll) ∧ (g.toParser node).KeepsAll ∧
      ∀ kind label probe, (Deferred.mk kind label g probe).handle.KeepsAll := by
  have within : ∀ depth, Spells (g.parserWithin depth node).run := fun depth =>
    spells_node (fun _ _ body outside => spells_enter depth body outside) hg inScope_nil node
  refine ⟨fun depth => (within depth).keepsAll, ?_, ?_⟩
  · exact fun s m t hs matched => (within _).keepsAll s m t hs matched
  · intro kind label probe s m t hs matched
    have entered : ∀ depth,
        Spells (Parser.reference [] label (enter depth ⟨label, [], g⟩ [])).run := fun depth r =>
      yields_reference (spells_enter depth hg inScope_nil r) fun _ _ _ _ _ _ => trivial
    exact (entered _).keepsAll s m t hs matched

/-- Lines, the break behind each but the last one taken apart from it. -/
def lines : Grammar :=
  .recursive "lines" (.andThen
    (.manyTill anyChar (.either (.codePoint "line break" '\n') .endOfInput))
    (.optional (.andThen (.codePoint "line break" '\n') (.reference "lines"))))

theorem lines_givesAll : lines.GivesAll := by
  have lineBreak : (Grammar.codePoint "line break" '\n').GivesAll := .leaf rfl rfl
  have line : (Grammar.manyTill anyChar (.either (.codePoint "line break" '\n')
      .endOfInput)).GivesAll :=
    .binary rfl rfl (.leaf rfl rfl) (.binary rfl rfl lineBreak (.leaf rfl rfl))
  have others : (Grammar.optional (.andThen (.codePoint "line break" '\n')
      (.reference "lines"))).GivesAll :=
    .unary rfl rfl (.binary rfl rfl lineBreak (.leaf rfl rfl))
  exact .unary rfl rfl (.binary rfl rfl line others)

theorem lines_keepsAll :
    let s : State := ⟨Reader.startAt ['é', 'a', '\r', '\n', '\r', 'b'] ⟨2, 1, 2⟩, .empty⟩
    lines.GivesAll ∧ s.reader.OnBoundary ∧ ∃ m t, (lines.toParser []).run s = .ok m t ∧
      m.value.spelled = (m.span.slice s.reader.input).read ∧
        m.value.spelled = ['a', '\n', '\r', 'b'] := by
  intro s
  have boundary : s.reader.OnBoundary := by decide
  have result : ((lines.toParser []).run s).result?.map (fun m => m.value.spelled) =
      some ['a', '\n', '\r', 'b'] := by decide +kernel
  obtain ⟨m, t, matched, spelled⟩ := Outcome.exists_ok_of_result? result
  have kept := (givesAll_keepsAll lines_givesAll []).2.1 s m t boundary matched
  exact ⟨lines_givesAll, boundary, m, t, matched, kept, spelled⟩

end Grammar

end RecursiveDescent
