import RecursiveDescent.Parser.Choice
import RecursiveDescent.Parser.Deferred
import RecursiveDescent.Parser.InOrder
import RecursiveDescent.Parser.Literal
import RecursiveDescent.Parser.Operators
import RecursiveDescent.Parser.Refine
import RecursiveDescent.Parser.Repeat
import RecursiveDescent.Proofs.Correspondence

/-!
# Corresponding parsers

Two parsers correspond if they have the same label and corresponding runs. The leaves correspond to
themselves, since they see nothing but what is ahead, and what combinators make of corresponding
parts corresponds.
-/
namespace RecursiveDescent.Correspondence

variable {α β γ : Type}

structure Matches (front : Text) (R : α → α → Prop) (m m' : Match α) : Prop where
  value : R m.value m'.value
  span : m'.span = m.span.behind front

variable (C : Correspondence)

structure Parsers (R : α → α → Prop) (p p' : Parser α) : Prop where
  label : p'.label = p.label
  runs : C.Runs (Matches C.front R) p.run p'.run

def Pairs (R : α → α → Prop) (S : β → β → Prop) (v v' : α × β) : Prop :=
  R v.1 v'.1 ∧ S v.2 v'.2

variable {C} {R : α → α → Prop} {S : β → β → Prop} {T : γ → γ → Prop} {p p' : Parser α}
variable {q q' : Parser β}

/-- The end of a run whose match covers all that was passed since `start`. -/
theorem runs_matchFrom (start : Position) {a a' : α} (h : R a a') :
    C.Runs (Matches C.front R) (do return ⟨a, ⟨start, ← Run.position⟩⟩)
      (do return ⟨a', ⟨start.behind C.front, ← Run.position⟩⟩) := by
  apply runs_bind runs_position
  rintro stop _ rfl
  exact runs_pure ⟨h, rfl⟩

/-! ## Leaves -/

theorem runs_takeSymbol (expected : String) :
    C.Runs (fun s s' => s' = s.behind C.front) (Parser.takeSymbol expected)
      (Parser.takeSymbol expected) := by
  apply runs_bind (runs_take 1)
  intro _ _ ended
  rcases ended with ⟨text, span⟩ | _
  · exact runs_pure span
  · exact runs_failHere _ _ _

theorem parsers_codePoint (label : String) (c : Char) :
    C.Parsers Eq (Parser.codePoint label c) (Parser.codePoint label c) := by
  constructor
  · rfl
  · apply runs_bind runs_reader
    rintro r _ rfl
    rw [Reader.peek?_behind]
    cases r.peek? with
    | none => exact runs_failHere _ _ _
    | some d =>
      by_cases hd : d = c
      · simp only [if_pos hd]
        exact runs_bind (runs_takeSymbol _) fun _ _ span => runs_pure ⟨rfl, span⟩
      · simp only [if_neg hd]
        exact runs_failHere _ _ _

theorem parsers_oneWhere (label message expected : String) (accepts : Char → Bool) :
    C.Parsers Eq (Parser.oneWhere label message expected accepts)
      (Parser.oneWhere label message expected accepts) := by
  constructor
  · rfl
  · apply runs_bind runs_reader
    rintro r _ rfl
    rw [Reader.peek?_behind]
    cases r.peek? with
    | none => exact runs_failHere _ _ _
    | some c =>
      by_cases hc : accepts c = true
      · simp only [if_pos hc]
        exact runs_bind (runs_takeSymbol _) fun _ _ span => runs_pure ⟨rfl, span⟩
      · simp only [if_neg hc]
        exact runs_failHere _ _ _

theorem parsers_takeWhile (label : String) (accepts : Char → Bool) :
    C.Parsers Eq (Parser.takeWhile label accepts) (Parser.takeWhile label accepts) := by
  constructor
  · rfl
  · apply runs_bind runs_reader
    rintro r _ rfl
    rw [Reader.remaining_behind]
    apply runs_bind (runs_takeBytes _)
    intro _ _ ended
    rcases ended with ⟨text, span⟩ | _
    · exact runs_pure ⟨text.symm, span⟩
    · exact runs_failHere _ _ _

theorem parsers_endOfInput : C.Parsers Eq Parser.endOfInput Parser.endOfInput := by
  constructor
  · rfl
  · apply runs_bind runs_reader
    rintro r _ rfl
    rw [Reader.atEnd_behind]
    by_cases atEnd : r.atEnd = true
    · simp only [if_pos atEnd]
      apply runs_bind runs_position
      rintro p _ rfl
      exact runs_pure ⟨rfl, rfl⟩
    · simp only [if_neg atEnd]
      apply runs_bind runs_found
      rintro found _ rfl
      exact runs_failHere _ _ _

/-- Whether a match ends inside a line break is the same behind a text. -/
theorem runs_takeMatch (expected : String) (rest : Text) (width : Nat) :
    C.Runs (Matches C.front Eq) (Parser.takeMatch expected rest width)
      (Parser.takeMatch expected rest width) := by
  apply runs_bind (runs_takeBytes _)
  intro _ _ ended
  rcases ended with ⟨text, span⟩ | _
  · exact runs_pure ⟨text.symm, span⟩
  · exact runs_failHere _ _ _

theorem parsers_literal (label : String) (text : Text) :
    C.Parsers Eq (Parser.literal label text) (Parser.literal label text) := by
  constructor
  · rfl
  · apply runs_bind runs_reader
    rintro r _ rfl
    rw [Reader.remaining_behind]
    dsimp only
    split
    · exact runs_takeMatch _ _ _
    · split
      · exact runs_failHere _ _ _
      · exact runs_failHere _ _ _

theorem parsers_literalIgnoringCase (label : String) (text : Text) :
    C.Parsers Eq (Parser.literalIgnoringCase label text)
      (Parser.literalIgnoringCase label text) := by
  constructor
  · rfl
  · apply runs_bind runs_reader
    rintro r _ rfl
    rw [Reader.remaining_behind]
    dsimp only
    split
    · exact runs_takeMatch _ _ _
    · split
      · exact runs_failHere _ _ _
      · exact runs_failHere _ _ _

/-! ## Alternatives, guards and lookahead -/

theorem runs_choiceFrom (label : String) (start : Position) {ps ps' : List (Parser α)}
    (hps : List.Forall₂ (C.Parsers R) ps ps') {cause cause' : Option Failure}
    (hcause : Option.Rel (Failure.Behind C.front) cause cause') :
    C.Runs (Matches C.front R) (Parser.choiceFrom label start cause ps)
      (Parser.choiceFrom label (start.behind C.front) cause' ps') := by
  induction hps generalizing cause cause' with
  | nil =>
    cases hcause with
    | none =>
      apply runs_bind runs_found
      rintro found _ rfl
      exact runs_failHere _ _ _
    | some hf =>
      apply runs_bind runs_reader
      rintro r _ rfl
      exact runs_fail (hf.enclose _ r)
  | cons hp _ ih =>
    simp only [Parser.choiceFrom]
    apply runs_bind (runs_observe hp.runs)
    intro _ _ ended
    rcases ended with hm | hf
    · exact runs_pure hm
    · exact runs_bind (runs_rewind start) fun _ _ _ => ih (.some hf)

/-- Alternatives that correspond one by one are tried in the same order. -/
theorem parsers_choice (label : String) {ps ps' : List (Parser α)}
    (hps : List.Forall₂ (C.Parsers R) ps ps') :
    C.Parsers R (Parser.choice label ps) (Parser.choice label ps') := by
  constructor
  · rfl
  · apply runs_bind runs_position
    rintro start _ rfl
    exact runs_choiceFrom label start hps .none

theorem parsers_either {p q p' q' : Parser α} (hp : C.Parsers R p p') (hq : C.Parsers R q q') :
    C.Parsers R (Parser.either p q) (Parser.either p' q') := by
  rw [Parser.either, Parser.either, hp.label, hq.label]
  exact parsers_choice _ (.cons hp (.cons hq .nil))

theorem runs_allOfFrom (label : String) (start : Position) {ps ps' : List (Parser α)}
    (hps : List.Forall₂ (C.Parsers R) ps ps') {last last' : Option (Match α)}
    (hlast : Option.Rel (Matches C.front R) last last') :
    C.Runs (Matches C.front R) (Parser.allOfFrom label start last ps)
      (Parser.allOfFrom label (start.behind C.front) last' ps') := by
  induction hps generalizing last last' with
  | nil =>
    cases hlast with
    | none =>
      apply runs_bind runs_found
      rintro found _ rfl
      exact runs_failHere _ _ _
    | some hm => exact runs_pure hm
  | cons hp _ ih =>
    simp only [Parser.allOfFrom]
    apply runs_bind (runs_rewind start)
    intro _ _ _
    exact runs_bind (runs_enclosing hp.runs start _) fun _ _ hm => ih (.some hm)

theorem parsers_allOf (label : String) {ps ps' : List (Parser α)}
    (hps : List.Forall₂ (C.Parsers R) ps ps') :
    C.Parsers R (Parser.allOf label ps) (Parser.allOf label ps') := by
  constructor
  · rfl
  · apply runs_bind runs_position
    rintro start _ rfl
    exact runs_allOfFrom label start hps .none

theorem parsers_optional (hp : C.Parsers R p p') :
    C.Parsers (Option.Rel R) (Parser.optional p) (Parser.optional p') := by
  constructor
  · simp only [Parser.optional, hp.label]
  · apply runs_bind runs_position
    rintro start _ rfl
    apply runs_bind (runs_orNothing hp.runs start)
    intro _ _ ended
    rcases ended with hm | _
    · exact runs_pure ⟨.some hm.value, hm.span⟩
    · exact runs_pure ⟨.none, rfl⟩

theorem parsers_notAhead (label : String) (hp : C.Parsers R p p') :
    C.Parsers Eq (Parser.notAhead label p) (Parser.notAhead label p') := by
  constructor
  · rfl
  · apply runs_bind runs_position
    rintro start _ rfl
    apply runs_bind (runs_lookAhead hp.runs start)
    intro _ _ ended
    rcases ended with hm | _
    · apply runs_bind runs_input
      rintro input _ rfl
      rw [Match.text, Match.text, hm.span, Span.slice_behind]
      exact runs_failHere _ _ _
    · exact runs_pure ⟨rfl, rfl⟩

theorem parsers_attempt (hp : C.Parsers R p p') :
    C.Parsers R (Parser.attempt p) (Parser.attempt p') := by
  constructor
  · exact hp.label
  · apply runs_bind runs_position
    rintro start _ rfl
    exact runs_enclosing hp.runs start _

/-! ## One parser after the other -/

theorem runs_inOrderFrom (label : String) (start : Position) {ps ps' : List (Parser α)}
    (hps : List.Forall₂ (C.Parsers R) ps ps') {last last' : Option α}
    (hlast : Option.Rel R last last') :
    C.Runs (Matches C.front R) (Parser.inOrderFrom label start last ps)
      (Parser.inOrderFrom label (start.behind C.front) last' ps') := by
  induction hps generalizing last last' with
  | nil =>
    cases hlast with
    | none =>
      apply runs_bind runs_found
      rintro found _ rfl
      exact runs_failHere _ _ _
    | some hv =>
      exact runs_matchFrom start hv
  | cons hp _ ih =>
    simp only [Parser.inOrderFrom]
    exact runs_bind (runs_enclosing hp.runs start _) fun _ _ hm => ih (.some hm.value)

theorem parsers_inOrder (label : String) {ps ps' : List (Parser α)}
    (hps : List.Forall₂ (C.Parsers R) ps ps') :
    C.Parsers R (Parser.inOrder label ps) (Parser.inOrder label ps') := by
  constructor
  · rfl
  · apply runs_bind runs_position
    rintro start _ rfl
    exact runs_inOrderFrom label start hps .none

theorem parsers_andThen (hp : C.Parsers R p p') (hq : C.Parsers S q q') :
    C.Parsers (Pairs R S) (Parser.andThen p q) (Parser.andThen p' q') := by
  constructor
  · simp only [Parser.andThen, hp.label, hq.label]
  · apply runs_bind runs_position
    rintro start _ rfl
    apply runs_bind (runs_enclosing hp.runs start _)
    intro l l' hl
    apply runs_bind (runs_enclosing hq.runs start _)
    intro r r' hr
    refine runs_pure ⟨⟨hl.value, hr.value⟩, ?_⟩
    rw [Match.next, Match.next, hr.span]
    rfl

theorem parsers_fst {pair pair' : Parser (α × β)} (h : C.Parsers (Pairs R S) pair pair') :
    C.Parsers R (Parser.fst pair) (Parser.fst pair') := by
  constructor
  · exact h.label
  · apply runs_bind runs_position
    rintro start _ rfl
    exact runs_bind (runs_enclosing h.runs start _) fun _ _ hm => runs_pure ⟨hm.value.1, hm.span⟩

theorem parsers_snd {pair pair' : Parser (α × β)} (h : C.Parsers (Pairs R S) pair pair') :
    C.Parsers S (Parser.snd pair) (Parser.snd pair') := by
  constructor
  · exact h.label
  · apply runs_bind runs_position
    rintro start _ rfl
    exact runs_bind (runs_enclosing h.runs start _) fun _ _ hm => runs_pure ⟨hm.value.2, hm.span⟩

theorem parsers_between {r r' : Parser γ} (hp : C.Parsers R p p') (hq : C.Parsers S q q')
    (hr : C.Parsers T r r') :
    C.Parsers S (Parser.between p q r) (Parser.between p' q' r') := by
  have inner := parsers_snd (parsers_andThen hp hq)
  have whole := parsers_fst (parsers_andThen inner hr)
  constructor
  · simp only [Parser.between, hp.label, hq.label, hr.label]
  · apply runs_bind runs_position
    rintro start _ rfl
    exact runs_enclosing whole.runs start _

/-! ## Repetition -/

/-- Both runs go on for the same rounds, as their items take nothing at the same time. -/
theorem runs_items (hp : C.Parsers R p p') (rounds : Nat) :
    C.Runs (List.Forall₂ R) (Parser.items p rounds) (Parser.items p' rounds) := by
  induction rounds with
  | zero => exact runs_exhaust
  | succ rounds ih =>
    apply runs_bind runs_position
    rintro start _ rfl
    apply runs_bind (runs_orNothing hp.runs start)
    intro _ _ ended
    rcases ended with hm | _
    · dsimp only
      rw [hm.span, Span.isEmpty_behind]
      split
      · exact runs_pure (.cons hm.value .nil)
      · exact runs_bind ih fun _ _ hvs => runs_pure (.cons hm.value hvs)
    · exact runs_pure .nil

theorem parsers_many (hp : C.Parsers R p p') :
    C.Parsers (List.Forall₂ R) (Parser.many p) (Parser.many p') := by
  constructor
  · simp only [Parser.many, hp.label]
  · apply runs_bind runs_position
    rintro start _ rfl
    apply runs_bind runs_rounds
    rintro rounds _ rfl
    apply runs_bind (runs_items hp rounds)
    intro values values' hvs
    exact runs_matchFrom start hvs

theorem runs_itemsAfter {first first' : Match α} (hfirst : Matches C.front R first first')
    (hp : C.Parsers R p p') :
    C.Runs (List.Forall₂ R) (Parser.itemsAfter first p) (Parser.itemsAfter first' p') := by
  rw [Parser.itemsAfter, Parser.itemsAfter, hfirst.span, Span.isEmpty_behind]
  split
  · exact runs_pure .nil
  · apply runs_bind runs_rounds
    rintro rounds _ rfl
    exact runs_items hp rounds

theorem parsers_many1 (hp : C.Parsers R p p') :
    C.Parsers (List.Forall₂ R) (Parser.many1 p) (Parser.many1 p') := by
  constructor
  · simp only [Parser.many1, hp.label]
  · apply runs_bind runs_position
    rintro start _ rfl
    apply runs_bind (runs_observe hp.runs)
    intro _ _ ended
    rcases ended with hm | hf
    · apply runs_bind (runs_itemsAfter hm hp)
      intro values values' hvs
      exact runs_matchFrom start (.cons hm.value hvs)
    · apply runs_bind (runs_rewind start)
      intro _ _ _
      apply runs_bind runs_reader
      rintro r _ rfl
      rw [hp.label]
      exact runs_fail ((hf.enclose _ r).restate _ _)

theorem runs_delimitedItems (hp : C.Parsers R p p') (hq : C.Parsers S q q') (start : Position)
    (rounds : Nat) :
    C.Runs (List.Forall₂ R) (Parser.delimitedItems p q start rounds)
      (Parser.delimitedItems p' q' (start.behind C.front) rounds) := by
  induction rounds with
  | zero => exact runs_exhaust
  | succ rounds ih =>
    apply runs_bind runs_position
    rintro checkpoint _ rfl
    apply runs_bind (runs_orNothing hq.runs checkpoint)
    intro _ _ ended
    rcases ended with _ | _
    · apply runs_bind (runs_enclosing hp.runs start _)
      intro m m' hm
      apply runs_bind runs_position
      rintro stop _ rfl
      have shifted : (checkpoint.behind C.front).offset < (stop.behind C.front).offset ↔
          checkpoint.offset < stop.offset := Nat.add_lt_add_iff_right
      simp only [shifted]
      split
      · exact runs_bind ih fun _ _ hvs => runs_pure (.cons hm.value hvs)
      · exact runs_pure (.cons hm.value .nil)
    · exact runs_pure .nil

theorem parsers_sepBy (hp : C.Parsers R p p') (hq : C.Parsers S q q') :
    C.Parsers (List.Forall₂ R) (Parser.sepBy p q) (Parser.sepBy p' q') := by
  constructor
  · simp only [Parser.sepBy, hp.label, hq.label]
  · apply runs_bind runs_position
    rintro start _ rfl
    apply runs_bind (runs_enclosing hp.runs start _)
    intro m m' hm
    apply runs_bind runs_rounds
    rintro rounds _ rfl
    apply runs_bind (runs_delimitedItems hp hq start rounds)
    intro values values' hvs
    exact runs_matchFrom start (.cons hm.value hvs)

theorem runs_progressing (hp : C.Parsers R p p') (hq : C.Parsers S q q') :
    C.Runs (Matches C.front R) (Parser.progressing p q) (Parser.progressing p' q') := by
  apply runs_bind hp.runs
  intro m m' hm
  rw [hm.span, Span.isEmpty_behind, hp.label, hq.label]
  split
  · apply runs_bind runs_found
    rintro found _ rfl
    exact runs_failHere _ _ _
  · exact runs_pure hm

theorem runs_itemsTill (hp : C.Parsers R p p') (hq : C.Parsers S q q') (start : Position)
    (rounds : Nat) :
    C.Runs (List.Forall₂ R) (Parser.itemsTill p q start rounds)
      (Parser.itemsTill p' q' (start.behind C.front) rounds) := by
  induction rounds with
  | zero => exact runs_exhaust
  | succ rounds ih =>
    apply runs_bind runs_position
    rintro checkpoint _ rfl
    apply runs_bind (runs_lookAhead hq.runs checkpoint)
    intro _ _ ended
    rcases ended with _ | _
    · exact runs_pure .nil
    · apply runs_bind (runs_enclosing (runs_progressing hp hq) start _)
      intro m m' hm
      exact runs_bind ih fun _ _ hvs => runs_pure (.cons hm.value hvs)

theorem parsers_manyTill (hp : C.Parsers R p p') (hq : C.Parsers S q q') :
    C.Parsers (List.Forall₂ R) (Parser.manyTill p q) (Parser.manyTill p' q') := by
  constructor
  · simp only [Parser.manyTill, hp.label, hq.label]
  · apply runs_bind runs_position
    rintro start _ rfl
    apply runs_bind runs_rounds
    rintro rounds _ rfl
    apply runs_bind (runs_itemsTill hp hq start rounds)
    intro values values' hvs
    exact runs_matchFrom start hvs

/-! ## Operands and operators -/

/-- Both chains have read the same rounds when they end, or when their rounds are spent. -/
theorem runs_operations (name : String) (hp : C.Parsers R p p') (hq : C.Parsers S q q')
    (start : Position) (rounds : Nat) :
    C.Runs (List.Forall₂ (Pairs S R)) (Parser.operations name p q start rounds)
      (Parser.operations name p' q' (start.behind C.front) rounds) := by
  induction rounds with
  | zero => exact runs_exhaust
  | succ rounds ih =>
    apply runs_bind runs_position
    rintro checkpoint _ rfl
    apply runs_bind (runs_orNothing hq.runs checkpoint)
    intro _ _ ended
    rcases ended with hop | _
    · apply runs_bind (runs_enclosing hp.runs start _)
      intro m m' hm
      exact runs_bind ih fun _ _ hvs => runs_pure (.cons ⟨hop.value, hm.value⟩ hvs)
    · exact runs_pure .nil

theorem runs_operands (name : String) (hp : C.Parsers R p p') (hq : C.Parsers S q q') :
    C.Runs (Pairs R (List.Forall₂ (Pairs S R))) (Parser.operands name p q)
      (Parser.operands name p' q') := by
  apply runs_bind runs_position
  rintro start _ rfl
  apply runs_bind (runs_enclosing hp.runs start _)
  intro m m' hm
  apply runs_bind runs_rounds
  rintro rounds _ rfl
  apply runs_bind (runs_operations name hp hq start rounds)
  intro rest rest' hrest
  exact runs_pure ⟨hm.value, hrest⟩

def Operators (R : α → α → Prop) (f f' : α → α → α) : Prop :=
  ∀ a a' b b', R a a' → R b b' → R (f a b) (f' a' b')

/-- Related operands, joined from the left by related operators, give related values. -/
theorem combineLeft_related {first first' : α} {rest rest' : List ((α → α → α) × α)}
    (hrest : List.Forall₂ (Pairs (Operators R) R) rest rest') (hfirst : R first first') :
    R (Parser.combineLeft first rest) (Parser.combineLeft first' rest') := by
  induction hrest generalizing first first' with
  | nil => exact hfirst
  | cons hop _ ih => exact ih (hop.1 _ _ _ _ hfirst hop.2)

theorem combineRight_related {first first' : α} {rest rest' : List ((α → α → α) × α)}
    (hrest : List.Forall₂ (Pairs (Operators R) R) rest rest') (hfirst : R first first') :
    R (Parser.combineRight first rest) (Parser.combineRight first' rest') := by
  induction hrest generalizing first first' with
  | nil => exact hfirst
  | cons hop _ ih =>
    rw [Parser.combineRight_cons, Parser.combineRight_cons]
    exact hop.1 _ _ _ _ hfirst (ih hop.2)

theorem parsers_chainLeft {ops ops' : Parser (α → α → α)} (hp : C.Parsers R p p')
    (hops : C.Parsers (Operators R) ops ops') :
    C.Parsers R (Parser.chainLeft p ops) (Parser.chainLeft p' ops') := by
  constructor
  · simp only [Parser.chainLeft, Parser.chainLabel, hp.label, hops.label]
  · apply runs_bind runs_position
    rintro start _ rfl
    apply runs_bind (runs_operands _ hp hops)
    intro v v' hv
    exact runs_matchFrom start (combineLeft_related hv.2 hv.1)

theorem parsers_chainRight {ops ops' : Parser (α → α → α)} (hp : C.Parsers R p p')
    (hops : C.Parsers (Operators R) ops ops') :
    C.Parsers R (Parser.chainRight p ops) (Parser.chainRight p' ops') := by
  constructor
  · simp only [Parser.chainRight, Parser.chainLabel, hp.label, hops.label]
  · apply runs_bind runs_position
    rintro start _ rfl
    apply runs_bind (runs_operands _ hp hops)
    intro v v' hv
    exact runs_matchFrom start (combineRight_related hv.2 hv.1)

/-! ## Changing what a parser gives -/

/-- The values of corresponding parsers may be changed by any functions that keep them related. -/
theorem parsers_recast {f f' : α → β} (hp : C.Parsers R p p')
    (hf : ∀ a a', R a a' → S (f a) (f' a')) : C.Parsers S (p.recast f) (p'.recast f') :=
  ⟨hp.label, runs_map hp.runs fun m m' hm => ⟨hf m.value m'.value hm.value, hm.span⟩⟩

theorem parsers_map {f f' : α → β} (hp : C.Parsers R p p')
    (hf : ∀ a a', R a a' → S (f a) (f' a')) : C.Parsers S (Parser.map f p) (Parser.map f' p') := by
  constructor
  · exact hp.label
  · apply runs_bind runs_position
    rintro start _ rfl
    apply runs_bind (runs_enclosing hp.runs start _)
    intro m m' hm
    exact runs_pure ⟨hf _ _ hm.value, hm.span⟩

/-- The values are related only if they are accepted alike. -/
theorem parsers_filter (label : String) {accepts accepts' : α → Bool} (hp : C.Parsers R p p')
    (same : ∀ a a', R a a' → accepts' a' = accepts a) :
    C.Parsers R (Parser.filter label accepts p) (Parser.filter label accepts' p') := by
  constructor
  · rfl
  · apply runs_bind runs_position
    rintro start _ rfl
    apply runs_bind hp.runs
    intro m m' hm
    rw [same _ _ hm.value, hp.label]
    split
    · exact runs_pure hm
    · apply runs_bind (runs_rewind start)
      intro _ _ _
      apply runs_bind runs_input
      rintro input _ rfl
      rw [Match.text, Match.text, hm.span, Span.slice_behind]
      exact runs_failHere _ _ _

theorem parsers_withSpan (hp : C.Parsers R p p') :
    C.Parsers (Pairs R fun s s' => s' = s.behind C.front) (Parser.withSpan p)
      (Parser.withSpan p') :=
  ⟨hp.label, runs_bind hp.runs fun _ _ hm => runs_pure ⟨⟨hm.value, hm.span⟩, hm.span⟩⟩

theorem parsers_lexeme (hp : C.Parsers R p p') :
    C.Parsers R (Parser.lexeme p) (Parser.lexeme p') := by
  constructor
  · exact hp.label
  · apply runs_bind hp.runs
    intro m m' hm
    apply runs_bind (parsers_takeWhile _ _).runs
    intro trailing trailing' htrailing
    refine runs_pure ⟨hm.value, ?_⟩
    rw [Match.next, Match.next, hm.span, htrailing.span]
    rfl

theorem parsers_traced (node node' : NodeId) (name name' : String) (hp : C.Parsers R p p') :
    C.Parsers R (Parser.traced node name p) (Parser.traced node' name' p') := by
  constructor
  · exact hp.label
  · apply runs_bind runs_position
    intro _ _ _
    apply runs_bind (runs_emit _ _)
    intro _ _ _
    apply runs_bind (runs_observe hp.runs)
    intro _ _ ended
    rcases ended with hm | hf
    · exact runs_bind runs_input fun _ _ _ => runs_bind (runs_emit _ _) fun _ _ _ => runs_pure hm
    · exact runs_bind (runs_emit _ _) fun _ _ _ => runs_fail hf

theorem parsers_labelled (label : String) (hp : C.Parsers R p p') :
    C.Parsers R (p.labelled label) (p'.labelled label) :=
  ⟨rfl, hp.runs⟩

theorem runs_unavailable (label : String) :
    C.Runs R (Parser.unavailable label : Run α) (Parser.unavailable label) := by
  apply runs_bind runs_found
  rintro found _ rfl
  exact runs_failHere _ _ _

end RecursiveDescent.Correspondence
