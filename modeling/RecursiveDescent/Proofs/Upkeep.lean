import RecursiveDescent.Proofs.CorrespondingGrammars

/-!
# What is kept up in runs

The reader of a run stays at certain places, from each of which it can go back to each other one,
and from the beginning of the run to its end the store changes in certain ways only. If the
movements of readers and the builds of rules keep to this, then so does each operation of runs, and
hence whatever is put together from them. What is logged of an attempt is left to those who say what
they keep up.
-/
namespace RecursiveDescent

structure Upkeep where
  /-- Where the reader stands. -/
  place : Reader → Prop
  /-- How the store changes. -/
  change : Store → Store → Prop
  /-- Halted runs change the store in no other way. -/
  whenHalted : Prop
  /-- The rules that may be built. -/
  rules : List NodeId
  change_refl (s : Store) : change s s
  change_trans {s t u : Store} : change s t → change t u → change s u
  change_afterBuild {rule : NodeId} (s : Store) (kind : RuleKind) (label : String) : rule ∈ rules →
    change s (s.afterBuild kind rule label)
  back {r r' : Reader} : place r → place r' → place ⟨r.input, r'.position⟩
  take {r r' : Reader} {n : Nat} {text : Text} : place r → r.take n = .ok (some (text, r')) →
    place r'
  takeBytes {r r' : Reader} {n : Nat} {text : Text} : place r →
    r.takeBytes n = .ok (some (text, r')) → place r'

namespace Upkeep

variable {α β γ : Type} (K : Upkeep)

/-- What an outcome has to be, of a run from `s`. -/
def Ends (s : State) : Outcome α → Prop
  | .ok _ t | .failed _ t => K.place t.reader ∧ K.change s.store t.store
  | .halted _ t => K.whenHalted → K.change s.store t.store

def Keeps (r : Run α) : Prop :=
  ∀ s, K.place s.reader → K.Ends s (r s)

def Marked (p : Position) : Prop :=
  ∃ r, K.place r ∧ p = r.position

variable {K} {r : Run α} {next : α → Run β} {start : Position} {s t : State}

theorem Ends.trans (first : K.change s.store t.store) {o : Outcome α} (h : K.Ends t o) :
    K.Ends s o := by
  cases o with
  | ok a u => exact ⟨h.1, K.change_trans first h.2⟩
  | failed f u => exact ⟨h.1, K.change_trans first h.2⟩
  | halted cause u => exact fun stopped => K.change_trans first (h stopped)

theorem keeps_pure (a : α) : K.Keeps (pure a) :=
  fun s hs => ⟨hs, K.change_refl s.store⟩

/-- What both parts of a run keep up, the whole does. -/
theorem keeps_bind (h : K.Keeps r) (hnext : ∀ a, K.Keeps (next a)) : K.Keeps (r >>= next) := by
  intro s hs
  have first := h s hs
  rw [Run.bind_apply]
  cases hr : r s with
  | ok a t =>
    rw [hr] at first
    exact (hnext a t first.1).trans first.2
  | failed f t => rwa [hr] at first
  | halted cause t => rwa [hr] at first

theorem keeps_map {f : α → β} (h : K.Keeps r) : K.Keeps (f <$> r) :=
  keeps_bind h fun a => keeps_pure (f a)

theorem keeps_fail (f : Failure) : K.Keeps (Run.fail f : Run α) :=
  fun s hs => ⟨hs, K.change_refl s.store⟩

theorem keeps_exhaust : K.Keeps (Run.exhaust : Run α) :=
  fun s _ _ => K.change_refl s.store

theorem keeps_observe (h : K.Keeps r) : K.Keeps r.observe := by
  intro s hs
  have ends := h s hs
  rw [Run.observe]
  cases hr : r s <;> rwa [hr] at ends

/-! ## The reader -/

theorem keeps_reader : K.Keeps Run.reader :=
  fun s hs => ⟨hs, K.change_refl s.store⟩

theorem keeps_position : K.Keeps Run.position :=
  fun s hs => ⟨hs, K.change_refl s.store⟩

theorem keeps_input : K.Keeps Run.input :=
  fun s hs => ⟨hs, K.change_refl s.store⟩

theorem keeps_rounds : K.Keeps Run.rounds :=
  fun s hs => ⟨hs, K.change_refl s.store⟩

/-- What comes after can go back to where it began. -/
theorem keeps_marking {next : Position → Run β} (h : ∀ p, K.Marked p → K.Keeps (next p)) :
    K.Keeps (Run.position >>= next) :=
  fun s hs => h s.reader.position ⟨s.reader, hs, rfl⟩ s hs

theorem keeps_found : K.Keeps Run.found := by
  refine keeps_bind keeps_reader fun r => ?_
  cases r.peek? <;> exact keeps_pure _

/-- Going back is safe where a mark was set. -/
theorem keeps_rewind (marked : K.Marked start) : K.Keeps (Run.rewind start) := by
  obtain ⟨r, hr, rfl⟩ := marked
  intro s hs
  rw [Run.rewind, Reader.rewind]
  by_cases within : r.position.offset ≤ s.reader.input.byteLength
  · rw [if_pos within]
    exact ⟨K.back hs hr, K.change_refl s.store⟩
  · rw [if_neg within]
    exact fun _ => K.change_refl s.store

theorem keeps_advance {move : Reader → Except Fault (Option (Text × Reader))}
    (moves : ∀ r r' text, K.place r → move r = .ok (some (text, r')) → K.place r') :
    K.Keeps (Run.advance move) := by
  intro s hs
  rw [Run.advance]
  cases hmove : move s.reader with
  | ok moved =>
    cases moved with
    | none => exact ⟨hs, K.change_refl s.store⟩
    | some moved => exact ⟨moves _ _ _ hs hmove, K.change_refl s.store⟩
  | error f => exact fun _ => K.change_refl s.store

theorem keeps_take (n : Nat) : K.Keeps (Run.take n) :=
  keeps_advance fun _ _ _ => K.take

theorem keeps_takeBytes (n : Nat) : K.Keeps (Run.takeBytes n) :=
  keeps_advance fun _ _ _ => K.takeBytes

/-! ## Failing, and going back after a failure -/

theorem keeps_failHere (message expected found : String) :
    K.Keeps (Run.failHere message expected found : Run α) :=
  keeps_bind keeps_reader fun _ => keeps_fail _

theorem keeps_enclosing (h : K.Keeps r) (marked : K.Marked start) (message : String) :
    K.Keeps (r.enclosing start message) := by
  refine keeps_bind (keeps_observe h) fun result => ?_
  cases result with
  | ok a => exact keeps_pure a
  | error f =>
    exact keeps_bind (keeps_rewind marked) fun _ =>
      keeps_bind keeps_reader fun _ => keeps_fail _

theorem keeps_orNothing (h : K.Keeps r) (marked : K.Marked start) :
    K.Keeps (r.orNothing start) := by
  refine keeps_bind (keeps_observe h) fun result => ?_
  cases result with
  | ok a => exact keeps_pure _
  | error f => exact keeps_bind (keeps_rewind marked) fun _ => keeps_pure _

theorem keeps_lookAhead (h : K.Keeps r) (marked : K.Marked start) :
    K.Keeps (r.lookAhead start) :=
  keeps_bind (keeps_observe h) fun _ => keeps_bind (keeps_rewind marked) fun _ => keeps_pure _

/-! ## Parsers -/

open RecursiveDescent.Parser

variable {p : Parser α} {q : Parser β} {ps : List (Parser α)}

theorem keeps_recast (f : α → β) (h : K.Keeps p.run) : K.Keeps (p.recast f).run :=
  keeps_map h

/-- The end of a run whose match covers all that was passed since `start`. -/
theorem keeps_matchFrom (start : Position) (a : α) :
    K.Keeps (do return ⟨a, ⟨start, ← Run.position⟩⟩ : Run (Match α)) :=
  keeps_bind keeps_position fun _ => keeps_pure _

/-! ## Leaves -/

theorem keeps_takeSymbol (expected : String) : K.Keeps (takeSymbol expected) := by
  refine keeps_bind (keeps_take 1) fun taken => ?_
  cases taken with
  | none => exact keeps_failHere _ _ _
  | some moved => exact keeps_pure _

theorem keeps_codePoint (label : String) (c : Char) : K.Keeps (codePoint label c).run := by
  refine keeps_bind keeps_reader fun r => ?_
  cases r.peek? with
  | none => exact keeps_failHere _ _ _
  | some d =>
    dsimp only
    split
    · exact keeps_bind (keeps_takeSymbol _) fun _ => keeps_pure _
    · exact keeps_failHere _ _ _

theorem keeps_oneWhere (label message expected : String) (accepts : Char → Bool) :
    K.Keeps (oneWhere label message expected accepts).run := by
  refine keeps_bind keeps_reader fun r => ?_
  cases r.peek? with
  | none => exact keeps_failHere _ _ _
  | some c =>
    dsimp only
    split
    · exact keeps_bind (keeps_takeSymbol _) fun _ => keeps_pure _
    · exact keeps_failHere _ _ _

theorem keeps_takeWhile (label : String) (accepts : Char → Bool) :
    K.Keeps (takeWhile label accepts).run := by
  refine keeps_bind keeps_reader fun r => keeps_bind (keeps_takeBytes _) fun taken => ?_
  cases taken with
  | none => exact keeps_failHere _ _ _
  | some moved => exact keeps_pure _

theorem keeps_endOfInput : K.Keeps endOfInput.run := by
  refine keeps_bind keeps_reader fun r => ?_
  split
  · exact keeps_bind keeps_position fun _ => keeps_pure _
  · exact keeps_bind keeps_found fun _ => keeps_failHere _ _ _

theorem keeps_takeMatch (expected : String) (rest : Text) (width : Nat) :
    K.Keeps (takeMatch expected rest width) := by
  refine keeps_bind (keeps_takeBytes _) fun taken => ?_
  cases taken with
  | none => exact keeps_failHere _ _ _
  | some moved => exact keeps_pure _

theorem keeps_literal (label : String) (text : Text) : K.Keeps (literal label text).run := by
  refine keeps_bind keeps_reader fun r => ?_
  dsimp only
  split
  · exact keeps_takeMatch _ _ _
  · split <;> exact keeps_failHere _ _ _

theorem keeps_literalIgnoringCase (label : String) (text : Text) :
    K.Keeps (literalIgnoringCase label text).run := by
  refine keeps_bind keeps_reader fun r => ?_
  dsimp only
  split
  · exact keeps_takeMatch _ _ _
  · split <;> exact keeps_failHere _ _ _

/-! ## Alternatives, guards and lookahead -/

theorem keeps_choiceFrom (label : String) (marked : K.Marked start) (cause : Option Failure)
    (hps : ∀ p ∈ ps, K.Keeps p.run) : K.Keeps (choiceFrom label start cause ps) := by
  induction ps generalizing cause with
  | nil =>
    cases cause with
    | none => exact keeps_bind keeps_found fun _ => keeps_failHere _ _ _
    | some f => exact keeps_bind keeps_reader fun _ => keeps_fail _
  | cons p ps ih =>
    rw [List.forall_mem_cons] at hps
    simp only [choiceFrom]
    refine keeps_bind (keeps_observe hps.1) fun result => ?_
    cases result with
    | ok m => exact keeps_pure m
    | error f => exact keeps_bind (keeps_rewind marked) fun _ => ih (some f) hps.2

theorem keeps_choice (label : String) (hps : ∀ p ∈ ps, K.Keeps p.run) :
    K.Keeps (choice label ps).run :=
  keeps_marking fun _ marked => keeps_choiceFrom label marked none hps

theorem keeps_either {p q : Parser α} (hp : K.Keeps p.run) (hq : K.Keeps q.run) :
    K.Keeps (either p q).run :=
  keeps_choice _ (by simp [hp, hq])

theorem keeps_allOfFrom (label : String) (marked : K.Marked start) (last : Option (Match α))
    (hps : ∀ p ∈ ps, K.Keeps p.run) : K.Keeps (allOfFrom label start last ps) := by
  induction ps generalizing last with
  | nil =>
    cases last with
    | none => exact keeps_bind keeps_found fun _ => keeps_failHere _ _ _
    | some m => exact keeps_pure m
  | cons p ps ih =>
    rw [List.forall_mem_cons] at hps
    simp only [allOfFrom]
    refine keeps_bind (keeps_rewind marked) fun _ => ?_
    exact keeps_bind (keeps_enclosing hps.1 marked _) fun m => ih (some m) hps.2

theorem keeps_allOf (label : String) (hps : ∀ p ∈ ps, K.Keeps p.run) :
    K.Keeps (allOf label ps).run :=
  keeps_marking fun _ marked => keeps_allOfFrom label marked none hps

theorem keeps_optional (hp : K.Keeps p.run) : K.Keeps (optional p).run := by
  refine keeps_marking fun start marked => ?_
  refine keeps_bind (keeps_orNothing hp marked) fun result => ?_
  cases result <;> exact keeps_pure _

theorem keeps_notAhead (label : String) (hp : K.Keeps p.run) : K.Keeps (notAhead label p).run := by
  refine keeps_marking fun start marked => ?_
  refine keeps_bind (keeps_lookAhead hp marked) fun result => ?_
  cases result with
  | ok m => exact keeps_bind keeps_input fun _ => keeps_failHere _ _ _
  | error f => exact keeps_pure _

theorem keeps_attempt (hp : K.Keeps p.run) : K.Keeps (attempt p).run :=
  keeps_marking fun _ marked => keeps_enclosing hp marked _

/-! ## One parser after the other -/

theorem keeps_inOrderFrom (label : String) (marked : K.Marked start) (last : Option α)
    (hps : ∀ p ∈ ps, K.Keeps p.run) : K.Keeps (inOrderFrom label start last ps) := by
  induction ps generalizing last with
  | nil =>
    cases last with
    | none => exact keeps_bind keeps_found fun _ => keeps_failHere _ _ _
    | some value => exact keeps_matchFrom start value
  | cons p ps ih =>
    rw [List.forall_mem_cons] at hps
    simp only [inOrderFrom]
    exact keeps_bind (keeps_enclosing hps.1 marked _) fun m => ih (some m.value) hps.2

theorem keeps_inOrder (label : String) (hps : ∀ p ∈ ps, K.Keeps p.run) :
    K.Keeps (inOrder label ps).run :=
  keeps_marking fun _ marked => keeps_inOrderFrom label marked none hps

theorem keeps_andThen (hp : K.Keeps p.run) (hq : K.Keeps q.run) : K.Keeps (andThen p q).run := by
  refine keeps_marking fun start marked => ?_
  refine keeps_bind (keeps_enclosing hp marked _) fun l => ?_
  exact keeps_bind (keeps_enclosing hq marked _) fun r => keeps_pure _

theorem keeps_fst {pair : Parser (α × β)} (h : K.Keeps pair.run) : K.Keeps (fst pair).run := by
  refine keeps_marking fun _ marked => ?_
  exact keeps_bind (keeps_enclosing h marked _) fun _ => keeps_pure _

theorem keeps_snd {pair : Parser (α × β)} (h : K.Keeps pair.run) : K.Keeps (snd pair).run := by
  refine keeps_marking fun _ marked => ?_
  exact keeps_bind (keeps_enclosing h marked _) fun _ => keeps_pure _

theorem keeps_between {closing : Parser γ} (hp : K.Keeps p.run) (hq : K.Keeps q.run)
    (hc : K.Keeps closing.run) : K.Keeps (between p q closing).run := by
  have whole := keeps_fst (keeps_andThen (keeps_snd (keeps_andThen hp hq)) hc)
  exact keeps_marking fun _ marked => keeps_enclosing whole marked _

/-! ## Repetition -/

/-- As many rounds as there are, each keeps it up. -/
theorem keeps_items (hp : K.Keeps p.run) (rounds : Nat) : K.Keeps (items p rounds) := by
  induction rounds with
  | zero => exact keeps_exhaust
  | succ rounds ih =>
    refine keeps_marking fun _ marked => keeps_bind (keeps_orNothing hp marked) fun result => ?_
    cases result with
    | none => exact keeps_pure _
    | some m =>
      dsimp only
      split
      · exact keeps_pure _
      · exact keeps_bind ih fun _ => keeps_pure _

theorem keeps_many (hp : K.Keeps p.run) : K.Keeps (many p).run := by
  refine keeps_bind keeps_position fun start => keeps_bind keeps_rounds fun rounds => ?_
  exact keeps_bind (keeps_items hp rounds) fun values => keeps_matchFrom start values

theorem keeps_itemsAfter (first : Match α) (hp : K.Keeps p.run) :
    K.Keeps (itemsAfter first p) := by
  rw [itemsAfter]
  split
  · exact keeps_pure _
  · exact keeps_bind keeps_rounds fun rounds => keeps_items hp rounds

theorem keeps_many1 (hp : K.Keeps p.run) : K.Keeps (many1 p).run := by
  refine keeps_marking fun start marked => keeps_bind (keeps_observe hp) fun result => ?_
  cases result with
  | ok first =>
    exact keeps_bind (keeps_itemsAfter first hp) fun _ => keeps_matchFrom start _
  | error f =>
    exact keeps_bind (keeps_rewind marked) fun _ =>
      keeps_bind keeps_reader fun _ => keeps_fail _

theorem keeps_delimitedItems (hp : K.Keeps p.run) (hq : K.Keeps q.run) (marked : K.Marked start)
    (rounds : Nat) : K.Keeps (delimitedItems p q start rounds) := by
  induction rounds with
  | zero => exact keeps_exhaust
  | succ rounds ih =>
    refine keeps_marking fun _ here => keeps_bind (keeps_orNothing hq here) fun result => ?_
    cases result with
    | none => exact keeps_pure _
    | some d =>
      refine keeps_bind (keeps_enclosing hp marked _) fun m => keeps_bind keeps_position fun _ => ?_
      split
      · exact keeps_bind ih fun _ => keeps_pure _
      · exact keeps_pure _

theorem keeps_sepBy (hp : K.Keeps p.run) (hq : K.Keeps q.run) : K.Keeps (sepBy p q).run := by
  refine keeps_marking fun start marked => ?_
  refine keeps_bind (keeps_enclosing hp marked _) fun first =>
    keeps_bind keeps_rounds fun rounds => ?_
  exact keeps_bind (keeps_delimitedItems hp hq marked rounds) fun _ => keeps_matchFrom start _

theorem keeps_progressing (hp : K.Keeps p.run) (ending : Parser β) :
    K.Keeps (progressing p ending) := by
  refine keeps_bind hp fun m => ?_
  split
  · exact keeps_bind keeps_found fun _ => keeps_failHere _ _ _
  · exact keeps_pure m

theorem keeps_itemsTill (hp : K.Keeps p.run) (hq : K.Keeps q.run) (marked : K.Marked start)
    (rounds : Nat) : K.Keeps (itemsTill p q start rounds) := by
  induction rounds with
  | zero => exact keeps_exhaust
  | succ rounds ih =>
    refine keeps_marking fun _ here => keeps_bind (keeps_lookAhead hq here) fun result => ?_
    cases result with
    | ok m => exact keeps_pure _
    | error f =>
      refine keeps_bind (keeps_enclosing (keeps_progressing hp q) marked _) fun m => ?_
      exact keeps_bind ih fun _ => keeps_pure _

theorem keeps_manyTill (hp : K.Keeps p.run) (hq : K.Keeps q.run) : K.Keeps (manyTill p q).run := by
  refine keeps_marking fun start marked => keeps_bind keeps_rounds fun rounds => ?_
  exact keeps_bind (keeps_itemsTill hp hq marked rounds) fun _ => keeps_matchFrom start _

/-! ## Operands and operators -/

theorem keeps_operations (name : String) (hp : K.Keeps p.run) (hq : K.Keeps q.run)
    (marked : K.Marked start) (rounds : Nat) : K.Keeps (operations name p q start rounds) := by
  induction rounds with
  | zero => exact keeps_exhaust
  | succ rounds ih =>
    refine keeps_marking fun _ here => keeps_bind (keeps_orNothing hq here) fun result => ?_
    cases result with
    | none => exact keeps_pure _
    | some op =>
      refine keeps_bind (keeps_enclosing hp marked _) fun right => ?_
      exact keeps_bind ih fun _ => keeps_pure _

theorem keeps_operands (name : String) (hp : K.Keeps p.run) (hq : K.Keeps q.run) :
    K.Keeps (operands name p q) := by
  refine keeps_marking fun start marked => ?_
  refine keeps_bind (keeps_enclosing hp marked _) fun first =>
    keeps_bind keeps_rounds fun rounds => ?_
  exact keeps_bind (keeps_operations name hp hq marked rounds) fun _ => keeps_pure _

theorem keeps_chainLeft {operator : Parser (α → α → α)} (hp : K.Keeps p.run)
    (ho : K.Keeps operator.run) : K.Keeps (chainLeft p operator).run := by
  refine keeps_bind keeps_position fun start => ?_
  exact keeps_bind (keeps_operands _ hp ho) fun _ => keeps_matchFrom start _

theorem keeps_chainRight {operator : Parser (α → α → α)} (hp : K.Keeps p.run)
    (ho : K.Keeps operator.run) : K.Keeps (chainRight p operator).run := by
  refine keeps_bind keeps_position fun start => ?_
  exact keeps_bind (keeps_operands _ hp ho) fun _ => keeps_matchFrom start _

/-! ## Changing what a parser gives -/

theorem keeps_mapped (f : α → β) (hp : K.Keeps p.run) : K.Keeps (Parser.map f p).run := by
  refine keeps_marking fun _ marked => ?_
  exact keeps_bind (keeps_enclosing hp marked _) fun _ => keeps_pure _

theorem keeps_filter (label : String) (accepts : α → Bool) (hp : K.Keeps p.run) :
    K.Keeps (filter label accepts p).run := by
  refine keeps_marking fun start marked => keeps_bind hp fun m => ?_
  dsimp only
  split
  · exact keeps_pure m
  · refine keeps_bind (keeps_rewind marked) fun _ => ?_
    exact keeps_bind keeps_input fun _ => keeps_failHere _ _ _

theorem keeps_withSpan (hp : K.Keeps p.run) : K.Keeps (withSpan p).run :=
  keeps_bind hp fun _ => keeps_pure _

theorem keeps_lexeme (hp : K.Keeps p.run) : K.Keeps (lexeme p).run :=
  keeps_bind hp fun _ => keeps_bind (keeps_takeWhile _ _) fun _ => keeps_pure _

/-! ## Parsers built on first use -/

theorem keeps_deferred {rule : NodeId} (among : rule ∈ K.rules) (kind : RuleKind) (label : String)
    {body : Run (Match α)} (hb : K.Keeps body) : K.Keeps (deferred kind rule label body).run := by
  intro s hs
  rw [deferred_run]
  have built := K.change_afterBuild s.store kind label among
  exact (hb ⟨s.reader, s.store.afterBuild kind rule label⟩ hs).trans built

theorem keeps_unavailable (label : String) : K.Keeps (unavailable label : Run α) :=
  keeps_bind keeps_found fun _ => keeps_failHere _ _ _

theorem keeps_reference (rule : NodeId) (label : String) {enter : Run (Match α)}
    (he : K.Keeps enter) : K.Keeps (reference rule label enter).run := by
  intro s hs
  rw [reference_run]
  split
  · exact he s hs
  · exact keeps_unavailable label s hs

end Upkeep

end RecursiveDescent
