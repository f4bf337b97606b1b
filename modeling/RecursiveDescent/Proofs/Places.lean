import Mathlib.Logic.Relation
import RecursiveDescent.Proofs.Parts

/-!
# Places in grammars, and rules that go round

A place is a node with the rules around it. From some of its parts, and through references, a run
gets to other places before anything has been taken: `Leads`. A grammar is well-formed if no rule
leads to a reference to itself, and no operands and operators can go on without taking anything.
Whether it is can be computed.
-/
namespace RecursiveDescent.Grammar

/-! ## What may take nothing -/

/-- The rules but the one of that label, which may not take nothing. -/
def except (label : String) (around : String → Bool) (other : String) : Bool :=
  other != label && around other

mutual

/-- Whether a node may succeed without taking anything, as far as its parts tell; `around` says it
of the rules around. A rule does not do so by way of itself alone, so that the references to it
count for nothing within it. -/
def mayTakeNothing (around : String → Bool) : Grammar → Bool
  | .takeWhile _ _ | .endOfInput | .many _ | .optional _ | .notAhead _ _ | .manyTill _ _ => true
  | .codePoint _ _ | .oneOf _ _ | .noneOf _ _ | .satisfy _ _ | .custom _ => false
  | .literal _ text | .literalIgnoringCase _ text => text.isEmpty
  | .choice _ gs => (mayEachTakeNothing around gs).any id
  | .either a b => mayTakeNothing around a || mayTakeNothing around b
  | .allOf _ gs => (mayEachTakeNothing around gs).getLast? == some true
  | .inOrder _ gs => (mayEachTakeNothing around gs).all id
  | .andThen a b => mayTakeNothing around a && mayTakeNothing around b
  | .between a b c =>
    mayTakeNothing around a && mayTakeNothing around b && mayTakeNothing around c
  | .sepBy a _ | .chainLeft _ a _ | .chainRight _ a _ => mayTakeNothing around a
  | .fst g | .snd g | .many1 g | .attempt g | .map _ g | .filter _ _ g | .withSpan g | .lexeme g
  | .traced _ g | .lazy _ g | .alias g | .labelled _ g => mayTakeNothing around g
  | .recursive label g => mayTakeNothing (except label around) g
  | .reference label => around label

def mayEachTakeNothing (around : String → Bool) : List Grammar → List Bool
  | [] => []
  | g :: gs => mayTakeNothing around g :: mayEachTakeNothing around gs

end

/-- Which rules may take nothing, seen from within the rule of that label. -/
def within (label : String) (body : Grammar) (around : String → Bool) (other : String) : Bool :=
  if label = other then body.mayTakeNothing (except label around) else around other

/-- Which rules may take nothing, of those in scope. -/
def idleRules : Scope → String → Bool
  | [] => fun _ => false
  | rule :: outer => within rule.label rule.body (idleRules outer)

variable {around : String → Bool} {label : String} {g part body : Grammar} {scope outer : Scope}
variable {rule : Rule}

theorem mayEachTakeNothing_eq (around : String → Bool) (gs : List Grammar) :
    mayEachTakeNothing around gs = gs.map (mayTakeNothing around) := by
  induction gs with
  | nil => rfl
  | cons g gs ih => rw [mayEachTakeNothing, ih, List.map_cons]

/-- Nothing is added by the references to a rule from within. -/
theorem mayTakeNothing_within (label : String) (body : Grammar) (around : String → Bool) :
    body.mayTakeNothing (within label body around) = body.mayTakeNothing (except label around) ∨
      body.mayTakeNothing (except label around) = true := by
  cases h : body.mayTakeNothing (except label around) with
  | true => exact .inr rfl
  | false =>
    have same : within label body around = except label around := by
      funext other
      rw [within, h, except]
      by_cases hl : label = other
      · subst hl
        simp
      · simp [hl, Ne.symm hl]
    exact .inl (by rw [same, h])

/-- A rule may take nothing if its body may, seen from within the rule. -/
theorem mayTakeNothing_of_within (h : body.mayTakeNothing (within label body around) = true) :
    (Grammar.recursive label body).mayTakeNothing around = true := by
  rw [mayTakeNothing]
  rcases mayTakeNothing_within label body around with same | already
  · rwa [← same]
  · exact already

/-- A reference may take nothing if the rule it finds may. -/
theorem idleRules_found (found : scope.dropWhile (·.label != label) = rule :: outer) :
    idleRules scope label = rule.body.mayTakeNothing (except rule.label (idleRules outer)) := by
  induction scope with
  | nil => cases found
  | cons head scope ih =>
    by_cases hl : head.label = label
    · obtain ⟨rfl, rfl⟩ : head = rule ∧ scope = outer := by simpa [hl] using found
      rw [idleRules, within, if_pos hl]
    · have further : scope.dropWhile (·.label != label) = rule :: outer := by
        simpa [List.dropWhile_cons, hl] using found
      rw [idleRules, within, if_neg hl, ih further]

/-! ## Places -/

/-- Nodes of which a part is begun only where the one before it has ended. -/
def inTurn : Grammar → Bool
  | .inOrder _ _ | .andThen _ _ | .between _ _ _ | .sepBy _ _ | .chainLeft _ _ _
  | .chainRight _ _ _ => true
  | _ => false

structure Place where
  scope : Scope
  node : NodeId
  grammar : Grammar

namespace Place

def inside (p : Place) : Scope :=
  match p.grammar with
  | .recursive label body => ⟨label, p.node, body⟩ :: p.scope
  | _ => p.scope

def branch (p : Place) (i : Nat) (part : Grammar) : Place :=
  ⟨p.inside, i :: p.node, part⟩

def ofRule (rule : Rule) (outer : Scope) : Place :=
  ⟨rule :: outer, 0 :: rule.node, rule.body⟩

def mayTakeNothing (p : Place) : Bool :=
  p.grammar.mayTakeNothing (idleRules p.scope)

def RefersTo (p : Place) (rule : Rule) (outer : Scope) : Prop :=
  ∃ label, p.grammar = .reference label ∧
    p.scope.dropWhile (·.label != label) = rule :: outer

def PassedTo (p : Place) (i : Nat) : Prop :=
  ∀ j < i, ∀ earlier, p.grammar.parts[j]? = some earlier →
    (p.branch j earlier).mayTakeNothing = true

/-- A run may get from the one place to the other before it has taken anything. -/
inductive Leads : Place → Place → Prop
  | part {p : Place} {i : Nat} {part : Grammar} (at_i : p.grammar.parts[i]? = some part)
    (before : p.grammar.inTurn = true → p.PassedTo i) : Leads p (p.branch i part)
  | enters {p : Place} {rule : Rule} {outer : Scope} (refers : p.RefersTo rule outer) :
    Leads p (ofRule rule outer)

/-- In any number of steps. -/
abbrev LeadsOn : Place → Place → Prop :=
  Relation.ReflTransGen Leads

inductive Below (root : Place) : Place → Prop
  | root : Below root root
  | branch {p : Place} {i : Nat} {part : Grammar} (below : Below root p)
    (at_i : p.grammar.parts[i]? = some part) : Below root (p.branch i part)

/-- No rule goes round, and no chain stands still. -/
structure WellFormed (root : Place) : Prop where
  guarded : ∀ p, Below root p → ∀ label body, p.grammar = .recursive label body →
    ∀ q, LeadsOn (ofRule ⟨label, p.node, body⟩ p.scope) q →
      ¬ q.RefersTo ⟨label, p.node, body⟩ p.scope
  moving : ∀ p, Below root p → ∀ combine operand operator,
    p.grammar = .chainLeft combine operand operator ∨
      p.grammar = .chainRight combine operand operator →
    ¬ ((p.branch 0 operand).mayTakeNothing = true ∧ (p.branch 1 operator).mayTakeNothing = true)

variable {root p q : Place}

theorem branch_recursive (h : p.grammar = .recursive label body) :
    p.branch 0 body = ofRule ⟨label, p.node, body⟩ p.scope := by
  rw [branch, inside, h, ofRule]

theorem passedTo_zero : PassedTo p 0 :=
  fun j hj => absurd hj (Nat.not_lt_zero j)

/-- A part that may take nothing is passed. -/
theorem PassedTo.next {i : Nat} (h : PassedTo p i) (at_i : p.grammar.parts[i]? = some part)
    (idle : (p.branch i part).mayTakeNothing = true) : PassedTo p (i + 1) := by
  intro j hj earlier at_j
  rcases Nat.lt_succ_iff_lt_or_eq.mp hj with before | rfl
  · exact h j before earlier at_j
  · obtain rfl := Option.some.inj (at_i.symm.trans at_j)
    exact idle

theorem leads_first (at_0 : p.grammar.parts[0]? = some part) : Leads p (p.branch 0 part) :=
  .part at_0 fun _ => passedTo_zero

theorem leads_abreast {i : Nat} (abreast : p.grammar.inTurn = false)
    (at_i : p.grammar.parts[i]? = some part) : Leads p (p.branch i part) :=
  .part at_i fun turns => absurd turns (by rw [abreast]; decide)

theorem RefersTo.suffix (h : p.RefersTo rule outer) : rule :: outer <:+ p.scope := by
  obtain ⟨label, -, found⟩ := h
  rw [← found]
  exact List.dropWhile_suffix _

/-! ## All places of a grammar -/

theorem recursiveRules_le_of_mem {gs : List Grammar} (h : part ∈ gs) :
    part.recursiveRules ≤ recursiveRulesIn gs := by
  induction gs with
  | nil => cases h
  | cons g gs ih =>
    rw [recursiveRulesIn]
    rcases List.mem_cons.mp h with rfl | h
    · omega
    · have := ih h
      omega

/-- A rule that is no longer below is around. -/
theorem length_inside (p : Place) :
    p.inside.length + recursiveRulesIn p.grammar.parts =
      p.scope.length + p.grammar.recursiveRules := by
  obtain ⟨scope, node, g⟩ := p
  cases g <;>
    simp only [inside, parts, recursiveRules, recursiveRulesIn, List.length_cons] <;> omega

/-- Rules around a place are rules of the grammar, so the scope and what is below are bounded. -/
theorem Below.length_scope_le (h : Below root p) :
    p.scope.length + p.grammar.recursiveRules ≤
      root.scope.length + root.grammar.recursiveRules := by
  induction h with
  | root => exact Nat.le_refl _
  | @branch p i part below at_i ih =>
    have := recursiveRules_le_of_mem (List.mem_of_getElem? at_i)
    have := length_inside p
    show p.inside.length + part.recursiveRules ≤ _
    omega

/-- The rules around a place are those of places above it. -/
theorem Below.ruleAround (h : Below root p) (top : root.scope = []) :
    rule :: outer <:+ p.scope → Below root ⟨outer, rule.node, .recursive rule.label rule.body⟩ := by
  induction h with
  | root =>
    intro around
    rw [top, List.suffix_nil] at around
    cases around
  | @branch p i part below at_i ih =>
    intro (around : rule :: outer <:+ p.inside)
    obtain ⟨scope, node, g⟩ := p
    cases g with
    | recursive label body =>
      rcases List.suffix_cons_iff.mp around with own | further
      · obtain ⟨rfl, rfl⟩ := List.cons.inj own
        exact below
      · exact ih further
    | _ => exact ih around

theorem Below.ofRule (h : Below root p) (top : root.scope = [])
    (around : rule :: outer <:+ p.scope) : Below root (Place.ofRule rule outer) :=
  (h.ruleAround top around).branch (show [rule.body][0]? = some rule.body from rfl)

theorem Below.leads (h : Below root p) (top : root.scope = []) (step : Leads p q) :
    Below root q := by
  cases step with
  | part at_i _ => exact h.branch at_i
  | enters refers => exact h.ofRule top refers.suffix

/-- A run stays among the places of the grammar. -/
theorem Below.leadsOn (h : Below root p) (top : root.scope = []) (path : LeadsOn p q) :
    Below root q := by
  induction path with
  | refl => exact h
  | tail _ step ih => exact ih.leads top step

/-- Before anything is taken, a run gets to references to rules around where it began only. -/
theorem WellFormed.suffix_of_leadsOn (hw : WellFormed root) (top : root.scope = [])
    (path : LeadsOn p q) (h : Below root p) (refers : q.RefersTo rule outer) :
    rule :: outer <:+ p.scope := by
  induction path using Relation.ReflTransGen.head_induction_on with
  | refl => exact refers.suffix
  | @head p p₁ step path ih =>
    have around := ih (h.leads top step)
    cases step with
    | enters entered => exact around.trans entered.suffix
    | @part i part at_i _ =>
      change rule :: outer <:+ p.inside at around
      obtain ⟨scope, node, g⟩ := p
      cases g with
      | recursive label body =>
        rcases List.suffix_cons_iff.mp around with own | further
        · obtain ⟨rfl, rfl⟩ := List.cons.inj own
          obtain ⟨rfl, rfl⟩ : i = 0 ∧ body = part := by
            cases i with
            | zero => exact ⟨rfl, Option.some.inj at_i⟩
            | succ i => cases at_i
          exact absurd refers (hw.guarded _ h label body rfl q path)
        · exact further
      | _ => exact around

/-- From the body of a rule a run gets, before anything is taken, to references to rules around
that only. -/
theorem WellFormed.length_lt (hw : WellFormed root) (top : root.scope = [])
    (h : Below root p) (around : rule :: outer <:+ p.scope) {rule' : Rule} {outer' : Scope}
    (path : LeadsOn (Place.ofRule rule outer) q) (refers : q.RefersTo rule' outer') :
    outer'.length < outer.length := by
  have suffix := hw.suffix_of_leadsOn top path (h.ofRule top around) refers
  rcases List.suffix_cons_iff.mp suffix with own | further
  · obtain ⟨rfl, rfl⟩ := List.cons.inj own
    exact absurd refers (hw.guarded _ (h.ruleAround top around) rule'.label rule'.body rfl q path)
  · exact further.length_le

end Place

/-! ## Computing whether a grammar is well-formed -/

/-- What is met first, of parts in turn that may or may not take nothing. -/
def upFront : List (Bool × List String) → List String
  | [] => []
  | (idle, labels) :: rest => labels ++ if idle then upFront rest else []

mutual

/-- The labels of rules around the node to which a run of it may refer before it has taken
anything. -/
def heads (around : String → Bool) : Grammar → List String
  | .reference label => [label]
  | .recursive label g => (heads (within label g around) g).filter (· != label)
  | .choice _ gs | .allOf _ gs => (eachHeads around gs).flatMap Prod.snd
  | .inOrder _ gs => upFront (eachHeads around gs)
  | .either a b | .manyTill a b => heads around a ++ heads around b
  | .andThen a b | .sepBy a b | .chainLeft _ a b | .chainRight _ a b =>
    upFront [(mayTakeNothing around a, heads around a), (mayTakeNothing around b, heads around b)]
  | .between a b c =>
    upFront [(mayTakeNothing around a, heads around a), (mayTakeNothing around b, heads around b),
      (mayTakeNothing around c, heads around c)]
  | .fst g | .snd g | .many g | .many1 g | .optional g | .notAhead _ g | .attempt g | .map _ g
  | .filter _ _ g | .withSpan g | .lexeme g | .traced _ g | .lazy _ g | .alias g
  | .labelled _ g => heads around g
  | .codePoint _ _ | .literal _ _ | .literalIgnoringCase _ _ | .oneOf _ _ | .noneOf _ _
  | .satisfy _ _ | .takeWhile _ _ | .endOfInput | .custom _ => []

def eachHeads (around : String → Bool) : List Grammar → List (Bool × List String)
  | [] => []
  | g :: gs => (mayTakeNothing around g, heads around g) :: eachHeads around gs

end

mutual

/-- No rule below the node goes round, and no chain stands still. -/
def isWellFormed (around : String → Bool) : Grammar → Bool
  | .recursive label g =>
    !(heads (within label g around) g).contains label && isWellFormed (within label g around) g
  | .chainLeft _ a b | .chainRight _ a b =>
    !(mayTakeNothing around a && mayTakeNothing around b) &&
      (isWellFormed around a && isWellFormed around b)
  | .choice _ gs | .allOf _ gs | .inOrder _ gs => areWellFormed around gs
  | .either a b | .manyTill a b | .andThen a b | .sepBy a b =>
    isWellFormed around a && isWellFormed around b
  | .between a b c => isWellFormed around a && isWellFormed around b && isWellFormed around c
  | .fst g | .snd g | .many g | .many1 g | .optional g | .notAhead _ g | .attempt g | .map _ g
  | .filter _ _ g | .withSpan g | .lexeme g | .traced _ g | .lazy _ g | .alias g
  | .labelled _ g => isWellFormed around g
  | .codePoint _ _ | .literal _ _ | .literalIgnoringCase _ _ | .oneOf _ _ | .noneOf _ _
  | .satisfy _ _ | .takeWhile _ _ | .endOfInput | .reference _ | .custom _ => true

def areWellFormed (around : String → Bool) : List Grammar → Bool
  | [] => true
  | g :: gs => isWellFormed around g && areWellFormed around gs

end

theorem eachHeads_eq (around : String → Bool) (gs : List Grammar) :
    eachHeads around gs = gs.map fun g => (g.mayTakeNothing around, g.heads around) := by
  induction gs with
  | nil => rfl
  | cons g gs ih => rw [eachHeads, ih, List.map_cons]

theorem areWellFormed_iff {gs : List Grammar} :
    areWellFormed around gs = true ↔ ∀ g ∈ gs, g.isWellFormed around = true := by
  induction gs with
  | nil => simp [areWellFormed]
  | cons g gs ih => simp [areWellFormed, ih]

/-- What is met in a part is met in a list of parts in turn, if those before it are passed. -/
theorem mem_upFront {parts : List Grammar} {i : Nat} (at_i : parts[i]? = some part)
    (before : ∀ j < i, ∀ earlier, parts[j]? = some earlier → earlier.mayTakeNothing around = true)
    (mem : label ∈ part.heads around) :
    label ∈ upFront (parts.map fun g => (g.mayTakeNothing around, g.heads around)) := by
  induction parts generalizing i with
  | nil => cases at_i
  | cons g parts ih =>
    rw [List.map_cons, upFront, List.mem_append]
    cases i with
    | zero =>
      obtain rfl := Option.some.inj at_i
      exact .inl mem
    | succ i =>
      have first := before 0 (Nat.succ_pos i) g rfl
      have rest := ih at_i fun j hj earlier at_j => before (j + 1) (by omega) earlier at_j
      exact .inr (by rwa [if_pos first])

/-- Rules and references apart, the heads of a node are those of its parts. -/
theorem heads_eq (ruleless : ∀ label body, g ≠ .recursive label body)
    (settled : ∀ label, g ≠ .reference label) :
    g.heads around =
      if g.inTurn = true then
        upFront (g.parts.map fun part => (part.mayTakeNothing around, part.heads around))
      else g.parts.flatMap (heads around) := by
  cases g with
  | recursive label body => exact absurd rfl (ruleless label body)
  | reference label => exact absurd rfl (settled label)
  | _ => simp [heads, parts, inTurn, eachHeads_eq, List.flatMap_map]

theorem isWellFormed_part (ruleless : ∀ label body, g ≠ .recursive label body)
    (h : g.isWellFormed around = true) (mem : part ∈ g.parts) :
    part.isWellFormed around = true := by
  cases g with
  | recursive label body => exact absurd rfl (ruleless label body)
  | choice | allOf | inOrder =>
    rw [isWellFormed, areWellFormed_iff] at h
    exact h part mem
  | _ => simp [isWellFormed, parts] at h mem <;> grind

theorem ne_of_mem_heads {own : String} (h : (recursive own body).isWellFormed around = true)
    (mem : label ∈ body.heads (within own body around)) : label ≠ own := by
  rintro rfl
  simp only [isWellFormed, List.contains_eq_mem, decide_eq_true mem] at h
  cases h

namespace Place

variable {root p q : Place}

theorem isWellFormed_branch {i : Nat} (h : p.grammar.isWellFormed (idleRules p.scope) = true)
    (at_i : p.grammar.parts[i]? = some part) :
    part.isWellFormed (idleRules (p.branch i part).scope) = true := by
  have mem := List.mem_of_getElem? at_i
  obtain ⟨scope, node, g⟩ := p
  cases g with
  | recursive label body =>
    obtain rfl := List.mem_singleton.mp mem
    rw [isWellFormed, Bool.and_eq_true] at h
    exact h.2
  | _ => exact isWellFormed_part (by rintro _ _ ⟨⟩) h mem

theorem Below.isWellFormed (h : Below root p)
    (hroot : root.grammar.isWellFormed (idleRules root.scope) = true) :
    p.grammar.isWellFormed (idleRules p.scope) = true := by
  induction h with
  | root => exact hroot
  | branch _ at_i ih => exact isWellFormed_branch ih at_i

theorem dropWhile_of_ne {own : Rule} (h : label ≠ own.label) :
    (own :: scope).dropWhile (·.label != label) = scope.dropWhile (·.label != label) := by
  rw [List.dropWhile_cons_of_pos]
  simpa using h.symm

/-- What a part leads to up front, the node leads to, if the parts before may take nothing. -/
theorem heads_branch {i : Nat} (h : p.grammar.isWellFormed (idleRules p.scope) = true)
    (at_i : p.grammar.parts[i]? = some part)
    (before : p.grammar.inTurn = true → p.PassedTo i)
    (mem : label ∈ part.heads (idleRules (p.branch i part).scope)) :
    label ∈ p.grammar.heads (idleRules p.scope) ∧
      (p.branch i part).scope.dropWhile (·.label != label) =
        p.scope.dropWhile (·.label != label) := by
  have mem_parts := List.mem_of_getElem? at_i
  obtain ⟨scope, node, g⟩ := p
  cases g with
  | recursive other body =>
    obtain rfl := List.mem_singleton.mp mem_parts
    have ne := ne_of_mem_heads h mem
    refine ⟨?_, dropWhile_of_ne ne⟩
    rw [heads, List.mem_filter]
    exact ⟨mem, by simpa using ne⟩
  | reference other => cases mem_parts
  | _ =>
    refine ⟨?_, rfl⟩
    rw [heads_eq (by rintro _ _ ⟨⟩) (by rintro _ ⟨⟩)]
    split
    · rename_i turns
      exact mem_upFront at_i (before turns) mem
    · exact List.mem_flatMap.mpr ⟨part, mem_parts, mem⟩

/-- The references a run gets to are to rules around those that are heads, or to these. -/
theorem exists_head_of_leadsOn (top : root.scope = [])
    (hroot : root.grammar.isWellFormed (idleRules root.scope) = true) (path : LeadsOn p q)
    (h : Below root p) (refers : q.RefersTo rule outer) :
    ∃ label ∈ p.grammar.heads (idleRules p.scope),
      rule :: outer <:+ p.scope.dropWhile (·.label != label) := by
  induction path using Relation.ReflTransGen.head_induction_on with
  | refl =>
    obtain ⟨label, hg, found⟩ := refers
    refine ⟨label, by rw [hg, heads]; exact List.mem_singleton_self label, ?_⟩
    exact found ▸ List.suffix_rfl
  | @head p p₁ step path ih =>
    obtain ⟨label, mem, around⟩ := ih (h.leads top step)
    cases step with
    | part at_i before =>
      obtain ⟨mem', same⟩ := heads_branch (h.isWellFormed hroot) at_i before mem
      exact ⟨label, mem', same ▸ around⟩
    | enters entered =>
      obtain ⟨other, hg, found⟩ := entered
      refine ⟨other, by rw [hg, heads]; exact List.mem_singleton_self other, ?_⟩
      rw [found]
      exact around.trans (List.dropWhile_suffix _)

theorem wellFormed_of_isWellFormed (top : root.scope = [])
    (hroot : root.grammar.isWellFormed (idleRules root.scope) = true) : WellFormed root where
  guarded p h label body hg q path refers := by
    have checked := h.isWellFormed hroot
    rw [hg] at checked
    have inner : Below root (Place.ofRule ⟨label, p.node, body⟩ p.scope) := by
      rw [← branch_recursive hg]
      exact h.branch (by rw [hg]; rfl)
    obtain ⟨other, mem, around⟩ := exists_head_of_leadsOn top hroot path inner refers
    rw [Place.ofRule, dropWhile_of_ne (ne_of_mem_heads checked mem)] at around
    have shorter := (around.trans (List.dropWhile_suffix _)).length_le
    exact absurd shorter (by simp)
  moving p h combine operand operator hg idle := by
    have checked := h.isWellFormed hroot
    have branches : p.inside = p.scope := by
      rcases hg with hg | hg <;> rw [inside, hg]
    have both : (operand.mayTakeNothing (idleRules p.scope) &&
        operator.mayTakeNothing (idleRules p.scope)) = true := by
      rw [Bool.and_eq_true, ← branches]
      exact idle
    rcases hg with hg | hg <;>
      · rw [hg, Grammar.isWellFormed, both] at checked
        cases checked

end Place

def WellFormed (g : Grammar) (node : NodeId) : Prop :=
  Place.WellFormed ⟨[], node, g⟩

theorem wellFormed_of_isWellFormed (h : g.isWellFormed (fun _ => false) = true) (node : NodeId) :
    g.WellFormed node :=
  Place.wellFormed_of_isWellFormed rfl h

end RecursiveDescent.Grammar
