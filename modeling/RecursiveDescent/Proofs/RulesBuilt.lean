import RecursiveDescent.Proofs.Building
import RecursiveDescent.Proofs.Contract
import RecursiveDescent.Proofs.Shielding

/-!
# The rules a grammar builds

What leaves and traced parts keep up is kept up by all of a grammar, as long as the rules at its own
nodes may be built. Nothing else is built in a run over it, and each of these rules stands below the
node the grammar stands at. Leaves of one's own may do anything but look at the store or change it.
-/
namespace RecursiveDescent

def Outcome.withStore {α : Type} (store : Store) : Outcome α → Outcome α
  | .ok a s => .ok a ⟨s.reader, store⟩
  | .failed f s => .failed f ⟨s.reader, store⟩
  | .halted cause s => .halted cause ⟨s.reader, store⟩

/-- The run depends on its reader only, and leaves the store as it is. -/
def Parser.IgnoresStore {α : Type} (p : Parser α) : Prop :=
  ∀ r store, p.run ⟨r, store⟩ = (p.run ⟨r, .empty⟩).withStore store

theorem Outcome.store_withStore {α : Type} (o : Outcome α) (store : Store) :
    (o.withStore store).state.store = store := by
  cases o <;> rfl

theorem Parser.IgnoresStore.grows {α : Type} {p : Parser α} (h : p.IgnoresStore)
    (rules : List NodeId) : p.run.Grows rules := by
  refine Run.grows_of_still fun s => ?_
  rw [h s.reader s.store, Outcome.store_withStore]

namespace Parser

variable {α : Type}

theorem ignoresStore_leaky (label : String) (count : Nat) :
    (leaky label count : Parser α).IgnoresStore := by
  intro r store
  simp only [leaky, Run.bind_apply, Run.take, Run.advance]
  cases r.take count with
  | ok moved => cases moved <;> rfl
  | error f => rfl

theorem ignoresStore_handmade (label : String) (count : Nat) (reported : ReportedSpan) :
    (handmade label count reported).IgnoresStore := by
  intro r store
  simp only [handmade, Run.bind_apply, Run.take, Run.advance]
  cases r.take count with
  | ok moved => cases moved <;> rfl
  | error f => rfl

theorem IgnoresStore.recast {β : Type} {p : Parser α} (h : p.IgnoresStore) (f : α → β) :
    (p.recast f).IgnoresStore := by
  intro r store
  show (p.run >>= fun m => pure (m.map f)) ⟨r, store⟩ =
    ((p.run >>= fun m => pure (m.map f)) ⟨r, .empty⟩).withStore store
  rw [Run.bind_apply, Run.bind_apply, h r store]
  cases p.run ⟨r, .empty⟩ <;> rfl

end Parser

namespace Grammar

mutual

/-- Where the lazy and the recursive rules of a grammar stand, given where the grammar does. -/
def deferredNodes (node : NodeId) : Grammar → List NodeId
  | .lazy _ g | .recursive _ g => node :: deferredNodes (0 :: node) g
  | .either a b | .andThen a b | .sepBy a b | .manyTill a b | .chainLeft _ a b
  | .chainRight _ a b => deferredNodes (0 :: node) a ++ deferredNodes (1 :: node) b
  | .between a b c =>
    deferredNodes (0 :: node) a ++ (deferredNodes (1 :: node) b ++ deferredNodes (2 :: node) c)
  | .fst g | .snd g | .many g | .many1 g | .optional g | .notAhead _ g | .attempt g | .map _ g
  | .filter _ _ g | .withSpan g | .lexeme g | .traced _ g | .alias g | .labelled _ g =>
    deferredNodes (0 :: node) g
  | .choice _ gs | .allOf _ gs | .inOrder _ gs => deferredNodesIn node 0 gs
  | .codePoint _ _ | .literal _ _ | .literalIgnoringCase _ _ | .oneOf _ _ | .noneOf _ _
  | .satisfy _ _ | .takeWhile _ _ | .endOfInput | .reference _ | .custom _ => []

/-- Those in the branches of a node, the first of which is branch `i`. -/
def deferredNodesIn (node : NodeId) (i : Nat) : List Grammar → List NodeId
  | [] => []
  | g :: gs => deferredNodes (i :: node) g ++ deferredNodesIn node (i + 1) gs

end

variable {P : Grammar → Prop} {g part : Grammar} {node rule : NodeId} {i : Nat}

/-- The node itself, if it is such a rule, and what stands in its branches. -/
theorem deferredNodes_eq (node : NodeId) (g : Grammar) :
    g.deferredNodes node = deferredNodesIn node 0 g.parts ∨
      g.deferredNodes node = node :: deferredNodesIn node 0 g.parts := by
  cases g <;> simp [deferredNodes, deferredNodesIn, parts]

theorem mem_deferredNodesIn {gs : List Grammar} :
    rule ∈ deferredNodesIn node i gs ↔
      ∃ j, ∃ part : Grammar, gs[j]? = some part ∧
        rule ∈ part.deferredNodes ((i + j) :: node) := by
  induction gs generalizing i with
  | nil => simp [deferredNodesIn]
  | cons g gs ih =>
    rw [deferredNodesIn, List.mem_append, ih]
    constructor
    · rintro (own | ⟨j, part, at_j, inside⟩)
      · exact ⟨0, g, rfl, own⟩
      · exact ⟨j + 1, part, at_j, by rwa [Nat.add_right_comm] at inside⟩
    · rintro ⟨j, part, at_j, inside⟩
      cases j with
      | zero =>
        obtain rfl : g = part := Option.some.inj at_j
        exact .inl inside
      | succ j => exact .inr ⟨j, part, at_j, by rwa [Nat.add_right_comm]⟩

/-- What is deferred in a part is deferred in the grammar. -/
theorem deferredNodes_part (at_i : g.parts[i]? = some part) :
    part.deferredNodes (i :: node) ⊆ g.deferredNodes node := by
  intro rule inside
  have below : rule ∈ deferredNodesIn node 0 g.parts :=
    mem_deferredNodesIn.mpr ⟨i, part, at_i, by rwa [Nat.zero_add]⟩
  rcases deferredNodes_eq node g with same | same
  · rwa [same]
  · rw [same]
    exact List.mem_cons_of_mem node below

/-- Each of the rules stands at the node of the grammar or below. -/
theorem Everywhere.suffix_of_mem (hg : g.Everywhere P) (h : rule ∈ g.deferredNodes node) :
    node <:+ rule := by
  induction hg generalizing node rule with
  | node _ _ ih =>
    rename_i g _ _
    have inside : ∀ rule ∈ deferredNodesIn node 0 g.parts, node <:+ rule := by
      intro rule below
      obtain ⟨j, part, at_j, deep⟩ := mem_deferredNodesIn.mp below
      exact (List.suffix_cons _ node).trans (ih part (List.mem_of_getElem? at_j) deep)
    rcases deferredNodes_eq node g with same | same
    · exact inside rule (same ▸ h)
    · rw [same] at h
      rcases List.mem_cons.mp h with rfl | below
      · exact List.suffix_rfl
      · exact inside rule below

def ScopeAmong (rules : List NodeId) (scope : Scope) : Prop :=
  ∀ r ∈ scope, r.body.deferredNodes (0 :: r.node) ⊆ rules

/-- What a part keeps is kept where the part is traced. -/
def KeepsTraced (K : Upkeep) (P : Grammar → Prop) (run : Rule → Scope → Run (Match Value)) : Prop :=
  ∀ (node : NodeId) (name : String) (part : Grammar) (scope : Scope), part.Everywhere P →
    InScope P scope → K.Keeps (parser run scope (0 :: node) part).run →
    K.Keeps (Parser.traced node name (parser run scope (0 :: node) part)).run

variable {K : Upkeep} {rules : List NodeId} {scope : Scope}

open Upkeep in
/-- One case for each kind of node. The bodies that references enter are left to `bodies`. -/
theorem keeps_node {run : Rule → Scope → Run (Match Value)}
    (leaves : ∀ p, P (.custom p) → K.Keeps p.run)
    (attempts : KeepsTraced K P run)
    (bodies : ∀ (rule : Rule) (outer : Scope), rule.body.Everywhere P → InScope P outer →
      ScopeAmong K.rules (rule :: outer) → K.Keeps (run rule outer))
    (hg : g.Everywhere P) (hscope : InScope P scope) (around : ScopeAmong K.rules scope)
    (node : NodeId) (own : g.deferredNodes node ⊆ K.rules) :
    K.Keeps (parser run scope node g).run := by
  induction hg generalizing scope node with
  | node here below ih =>
    rename_i g
    have branch : ∀ i h, g.parts[i]? = some h → K.Keeps (parser run scope (i :: node) h).run :=
      fun i h at_i => ih h (List.mem_of_getElem? at_i) hscope around (i :: node)
        (List.Subset.trans (deferredNodes_part at_i) own)
    have branches : ∀ p ∈ parsers run scope node 0 g.parts, K.Keeps p.run := by
      intro p hp
      obtain ⟨i, h, at_i, rfl⟩ := exists_getElem?_of_mem_parsers hp
      exact branch i h at_i
    cases g with
    | codePoint label c => exact keeps_recast _ (keeps_codePoint label c)
    | literal label text => exact keeps_recast _ (keeps_literal label text)
    | literalIgnoringCase label text => exact keeps_recast _ (keeps_literalIgnoringCase label text)
    | oneOf label chars => exact keeps_recast _ (keeps_oneWhere _ _ _ _)
    | noneOf label chars => exact keeps_recast _ (keeps_oneWhere _ _ _ _)
    | satisfy label accepts => exact keeps_recast _ (keeps_oneWhere _ _ _ _)
    | takeWhile label accepts => exact keeps_recast _ (keeps_takeWhile label accepts)
    | endOfInput => exact keeps_recast _ keeps_endOfInput
    | choice label gs => exact keeps_choice label branches
    | either a b => exact keeps_either (branch 0 a rfl) (branch 1 b rfl)
    | allOf label gs => exact keeps_allOf label branches
    | inOrder label gs => exact keeps_inOrder label branches
    | andThen a b => exact keeps_recast _ (keeps_andThen (branch 0 a rfl) (branch 1 b rfl))
    | fst pair => exact keeps_fst (keeps_recast _ (branch 0 pair rfl))
    | snd pair => exact keeps_snd (keeps_recast _ (branch 0 pair rfl))
    | many item => exact keeps_recast _ (keeps_many (branch 0 item rfl))
    | many1 item => exact keeps_recast _ (keeps_many1 (branch 0 item rfl))
    | optional part => exact keeps_recast _ (keeps_optional (branch 0 part rfl))
    | notAhead label part => exact keeps_recast _ (keeps_notAhead _ (branch 0 part rfl))
    | attempt part => exact keeps_attempt (branch 0 part rfl)
    | map f part => exact keeps_mapped f (branch 0 part rfl)
    | filter label accepts part => exact keeps_filter label accepts (branch 0 part rfl)
    | withSpan part => exact keeps_recast _ (keeps_withSpan (branch 0 part rfl))
    | lexeme part => exact keeps_lexeme (branch 0 part rfl)
    | traced name part =>
      exact attempts node name part scope (below part List.mem_cons_self) hscope (branch 0 part rfl)
    | between opening content closing =>
      exact keeps_between (branch 0 opening rfl) (branch 1 content rfl) (branch 2 closing rfl)
    | sepBy item delimiter =>
      exact keeps_recast _ (keeps_sepBy (branch 0 item rfl) (branch 1 delimiter rfl))
    | manyTill item ending =>
      exact keeps_recast _ (keeps_manyTill (branch 0 item rfl) (branch 1 ending rfl))
    | chainLeft combine operand operator =>
      exact keeps_chainLeft (branch 0 operand rfl) (keeps_recast _ (branch 1 operator rfl))
    | chainRight combine operand operator =>
      exact keeps_chainRight (branch 0 operand rfl) (keeps_recast _ (branch 1 operator rfl))
    | «lazy» label body =>
      exact keeps_deferred (own List.mem_cons_self) .lazy label (branch 0 body rfl)
    | recursive label body =>
      have inside : body.deferredNodes (0 :: node) ⊆ K.rules :=
        List.Subset.trans (deferredNodes_part (g := .recursive label body) rfl) own
      have within : InScope P (⟨label, node, body⟩ :: scope) :=
        hscope.cons (below body List.mem_cons_self)
      have among : ScopeAmong K.rules (⟨label, node, body⟩ :: scope) :=
        List.forall_mem_cons.mpr ⟨inside, around⟩
      exact keeps_deferred (own List.mem_cons_self) .recursive label
        (ih body List.mem_cons_self within among (0 :: node) inside)
    | reference label =>
      rw [parser]
      split
      · rename_i rule outer found
        obtain ⟨body, outside⟩ := hscope.found found
        have among : ScopeAmong K.rules (rule :: outer) := fun r hr =>
          around r (mem_of_found found r hr)
        exact keeps_reference rule.node label (bodies rule outer body outside among)
      · exact keeps_unavailable label
    | «alias» part => exact branch 0 part rfl
    | labelled label part => exact branch 0 part rfl
    | custom p => exact leaves p here

theorem keeps_enter (leaves : ∀ p, P (.custom p) → K.Keeps p.run)
    (attempts : ∀ depth, KeepsTraced K P (enter depth)) (depth : Nat) {rule : Rule}
    {outer : Scope} (body : rule.body.Everywhere P) (outside : InScope P outer)
    (among : ScopeAmong K.rules (rule :: outer)) :
    K.Keeps (enter depth rule outer) := by
  induction depth generalizing rule outer with
  | zero => exact Upkeep.keeps_exhaust
  | succ depth ih =>
    exact keeps_node leaves (attempts depth) (fun _ _ body outside among => ih body outside among)
      body (outside.cons body) among (0 :: rule.node) (among rule List.mem_cons_self)

/-- What all parsers keep up is kept up by a grammar, if its leaves and its traced nodes do so. -/
theorem keeps_parserWithin (leaves : ∀ p, P (.custom p) → K.Keeps p.run)
    (attempts : ∀ depth, KeepsTraced K P (enter depth)) (hg : g.Everywhere P) (depth : Nat)
    (node : NodeId) (own : g.deferredNodes node ⊆ K.rules) :
    K.Keeps (g.parserWithin depth node).run :=
  keeps_node leaves (attempts depth)
    (fun _ _ body outside among => keeps_enter leaves attempts depth body outside among) hg
    inScope_nil nofun node own

/-! ## How stores grow -/

/-- Leaves that are parsers of one's own ignore the store. -/
def StoreBlind : Grammar → Prop :=
  Everywhere fun g => ∀ p, g = .custom p → p.IgnoresStore

theorem grows_leaf (p : Parser Value) (h : ∀ q, Grammar.custom p = .custom q → q.IgnoresStore) :
    (Upkeep.growth rules).Keeps p.run :=
  Run.grows_iff_keeps.mp ((h p rfl).grows rules)

theorem keepsTraced_growth (depth : Nat) : KeepsTraced (.growth rules) P (enter depth) :=
  fun node name _ _ _ _ kept =>
    Run.grows_iff_keeps.mp (Parser.grows_traced node name (Run.grows_iff_keeps.mpr kept))

theorem StoreBlind.grows_parserWithin (hg : g.StoreBlind) (depth : Nat) (node : NodeId) :
    (g.parserWithin depth node).run.Grows (g.deferredNodes node) :=
  Run.grows_iff_keeps.mpr
    (keeps_parserWithin grows_leaf keepsTraced_growth hg depth node (List.Subset.refl _))

/-- The body of a rule that has no other rule around it. -/
theorem StoreBlind.grows_enter (rule : Rule) (body : rule.body.StoreBlind) (depth : Nat) :
    (enter depth rule []).Grows (rule.body.deferredNodes (0 :: rule.node)) :=
  Run.grows_iff_keeps.mpr (keeps_enter grows_leaf keepsTraced_growth depth body inScope_nil
    (List.forall_mem_cons.mpr ⟨List.Subset.refl _, nofun⟩))

/-- A grammar that is blind to the store builds no other rules than its own. -/
theorem StoreBlind.grows_toParser (hg : g.StoreBlind) (node : NodeId) :
    (g.toParser node).run.Grows (g.deferredNodes node) :=
  fun s => hg.grows_parserWithin (g.depthFor s.reader.bytesLeft) node s

theorem leaky_storeBlind (label : String) (count : Nat) : (leaky label count).StoreBlind :=
  .leaf (by rintro p ⟨⟩; exact Parser.ignoresStore_leaky label count) rfl

theorem handmade_storeBlind (label : String) (count : Nat) (reported : ReportedSpan) :
    (handmade label count reported).StoreBlind := by
  refine .leaf ?_ rfl
  rintro p ⟨⟩
  exact (Parser.ignoresStore_handmade label count reported).recast _

end Grammar

end RecursiveDescent
