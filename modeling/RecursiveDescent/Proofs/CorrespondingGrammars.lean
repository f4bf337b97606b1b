import RecursiveDescent.Proofs.Corresponding
import RecursiveDescent.Proofs.Parts

/-!
# A grammar run twice

The parsers of one grammar correspond if its functions commute with putting a text in front, and if
both stores agree on the rules that are entered. What has to be known of the stores grows with each
rule that is built, and may be forgotten behind it.
-/
namespace RecursiveDescent

def Store.afterBuild (s : Store) (kind : RuleKind) (rule : NodeId) (label : String) : Store :=
  if s.isBuilt rule then s else (s.emit (.building kind rule label)).markBuilt rule

namespace Parser

variable {α : Type}

theorem deferred_run (kind : RuleKind) (rule : NodeId) (label : String) (body : Run (Match α))
    (s : State) :
    (deferred kind rule label body).run s =
      body ⟨s.reader, s.store.afterBuild kind rule label⟩ := by
  have build_run : build kind rule label s =
      .ok () ⟨s.reader, s.store.afterBuild kind rule label⟩ := by
    rw [Store.afterBuild]
    show (if s.store.isBuilt rule then (pure () : Run Unit) else _) s = _
    split <;> rfl
  show (build kind rule label >>= fun _ => body) s = _
  rw [Run.bind_apply, build_run]

theorem traced_run (node : NodeId) (name : String) (p : Parser α) (s : State) :
    (traced node name p).run s =
      match p.run ⟨s.reader, s.store.emit (.trying node name s.reader.position)⟩ with
      | .ok m t =>
        .ok m ⟨t.reader, t.store.emit (.matched node name (m.text t.reader.input) m.span)⟩
      | .failed f t => .failed f ⟨t.reader, t.store.emit (.failed node name f)⟩
      | .halted cause t => .halted cause t := by
  show (p.run.observe >>= _) ⟨s.reader, s.store.emit (.trying node name s.reader.position)⟩ = _
  rw [Run.bind_apply, Run.observe]
  cases p.run ⟨s.reader, s.store.emit (.trying node name s.reader.position)⟩ <;> rfl

theorem reference_run (rule : NodeId) (label : String) (enter : Run (Match α)) (s : State) :
    (reference rule label enter).run s =
      if s.store.isAvailable rule then enter s else unavailable label s := by
  show (if s.store.isAvailable rule then enter else unavailable label : Run (Match α)) s = _
  split <;> rfl

end Parser

/-- The functions in a node commute with putting the text in front. -/
def Grammar.Respects (front : Text) : Grammar → Prop
  | .map f _ => ∀ v, f (v.behind front) = (f v).behind front
  | .filter _ accepts _ => ∀ v, accepts (v.behind front) = accepts v
  | .chainLeft combine _ _ | .chainRight combine _ _ => ∀ op left right,
    combine (op.behind front) (left.behind front) (right.behind front) =
      (combine op left right).behind front
  | _ => True

namespace Value

def IsBehind (front : Text) (v v' : Value) : Prop :=
  v' = v.behind front

variable {front : Text}

/-- Lists are moved behind a text value by value. -/
theorem isBehind_list {vs vs' : List Value} (h : List.Forall₂ (IsBehind front) vs vs') :
    IsBehind front (.list vs) (.list vs') := by
  have same : vs' = listBehind front vs := by
    induction h with
    | nil => rfl
    | cons hv _ ih => rw [hv, ih, listBehind]
  rw [IsBehind, behind, same]

theorem isBehind_ofOption {v v' : Option Value} (h : Option.Rel (IsBehind front) v v') :
    IsBehind front (Grammar.ofOption v) (Grammar.ofOption v') := by
  cases h with
  | none => rfl
  | some hv => exact congrArg present hv

theorem isBehind_pair {v v' : Value × Value}
    (h : Correspondence.Pairs (IsBehind front) (IsBehind front) v v') :
    IsBehind front (.pair v.1 v.2) (.pair v'.1 v'.2) := by
  rw [IsBehind, behind, h.1, h.2]

theorem isBehind_toPair {v v' : Value} (h : IsBehind front v v') :
    Correspondence.Pairs (IsBehind front) (IsBehind front) v.toPair v'.toPair := by
  subst h
  cases v <;> exact ⟨rfl, rfl⟩

theorem isBehind_located {v v' : Value × Span}
    (h : Correspondence.Pairs (IsBehind front) (fun s s' => s' = s.behind front) v v') :
    IsBehind front (.located v.1 v.2) (.located v'.1 v'.2) := by
  rw [IsBehind, behind, h.1, h.2]

end Value

/-! ## Rules -/

namespace Correspondence

variable {α : Type} {R : α → α → Prop}

/-- A rule may be built with more known of the stores than there is to be known behind it. -/
theorem parsers_deferred {C C' : Correspondence} {kind : RuleKind} {rule rule' : NodeId}
    {label : String} {body body' : Run (Match α)} (h : C'.Runs (Matches C'.front R) body body')
    (front : C'.front = C.front)
    (build : ∀ s s', C.stores s s' →
      C'.stores (s.afterBuild kind rule label) (s'.afterBuild kind rule' label))
    (forget : ∀ s s', C'.stores s s' → C.stores s s') :
    C.Parsers R (Parser.deferred kind rule label body)
      (Parser.deferred kind rule' label body') := by
  refine ⟨rfl, fun s s' hs => ?_⟩
  rw [Parser.deferred_run, Parser.deferred_run]
  have outcomes := h ⟨s.reader, s.store.afterBuild kind rule label⟩
    ⟨s'.reader, s'.store.afterBuild kind rule' label⟩ ⟨front ▸ hs.reader, build _ _ hs.store⟩
  rw [front] at outcomes
  generalize body _ = o at outcomes ⊢
  generalize body' _ = o' at outcomes ⊢
  cases outcomes with
  | ok hm ht => exact .ok hm ⟨front ▸ ht.reader, forget _ _ ht.store⟩
  | failed hf ht => exact .failed (front ▸ hf) ⟨front ▸ ht.reader, forget _ _ ht.store⟩
  | halted => exact .halted

/-- References correspond if their rules are there or gone at the same time. -/
theorem parsers_reference {C : Correspondence} {rule rule' : NodeId} (label : String)
    {enter enter' : Run (Match α)}
    (available : ∀ s s', C.stores s s' → s'.isAvailable rule' = s.isAvailable rule)
    (h : C.Runs (Matches C.front R) enter enter') :
    C.Parsers R (Parser.reference rule label enter) (Parser.reference rule' label enter') := by
  refine ⟨rfl, fun s s' hs => ?_⟩
  rw [Parser.reference_run, Parser.reference_run, available _ _ hs.store]
  split
  · exact h s s' hs
  · exact runs_unavailable label s s' hs

end Correspondence

/-- What is known of two stores, given rules that are known to be built in both. -/
structure StoreRelation where
  holds : List NodeId → Store → Store → Prop
  emit {known : List NodeId} {s s' : Store} (e e' : Event) : holds known s s' →
    holds known (s.emit e) (s'.emit e')
  build {known : List NodeId} {s s' : Store} (kind : RuleKind) (rule : NodeId) (label : String) :
    holds known s s' →
      holds (rule :: known) (s.afterBuild kind rule label) (s'.afterBuild kind rule label)
  forget {known : List NodeId} {s s' : Store} {rule : NodeId} : holds (rule :: known) s s' →
    holds known s s'
  available {known : List NodeId} {s s' : Store} {rule : NodeId} : holds known s s' →
    rule ∈ known → s'.isAvailable rule = s.isAvailable rule

def StoreRelation.correspondence (W : StoreRelation) (front : Text) (known : List NodeId) :
    Correspondence :=
  ⟨front, W.holds known, W.emit⟩

/-! ## One node -/

namespace Grammar

open Correspondence Value

variable {run run' : Rule → Scope → Run (Match Value)} {scope scope' : Scope}
variable {node node' : NodeId} {e : Grammar → Grammar}

theorem forall₂_parsers {Q : Parser Value → Parser Value → Prop} (i : Nat) {gs : List Grammar}
    (h : ∀ j g, gs[j]? = some g →
      Q (parser run scope ((i + j) :: node) g) (parser run' scope' ((i + j) :: node') (e g))) :
    List.Forall₂ Q (parsers run scope node i gs) (parsers run' scope' node' i (gs.map e)) := by
  induction gs generalizing i with
  | nil => exact .nil
  | cons g gs ih =>
    refine .cons (h 0 g rfl) (ih (i + 1) fun j a at_j => ?_)
    rw [Nat.add_right_comm]
    exact h (j + 1) a at_j

/-- One case for each kind of node. Its branches may be others on the other side, as long as they
correspond. -/
theorem parsers_mapParts {C : Correspondence} {g : Grammar} (combines : g.Combines)
    (respects : g.Respects C.front)
    (branch : ∀ i h, g.parts[i]? = some h → C.Parsers (IsBehind C.front)
      (parser run scope (i :: node) h) (parser run' scope' (i :: node') (e h))) :
    C.Parsers (IsBehind C.front) (parser run scope node g)
      (parser run' scope' node' (g.mapParts e)) := by
  have branches : List.Forall₂ (C.Parsers (IsBehind C.front))
      (parsers run scope node 0 g.parts) (parsers run' scope' node' 0 (g.parts.map e)) :=
    forall₂_parsers 0 fun j h at_j => by rw [Nat.zero_add]; exact branch j h at_j
  cases g with
  | codePoint label c => exact parsers_recast (parsers_codePoint label c) fun _ _ h => h ▸ rfl
  | literal label text => exact parsers_recast (parsers_literal label text) fun _ _ h => h ▸ rfl
  | literalIgnoringCase label text =>
    exact parsers_recast (parsers_literalIgnoringCase label text) fun _ _ h => h ▸ rfl
  | oneOf label chars => exact parsers_recast (parsers_oneWhere _ _ _ _) fun _ _ h => h ▸ rfl
  | noneOf label chars => exact parsers_recast (parsers_oneWhere _ _ _ _) fun _ _ h => h ▸ rfl
  | satisfy label accepts => exact parsers_recast (parsers_oneWhere _ _ _ _) fun _ _ h => h ▸ rfl
  | takeWhile label accepts =>
    exact parsers_recast (parsers_takeWhile label accepts) fun _ _ h => h ▸ rfl
  | endOfInput => exact parsers_recast parsers_endOfInput fun _ _ _ => rfl
  | choice label gs => exact parsers_choice label branches
  | either a b => exact parsers_either (branch 0 a rfl) (branch 1 b rfl)
  | allOf label gs => exact parsers_allOf label branches
  | inOrder label gs => exact parsers_inOrder label branches
  | andThen a b =>
    exact parsers_recast (parsers_andThen (branch 0 a rfl) (branch 1 b rfl))
      fun _ _ h => isBehind_pair h
  | fst pair =>
    exact parsers_fst (parsers_recast (branch 0 pair rfl) fun _ _ h => isBehind_toPair h)
  | snd pair =>
    exact parsers_snd (parsers_recast (branch 0 pair rfl) fun _ _ h => isBehind_toPair h)
  | many item =>
    exact parsers_recast (parsers_many (branch 0 item rfl)) fun _ _ h => isBehind_list h
  | many1 item =>
    exact parsers_recast (parsers_many1 (branch 0 item rfl)) fun _ _ h => isBehind_list h
  | optional part =>
    exact parsers_recast (parsers_optional (branch 0 part rfl)) fun _ _ h => isBehind_ofOption h
  | notAhead label part =>
    have sameLabel : (parser run' scope' (0 :: node') (e part)).notAheadLabel =
        (parser run scope (0 :: node) part).notAheadLabel := by
      rw [Parser.notAheadLabel, Parser.notAheadLabel, (branch 0 part rfl).label]
    rw [mapParts, parser, parser, sameLabel]
    exact parsers_recast (parsers_notAhead _ (branch 0 part rfl)) fun _ _ _ => rfl
  | attempt part => exact parsers_attempt (branch 0 part rfl)
  | map f part =>
    refine parsers_map (branch 0 part rfl) ?_
    rintro v _ rfl
    exact respects v
  | filter label accepts part =>
    refine parsers_filter label (branch 0 part rfl) ?_
    rintro v _ rfl
    exact respects v
  | withSpan part =>
    exact parsers_recast (parsers_withSpan (branch 0 part rfl)) fun _ _ h => isBehind_located h
  | lexeme part => exact parsers_lexeme (branch 0 part rfl)
  | traced name part => exact parsers_traced node node' name name (branch 0 part rfl)
  | between opening content closing =>
    exact parsers_between (branch 0 opening rfl) (branch 1 content rfl) (branch 2 closing rfl)
  | sepBy item delimiter =>
    exact parsers_recast (parsers_sepBy (branch 0 item rfl) (branch 1 delimiter rfl))
      fun _ _ h => isBehind_list h
  | manyTill item ending =>
    exact parsers_recast (parsers_manyTill (branch 0 item rfl) (branch 1 ending rfl))
      fun _ _ h => isBehind_list h
  | chainLeft combine operand operator =>
    refine parsers_chainLeft (branch 0 operand rfl) (parsers_recast (branch 1 operator rfl) ?_)
    rintro op _ rfl left _ right _ rfl rfl
    exact respects op left right
  | chainRight combine operand operator =>
    refine parsers_chainRight (branch 0 operand rfl) (parsers_recast (branch 1 operator rfl) ?_)
    rintro op _ rfl left _ right _ rfl rfl
    exact respects op left right
  | «alias» part => exact branch 0 part rfl
  | labelled label part => exact parsers_labelled label (branch 0 part rfl)
  | «lazy» | recursive | reference | custom => exact combines.elim

end Grammar

/-! ## All of a grammar -/

namespace StoreRelation

open Correspondence Grammar Value

variable {W : StoreRelation} {front : Text} {P : Grammar → Prop} {g : Grammar} {scope : Scope}
variable {known : List NodeId}

/-- One case for each kind of node, as in a single run. The rules around the node are built. -/
theorem parsers_node {run : Rule → Scope → Run (Match Value)}
    (respects : ∀ g, P g → g.Respects front)
    (leaves : ∀ known p, P (.custom p) →
      (W.correspondence front known).Parsers (IsBehind front) p p)
    (bodies : ∀ known (rule : Rule) (outer : Scope), rule.body.Everywhere P → InScope P outer →
      (∀ r ∈ rule :: outer, r.node ∈ known) → (W.correspondence front known).Runs
        (Matches front (IsBehind front)) (run rule outer) (run rule outer))
    (hg : g.Everywhere P) (hscope : InScope P scope) (built : ∀ r ∈ scope, r.node ∈ known)
    (node : NodeId) :
    (W.correspondence front known).Parsers (IsBehind front) (parser run scope node g)
      (parser run scope node g) := by
  induction hg generalizing scope known node with
  | node here below ih =>
    rename_i g
    have branch : ∀ i h, g.parts[i]? = some h → (W.correspondence front known).Parsers
        (IsBehind front) (parser run scope (i :: node) h) (parser run scope (i :: node) h) :=
      fun i h at_i => ih h (List.mem_of_getElem? at_i) hscope built (i :: node)
    have combined (combines : g.Combines) : (W.correspondence front known).Parsers
        (IsBehind front) (parser run scope node g) (parser run scope node g) := by
      have same := parsers_mapParts (e := id) combines (respects g here) branch
      rwa [mapParts_id] at same
    cases g with
    | «lazy» label body =>
      have within : ∀ r ∈ scope, r.node ∈ node :: known := fun r hr =>
        List.mem_cons_of_mem node (built r hr)
      exact parsers_deferred (ih body List.mem_cons_self hscope within (0 :: node)).runs rfl
        (fun _ _ => W.build .lazy node label) fun _ _ => W.forget
    | recursive label body =>
      have inScope : InScope P (⟨label, node, body⟩ :: scope) :=
        hscope.cons (below body List.mem_cons_self)
      have within : ∀ r ∈ (⟨label, node, body⟩ : Rule) :: scope, r.node ∈ node :: known := by
        rw [List.forall_mem_cons]
        exact ⟨List.mem_cons_self, fun r hr => List.mem_cons_of_mem node (built r hr)⟩
      exact parsers_deferred (ih body List.mem_cons_self inScope within (0 :: node)).runs rfl
        (fun _ _ => W.build .recursive node label) fun _ _ => W.forget
    | reference label =>
      rw [parser]
      split
      · rename_i rule outer found
        obtain ⟨body, outside⟩ := hscope.found found
        have within : ∀ r ∈ rule :: outer, r.node ∈ known := fun r hr =>
          built r (mem_of_found found r hr)
        have available := within rule List.mem_cons_self
        exact parsers_reference label (fun _ _ hs => W.available hs available)
          (bodies known rule outer body outside within)
      · exact ⟨rfl, runs_unavailable label⟩
    | custom p => exact leaves known p here
    | _ => exact combined trivial

/-- The bodies of rules correspond to themselves, to whatever depth rules are entered. -/
theorem runs_enter (respects : ∀ g, P g → g.Respects front)
    (leaves : ∀ known p, P (.custom p) →
      (W.correspondence front known).Parsers (IsBehind front) p p)
    (depth : Nat) (known : List NodeId) (rule : Rule) (outer : Scope)
    (body : rule.body.Everywhere P) (outside : InScope P outer)
    (built : ∀ r ∈ rule :: outer, r.node ∈ known) :
    (W.correspondence front known).Runs (Matches front (IsBehind front)) (enter depth rule outer)
      (enter depth rule outer) := by
  induction depth generalizing known rule outer with
  | zero => exact runs_exhaust
  | succ depth ih =>
    exact (parsers_node respects leaves ih body (outside.cons body) built (0 :: rule.node)).runs

theorem parsers_parserWithin (respects : ∀ g, P g → g.Respects front)
    (leaves : ∀ known p, P (.custom p) →
      (W.correspondence front known).Parsers (IsBehind front) p p)
    (hg : g.Everywhere P) (depth : Nat) (node : NodeId) :
    (W.correspondence front []).Parsers (IsBehind front) (g.parserWithin depth node)
      (g.parserWithin depth node) :=
  parsers_node respects leaves (runs_enter respects leaves depth) hg inScope_nil nofun node

theorem parsers_toParser (respects : ∀ g, P g → g.Respects front)
    (leaves : ∀ known p, P (.custom p) →
      (W.correspondence front known).Parsers (IsBehind front) p p)
    (hg : g.Everywhere P) (node : NodeId) :
    (W.correspondence front []).Parsers (IsBehind front) (g.toParser node) (g.toParser node) := by
  refine ⟨rfl, fun s s' hs => ?_⟩
  have sameDepth : g.depthFor s'.reader.bytesLeft = g.depthFor s.reader.bytesLeft := by
    rw [hs.reader, Reader.bytesLeft_behind]
  rw [toParser]
  dsimp only
  rw [sameDepth]
  exact (parsers_parserWithin respects leaves hg _ node).runs s s' hs

end StoreRelation

end RecursiveDescent
