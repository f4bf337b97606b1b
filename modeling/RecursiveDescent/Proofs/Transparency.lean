import RecursiveDescent.Proofs.Apart

/-!
# Grammars without wrappers

A traced part and an alias hold one part, under the label of that part. A grammar and what is left
of it without them have the same labels all over, and their runs end alike wherever they begin. The
nodes of the two grammars are not the same, but they stand for each other in pairs, and so do the
rules that are built.
-/
namespace RecursiveDescent

namespace Grammar

mutual

/-- Each traced part and each alias gives way to what it holds. -/
def unwrapped : Grammar → Grammar
  | .traced _ g | .alias g => unwrapped g
  | .choice label gs => .choice label (unwrappedAll gs)
  | .allOf label gs => .allOf label (unwrappedAll gs)
  | .inOrder label gs => .inOrder label (unwrappedAll gs)
  | .either a b => .either (unwrapped a) (unwrapped b)
  | .andThen a b => .andThen (unwrapped a) (unwrapped b)
  | .fst g => .fst (unwrapped g)
  | .snd g => .snd (unwrapped g)
  | .many g => .many (unwrapped g)
  | .many1 g => .many1 (unwrapped g)
  | .optional g => .optional (unwrapped g)
  | .notAhead label g => .notAhead label (unwrapped g)
  | .attempt g => .attempt (unwrapped g)
  | .map f g => .map f (unwrapped g)
  | .filter label accepts g => .filter label accepts (unwrapped g)
  | .withSpan g => .withSpan (unwrapped g)
  | .lexeme g => .lexeme (unwrapped g)
  | .between a b c => .between (unwrapped a) (unwrapped b) (unwrapped c)
  | .sepBy a b => .sepBy (unwrapped a) (unwrapped b)
  | .manyTill a b => .manyTill (unwrapped a) (unwrapped b)
  | .chainLeft combine a b => .chainLeft combine (unwrapped a) (unwrapped b)
  | .chainRight combine a b => .chainRight combine (unwrapped a) (unwrapped b)
  | .lazy label g => .lazy label (unwrapped g)
  | .recursive label g => .recursive label (unwrapped g)
  | .labelled label g => .labelled label (unwrapped g)
  | .codePoint label c => .codePoint label c
  | .literal label text => .literal label text
  | .literalIgnoringCase label text => .literalIgnoringCase label text
  | .oneOf label chars => .oneOf label chars
  | .noneOf label chars => .noneOf label chars
  | .satisfy label accepts => .satisfy label accepts
  | .takeWhile label accepts => .takeWhile label accepts
  | .endOfInput => .endOfInput
  | .reference label => .reference label
  | .custom p => .custom p

def unwrappedAll : List Grammar → List Grammar
  | [] => []
  | g :: gs => unwrapped g :: unwrappedAll gs

end

def IsWrapper : Grammar → Prop
  | .traced _ _ | .alias _ => True
  | _ => False

def Bare : Grammar → Prop :=
  Everywhere fun g => ¬g.IsWrapper

variable {P : Grammar → Prop} {g : Grammar}

theorem unwrappedAll_eq_map (gs : List Grammar) : unwrappedAll gs = gs.map unwrapped := by
  induction gs with
  | nil => rfl
  | cons g gs ih => rw [unwrappedAll, ih, List.map_cons]

/-- A node that is no wrapper stays, with its parts unwrapped. -/
theorem unwrapped_eq_mapParts (h : ¬g.IsWrapper) : g.unwrapped = g.mapParts unwrapped := by
  cases g with
  | traced | «alias» => exact absurd trivial h
  | choice _ gs | allOf _ gs | inOrder _ gs => rw [unwrapped, unwrappedAll_eq_map, mapParts]
  | _ => rfl

/-- No wrapper is left anywhere. -/
theorem Everywhere.unwrapped_bare (hg : g.Everywhere P) : g.unwrapped.Bare := by
  induction hg with
  | node here below ih =>
    rename_i g
    have mapped (h : ¬g.IsWrapper) : g.unwrapped.Bare := by
      rw [unwrapped_eq_mapParts h]
      refine .node ?_ ?_
      · cases g <;> exact h
      · rw [parts_mapParts, List.forall_mem_map]
        exact ih
    cases g with
    | traced name part => exact ih part List.mem_cons_self
    | «alias» part => exact ih part List.mem_cons_self
    | _ => exact mapped id

/-- There are as many rules without the wrappers, so the depth is the same. -/
theorem Everywhere.recursiveRules_unwrapped (hg : g.Everywhere P) :
    g.unwrapped.recursiveRules = g.recursiveRules := by
  induction hg with
  | node here below ih =>
    rename_i g
    have all : ∀ gs : List Grammar, (∀ h ∈ gs, h.unwrapped.recursiveRules = h.recursiveRules) →
        recursiveRulesIn (unwrappedAll gs) = recursiveRulesIn gs := by
      intro gs same
      induction gs with
      | nil => rfl
      | cons h gs ih =>
        rw [List.forall_mem_cons] at same
        rw [unwrappedAll, recursiveRulesIn, recursiveRulesIn, same.1, ih same.2]
    cases g <;> simp_all [unwrapped, recursiveRules, parts]

end Grammar

/-! ## Rules with and without wrappers -/

/-- Nothing was dropped, and of each pair the first is built in one store, the second in the
other. -/
def Correspondence.inPairs (pairs : List (NodeId × NodeId)) : Correspondence where
  front := []
  stores s s' := s.dropped = [] ∧ s'.dropped = [] ∧
    ∀ pair ∈ pairs, s.isBuilt pair.1 = true ∧ s'.isBuilt pair.2 = true
  emit _ _ h := h

/-- The second rule is the first one without wrappers, and they are built in both stores. -/
structure Rule.Unwraps (pairs : List (NodeId × NodeId)) (rule rule' : Rule) : Prop where
  label : rule'.label = rule.label
  body : rule'.body = rule.body.unwrapped
  blind : rule.body.StoreBlind
  built : (rule.node, rule'.node) ∈ pairs

namespace Correspondence

variable {α : Type} {pairs : List (NodeId × NodeId)} {s s' : Store} {rule rule' : NodeId}

theorem stores_afterBuild (kind : RuleKind) (label : String) (h : (inPairs pairs).stores s s') :
    (inPairs ((rule, rule') :: pairs)).stores (s.afterBuild kind rule label)
      (s'.afterBuild kind rule' label) := by
  obtain ⟨undropped, undropped', built⟩ := h
  refine ⟨(Store.dropped_afterBuild ..).trans undropped,
    (Store.dropped_afterBuild ..).trans undropped', List.forall_mem_cons.mpr ⟨?_, ?_⟩⟩
  · exact ⟨Store.isBuilt_afterBuild .., Store.isBuilt_afterBuild ..⟩
  · intro pair known
    exact ⟨Store.isBuilt_of_afterBuild (built pair known).1 kind label,
      Store.isBuilt_of_afterBuild (built pair known).2 kind label⟩

/-- What is known of a further rule can be forgotten. -/
theorem stores_forget {pair : NodeId × NodeId} (h : (inPairs (pair :: pairs)).stores s s') :
    (inPairs pairs).stores s s' :=
  ⟨h.1, h.2.1, fun other known => h.2.2 other (List.mem_cons_of_mem pair known)⟩

theorem isAvailable_of_stores (h : (inPairs pairs).stores s s') (known : (rule, rule') ∈ pairs) :
    s'.isAvailable rule' = s.isAvailable rule := by
  rw [Store.isAvailable_of_isBuilt h.1 (h.2.2 _ known).1,
    Store.isAvailable_of_isBuilt h.2.1 (h.2.2 _ known).2]

/-- What is traced on one side only is seen in the log of that side only. -/
theorem parsers_traced_left {R : α → α → Prop} (node : NodeId) (name : String)
    {p p' : Parser α} (h : (inPairs pairs).Parsers R p p') :
    (inPairs pairs).Parsers R (Parser.traced node name p) p' := by
  refine ⟨h.label, fun s s' hs => ?_⟩
  rw [Parser.traced_run]
  have outcomes := h.runs ⟨s.reader, s.store.emit (.trying node name s.reader.position)⟩ s'
    ⟨hs.reader, hs.store⟩
  generalize p.run _ = o at outcomes ⊢
  generalize p'.run _ = o' at outcomes ⊢
  cases outcomes with
  | ok hm ht => exact .ok hm ⟨ht.reader, ht.store⟩
  | failed hf ht => exact .failed hf ⟨ht.reader, ht.store⟩
  | halted => exact .halted

end Correspondence

namespace Grammar

open Correspondence

variable {g : Grammar} {pairs : List (NodeId × NodeId)} {scope scope' : Scope}

theorem forall₂_unwraps_cons (pair : NodeId × NodeId)
    (h : List.Forall₂ (Rule.Unwraps pairs) scope scope') :
    List.Forall₂ (Rule.Unwraps (pair :: pairs)) scope scope' :=
  h.imp fun _ _ rules => { rules with built := List.mem_cons_of_mem pair rules.built }

/-- A reference finds rules that stand for each other. -/
theorem forall₂_unwraps_dropWhile (label : String)
    (h : List.Forall₂ (Rule.Unwraps pairs) scope scope') :
    List.Forall₂ (Rule.Unwraps pairs) (scope.dropWhile (·.label != label))
      (scope'.dropWhile (·.label != label)) := by
  induction h with
  | nil => exact .nil
  | cons rules rest ih =>
    rw [List.dropWhile_cons, List.dropWhile_cons, rules.label]
    split
    · exact ih
    · exact .cons rules rest

/-- One case for each kind of node; a wrapper corresponds to what is within it. -/
theorem parsers_unwrapped {run : Rule → Scope → Run (Match Value)}
    (bodies : ∀ pairs rule rule' outer outer', Rule.Unwraps pairs rule rule' →
      List.Forall₂ (Rule.Unwraps pairs) outer outer' → (inPairs pairs).Runs
        (Matches [] (Value.IsBehind [])) (run rule outer) (run rule' outer'))
    (hg : g.StoreBlind) (rules : List.Forall₂ (Rule.Unwraps pairs) scope scope')
    (node node' : NodeId) :
    (inPairs pairs).Parsers (Value.IsBehind []) (parser run scope node g)
      (parser run scope' node' g.unwrapped) := by
  induction hg generalizing pairs scope scope' node node' with
  | node here below ih =>
    rename_i g
    have combined (combines : g.Combines) (bare : ¬g.IsWrapper) :
        (inPairs pairs).Parsers (Value.IsBehind []) (parser run scope node g)
          (parser run scope' node' g.unwrapped) := by
      rw [unwrapped_eq_mapParts bare]
      exact parsers_mapParts combines g.respects_nil fun i h at_i =>
        ih h (List.mem_of_getElem? at_i) rules (i :: node) (i :: node')
    cases g with
    -- a wrapper has a branch and what is left of it has none, so the nodes get out of step
    | traced name part =>
      exact parsers_traced_left node name (ih part List.mem_cons_self rules (0 :: node) node')
    | «alias» part => exact ih part List.mem_cons_self rules (0 :: node) node'
    | «lazy» label body =>
      have within := forall₂_unwraps_cons (node, node') rules
      exact parsers_deferred (ih body List.mem_cons_self within (0 :: node) (0 :: node')).runs rfl
        (fun _ _ => stores_afterBuild .lazy label) fun _ _ => stores_forget
    | recursive label body =>
      have within : List.Forall₂ (Rule.Unwraps ((node, node') :: pairs))
          (⟨label, node, body⟩ :: scope) (⟨label, node', body.unwrapped⟩ :: scope') :=
        .cons ⟨rfl, rfl, below body List.mem_cons_self, List.mem_cons_self⟩
          (forall₂_unwraps_cons (node, node') rules)
      exact parsers_deferred (ih body List.mem_cons_self within (0 :: node) (0 :: node')).runs rfl
        (fun _ _ => stores_afterBuild .recursive label) fun _ _ => stores_forget
    | reference label =>
      rw [unwrapped, parser, parser]
      have found := forall₂_unwraps_dropWhile label rules
      generalize scope.dropWhile _ = inner at found ⊢
      generalize scope'.dropWhile _ = inner' at found ⊢
      cases found with
      | nil => exact ⟨rfl, runs_unavailable label⟩
      | cons here outside =>
        exact parsers_reference label (fun _ _ hs => isAvailable_of_stores hs here.built)
          (bodies _ _ _ _ _ here outside)
    | custom p => exact (here p rfl).parsers rfl
    | _ => exact combined trivial id

theorem runs_enter_unwrapped (depth : Nat) (pairs : List (NodeId × NodeId)) (rule rule' : Rule)
    (outer outer' : Scope) (here : Rule.Unwraps pairs rule rule')
    (outside : List.Forall₂ (Rule.Unwraps pairs) outer outer') :
    (inPairs pairs).Runs (Matches [] (Value.IsBehind [])) (enter depth rule outer)
      (enter depth rule' outer') := by
  induction depth generalizing pairs rule rule' outer outer' with
  | zero => exact runs_exhaust
  | succ depth ih =>
    rw [enter, enter, here.body]
    exact (parsers_unwrapped ih here.blind (.cons here outside) (0 :: rule.node)
      (0 :: rule'.node)).runs

end Grammar

/-! ## Parsers with and without wrappers -/

/-- The same label, and runs that end alike from each place, whatever was built before. -/
structure Parser.Alike (p p' : Parser Value) : Prop where
  label : p'.label = p.label
  runs : ∀ (r : Reader) (store store' : Store), store.dropped = [] → store'.dropped = [] →
    (p.run ⟨r, store⟩).Alike (p'.run ⟨r, store'⟩)

namespace Grammar

open Correspondence

variable {g : Grammar}

theorem StoreBlind.alike_parserWithin (hg : g.StoreBlind) (depth : Nat) (node node' : NodeId) :
    (g.parserWithin depth node).Alike (g.unwrapped.parserWithin depth node') := by
  have corresponds : (inPairs []).Parsers (Value.IsBehind []) (g.parserWithin depth node)
      (g.unwrapped.parserWithin depth node') :=
    parsers_unwrapped (runs_enter_unwrapped depth) hg .nil node node'
  refine ⟨corresponds.label, fun r store store' undropped undropped' => ?_⟩
  exact Parser.alike_of_outcomes rfl
    (corresponds.runs ⟨r, store⟩ ⟨r, store'⟩ ⟨rfl, undropped, undropped', nofun⟩)

/-- A grammar does the same without its wrappers, wherever it is run, and is called the same. -/
theorem storeBlind_alike_unwrapped (hg : g.StoreBlind) (node node' : NodeId) :
    g.unwrapped.Bare ∧
      (∀ depth, (g.parserWithin depth node).Alike (g.unwrapped.parserWithin depth node')) ∧
      (g.toParser node).Alike (g.unwrapped.toParser node') := by
  refine ⟨hg.unwrapped_bare, fun depth => hg.alike_parserWithin depth node node', ?_⟩
  refine ⟨(hg.alike_parserWithin 0 node node').label, fun r store store' undropped undropped' => ?_⟩
  have sameDepth : g.unwrapped.depthFor r.bytesLeft = g.depthFor r.bytesLeft := by
    rw [depthFor, depthFor, hg.recursiveRules_unwrapped]
  rw [toParser, toParser]
  dsimp only
  rw [sameDepth]
  exact (hg.alike_parserWithin _ node node').runs r store store' undropped undropped'

def wrappedLists : Grammar :=
  .recursive "list" (.traced "list" (.either
    (.between (.codePoint "(" '(')
      (.lazy "items" (.alias (.many1 (.traced "item" (.alias (.reference "list"))))))
      (.alias (.leaky ")" 1)))
    (.traced "leaf" (.handmade "leaf" 1 .reversed))))

theorem wrappedLists_storeBlind : wrappedLists.StoreBlind := by
  have opening : (Grammar.codePoint "(" '(').StoreBlind := .leaf nofun rfl
  have inner : (Grammar.reference "list").StoreBlind := .leaf nofun rfl
  have item : (Grammar.traced "item" (.alias (.reference "list"))).StoreBlind :=
    .unary nofun rfl (.unary nofun rfl inner)
  have items : (Grammar.lazy "items" (.alias (.many1 (.traced "item"
      (.alias (.reference "list")))))).StoreBlind :=
    .unary nofun rfl (.unary nofun rfl (.unary nofun rfl item))
  have closing : (Grammar.alias (.leaky ")" 1)).StoreBlind :=
    .unary nofun rfl (leaky_storeBlind _ _)
  have leaf : (Grammar.traced "leaf" (.handmade "leaf" 1 .reversed)).StoreBlind :=
    .unary nofun rfl (handmade_storeBlind _ _ _)
  exact .unary nofun rfl (.unary nofun rfl
    (.binary nofun rfl (.ternary nofun rfl opening items closing) leaf))

theorem wrappedLists_alike :
    wrappedLists.StoreBlind ∧
      wrappedLists.unwrapped = .recursive "list" (.either
        (.between (.codePoint "(" '(') (.lazy "items" (.many1 (.reference "list")))
          (.leaky ")" 1))
        (.handmade "leaf" 1 .reversed)) ∧
      (wrappedLists.toParser []).Alike (wrappedLists.unwrapped.toParser []) :=
  ⟨wrappedLists_storeBlind, rfl, (storeBlind_alike_unwrapped wrappedLists_storeBlind [] []).2.2⟩

end Grammar

end RecursiveDescent
