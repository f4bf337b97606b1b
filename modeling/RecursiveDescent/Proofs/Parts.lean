import RecursiveDescent.Grammar.Parser

/-!
# Parts of grammars

What is asked of a grammar is asked of each of its nodes. A node is reached through its branches,
or by a reference, which enters the body of a rule around it.
-/
namespace RecursiveDescent.Grammar

def parts : Grammar → List Grammar
  | .fst g | .snd g | .many g | .many1 g | .optional g | .notAhead _ g | .attempt g | .map _ g
  | .filter _ _ g | .withSpan g | .lexeme g | .traced _ g | .lazy _ g | .recursive _ g | .alias g
  | .labelled _ g => [g]
  | .either a b | .andThen a b | .sepBy a b | .manyTill a b | .chainLeft _ a b
  | .chainRight _ a b => [a, b]
  | .between a b c => [a, b, c]
  | .choice _ gs | .allOf _ gs | .inOrder _ gs => gs
  | .codePoint _ _ | .literal _ _ | .literalIgnoringCase _ _ | .oneOf _ _ | .noneOf _ _
  | .satisfy _ _ | .takeWhile _ _ | .endOfInput | .reference _ | .custom _ => []

/-- The same node with other branches, each made of the one in its place. -/
def mapParts (e : Grammar → Grammar) : Grammar → Grammar
  | .choice label gs => .choice label (gs.map e)
  | .allOf label gs => .allOf label (gs.map e)
  | .inOrder label gs => .inOrder label (gs.map e)
  | .either a b => .either (e a) (e b)
  | .andThen a b => .andThen (e a) (e b)
  | .fst g => .fst (e g)
  | .snd g => .snd (e g)
  | .many g => .many (e g)
  | .many1 g => .many1 (e g)
  | .optional g => .optional (e g)
  | .notAhead label g => .notAhead label (e g)
  | .attempt g => .attempt (e g)
  | .map f g => .map f (e g)
  | .filter label accepts g => .filter label accepts (e g)
  | .withSpan g => .withSpan (e g)
  | .lexeme g => .lexeme (e g)
  | .traced name g => .traced name (e g)
  | .between a b c => .between (e a) (e b) (e c)
  | .sepBy a b => .sepBy (e a) (e b)
  | .manyTill a b => .manyTill (e a) (e b)
  | .chainLeft combine a b => .chainLeft combine (e a) (e b)
  | .chainRight combine a b => .chainRight combine (e a) (e b)
  | .lazy label g => .lazy label (e g)
  | .recursive label g => .recursive label (e g)
  | .alias g => .alias (e g)
  | .labelled label g => .labelled label (e g)
  | g => g

/-- The node runs by its branches alone: it is no rule, no reference, and no parser of one's own. -/
def Combines : Grammar → Prop
  | .lazy _ _ | .recursive _ _ | .reference _ | .custom _ => False
  | _ => True

inductive Everywhere (P : Grammar → Prop) : Grammar → Prop
  | node {g : Grammar} : P g → (∀ part ∈ g.parts, Everywhere P part) → Everywhere P g

inductive Occurs (part : Grammar) : Grammar → Prop
  | here : Occurs part part
  | inside {g h : Grammar} : h ∈ g.parts → Occurs part h → Occurs part g

/-- No leaf is a parser of one's own. -/
def Plain : Grammar → Prop :=
  Everywhere fun g => ∀ p, g ≠ .custom p

def InScope (P : Grammar → Prop) (scope : Scope) : Prop :=
  ∀ rule ∈ scope, Everywhere P rule.body

variable {P : Grammar → Prop}

theorem mapParts_id (g : Grammar) : g.mapParts id = g := by
  cases g <;> simp [mapParts]

theorem parts_mapParts (e : Grammar → Grammar) (g : Grammar) :
    (g.mapParts e).parts = g.parts.map e := by
  cases g <;> rfl

/-- The grammar itself is one of its nodes. -/
theorem Everywhere.here {g : Grammar} (h : g.Everywhere P) : P g := by
  cases h with
  | node here _ => exact here

theorem Everywhere.leaf {g : Grammar} (here : P g) (none : g.parts = []) : g.Everywhere P :=
  .node here (by simp [none])

theorem Everywhere.unary {g a : Grammar} (here : P g) (only : g.parts = [a])
    (ha : a.Everywhere P) : g.Everywhere P :=
  .node here (by simpa [only] using ha)

theorem Everywhere.binary {g a b : Grammar} (here : P g) (both : g.parts = [a, b])
    (ha : a.Everywhere P) (hb : b.Everywhere P) : g.Everywhere P :=
  .node here (by simpa [both] using ⟨ha, hb⟩)

theorem Everywhere.ternary {g a b c : Grammar} (here : P g) (all : g.parts = [a, b, c])
    (ha : a.Everywhere P) (hb : b.Everywhere P) (hc : c.Everywhere P) : g.Everywhere P :=
  .node here (by simpa [all] using ⟨ha, hb, hc⟩)

/-- What holds of all that occurs in a grammar can be asked of its nodes as well. -/
theorem Everywhere.and_of_occurs {Q : Grammar → Prop} {g : Grammar} (h : g.Everywhere P)
    (occurring : ∀ part : Grammar, part.Occurs g → Q part) :
    g.Everywhere fun part => P part ∧ Q part := by
  induction h with
  | node here _ ih =>
    exact .node ⟨here, occurring _ .here⟩ fun part mem =>
      ih part mem fun inner deep => occurring inner (.inside mem deep)

/-- There is no parser of one's own in a plain grammar. -/
theorem plain_leaf {Q : Parser Value → Prop} (p : Parser Value)
    (own : ∀ q, Grammar.custom p ≠ .custom q) : Q p :=
  absurd rfl (own p)

theorem inScope_nil : InScope P [] := by
  simp [InScope]

theorem InScope.cons {rule : Rule} {scope : Scope} (h : InScope P scope)
    (body : rule.body.Everywhere P) : InScope P (rule :: scope) :=
  List.forall_mem_cons.mpr ⟨body, h⟩

/-- A reference finds a rule with the rules around that, all of them around the reference too. -/
theorem mem_of_found {rule : Rule} {scope outer : Scope} {label : String}
    (found : scope.dropWhile (·.label != label) = rule :: outer) :
    ∀ r ∈ rule :: outer, r ∈ scope :=
  fun _ hr => (List.dropWhile_suffix _).subset (found ▸ hr)

/-- The rule that a reference finds, and the rules around that, are as the scope is. -/
theorem InScope.found {rule : Rule} {scope outer : Scope} (h : InScope P scope) {label : String}
    (found : scope.dropWhile (·.label != label) = rule :: outer) :
    rule.body.Everywhere P ∧ InScope P outer :=
  List.forall_mem_cons.mp fun r hr => h r (mem_of_found found r hr)

section Branches

variable {enter : Rule → Scope → Run (Match Value)} {scope : Scope} {node : NodeId}

theorem getElem?_parsers (i j : Nat) (gs : List Grammar) :
    (parsers enter scope node i gs)[j]? =
      (gs[j]?).map fun g => parser enter scope ((i + j) :: node) g := by
  induction gs generalizing i j with
  | nil => rfl
  | cons g gs ih =>
    rw [parsers]
    cases j with
    | zero => rfl
    | succ j =>
      rw [List.getElem?_cons_succ, List.getElem?_cons_succ, ih]
      simp only [Nat.add_assoc, Nat.add_comm 1]

theorem length_parsers (i : Nat) (gs : List Grammar) :
    (parsers enter scope node i gs).length = gs.length := by
  induction gs generalizing i with
  | nil => rfl
  | cons g gs ih => rw [parsers, List.length_cons, ih, List.length_cons]

/-- Each of the parsers is that of one of the branches. -/
theorem exists_getElem?_of_mem_parsers {gs : List Grammar} {p : Parser Value}
    (h : p ∈ parsers enter scope node 0 gs) :
    ∃ (i : Nat) (g : Grammar), gs[i]? = some g ∧ p = parser enter scope (i :: node) g := by
  obtain ⟨i, at_i⟩ := List.mem_iff_getElem?.mp h
  rw [getElem?_parsers, Nat.zero_add] at at_i
  obtain ⟨g, hg, rfl⟩ := Option.map_eq_some_iff.mp at_i
  exact ⟨i, g, hg, rfl⟩

theorem exists_of_mem_parsers {gs : List Grammar} {p : Parser Value}
    (h : p ∈ parsers enter scope node 0 gs) :
    ∃ i, ∃ g ∈ gs, p = parser enter scope (i :: node) g := by
  obtain ⟨i, g, at_i, rfl⟩ := exists_getElem?_of_mem_parsers h
  exact ⟨i, g, List.mem_of_getElem? at_i, rfl⟩

end Branches

/-! ## Labels -/

theorem label_reference (run : Rule → Scope → Run (Match Value)) (scope : Scope) (node : NodeId)
    (label : String) : (parser run scope node (.reference label)).label = label := by
  rw [parser]
  split <;> rfl

/-- Where and how a grammar is run has no part in its label. -/
theorem Everywhere.label_congr {g : Grammar} (h : g.Everywhere P)
    (run run' : Rule → Scope → Run (Match Value)) (scope scope' : Scope) (node node' : NodeId) :
    (parser run scope node g).label = (parser run' scope' node' g).label := by
  induction h generalizing node node' with
  | node here below ih =>
    rename_i g
    cases g with
    | either a b =>
      have ha := ih a (by simp [parts]) (0 :: node) (0 :: node')
      have hb := ih b (by simp [parts]) (1 :: node) (1 :: node')
      simp only [parser, Parser.either, Parser.choice, ha, hb]
    | andThen a b =>
      have ha := ih a (by simp [parts]) (0 :: node) (0 :: node')
      have hb := ih b (by simp [parts]) (1 :: node) (1 :: node')
      simp only [parser, Parser.recast, Parser.andThen, ha, hb]
    | sepBy a b | manyTill a b | chainLeft _ a b | chainRight _ a b =>
      have ha := ih a (by simp [parts]) (0 :: node) (0 :: node')
      have hb := ih b (by simp [parts]) (1 :: node) (1 :: node')
      simp only [parser, Parser.recast, Parser.sepBy, Parser.manyTill, Parser.chainLeft,
        Parser.chainRight, Parser.chainLabel, ha, hb]
    | between a b c =>
      have ha := ih a (by simp [parts]) (0 :: node) (0 :: node')
      have hb := ih b (by simp [parts]) (1 :: node) (1 :: node')
      have hc := ih c (by simp [parts]) (2 :: node) (2 :: node')
      simp only [parser, Parser.between, ha, hb, hc]
    | fst g | snd g | many g | many1 g | optional g | notAhead _ g | attempt g | map _ g
    | withSpan g | lexeme g | traced _ g | «alias» g =>
      have hg := ih g (by simp [parts]) (0 :: node) (0 :: node')
      simp only [parser, Parser.recast, Parser.fst, Parser.snd, Parser.many, Parser.many1,
        Parser.optional, Parser.notAhead, Parser.notAheadLabel, Parser.attempt, Parser.map,
        Parser.withSpan, Parser.lexeme, Parser.traced, hg]
    | reference label => rw [label_reference, label_reference]
    | codePoint | literal | literalIgnoringCase | oneOf | noneOf | satisfy | takeWhile
    | endOfInput =>
      simp only [parser, Parser.recast, Parser.codePoint, Parser.literal,
        Parser.literalIgnoringCase, Parser.oneOf, Parser.noneOf, Parser.satisfy, Parser.oneWhere,
        Parser.takeWhile, Parser.endOfInput]
    | choice | allOf | inOrder | filter | «lazy» | recursive | labelled | custom =>
      simp only [parser, Parser.choice, Parser.allOf, Parser.inOrder, Parser.filter,
        Parser.deferred, Parser.labelled]

def label (g : Grammar) : String :=
  (g.parserWithin 0 []).label

/-- What a parser is called hangs neither on the rules around nor on the node. -/
theorem Everywhere.parser_label {g : Grammar} (h : g.Everywhere P)
    (run : Rule → Scope → Run (Match Value)) (scope : Scope) (node : NodeId) :
    (parser run scope node g).label = g.label :=
  h.label_congr run (enter 0) scope [] node []

end RecursiveDescent.Grammar
