import Mathlib.Data.List.Nodup
import Mathlib.Data.List.Perm.Subperm
import RecursiveDescent.Proofs.RulesBuilt

/-!
# Parses apart from each other

Between two parses of one parser nothing is handed on but the rules that are built already. A parse
looks at them for two reasons: to build a rule that is not, and to enter one by reference, which by
then is built. So every parse ends as it would for itself, and what all of them build together is
each of the rules once at most.
-/
namespace RecursiveDescent

/-! ## A text with nothing in front -/

namespace Value

mutual

theorem behind_nil : (v : Value) → v.behind [] = v
  | .char _ | .text _ | .unit | .absent | .int _ => rfl
  | .present v => by rw [behind, behind_nil v]
  | .list vs => by rw [behind, listBehind_nil vs]
  | .pair l r => by rw [behind, behind_nil l, behind_nil r]
  | .located v s => by rw [behind, behind_nil v]; rfl
  | .operation op l r => by rw [behind, behind_nil op, behind_nil l, behind_nil r]

theorem listBehind_nil : (vs : List Value) → listBehind [] vs = vs
  | [] => rfl
  | v :: vs => by rw [listBehind, behind_nil v, listBehind_nil vs]

end

end Value

/-- Behind no text, nothing about a level is moved. -/
theorem Level.Behind.eq {l l' : Level} (h : l.Behind [] l') : l' = l := by
  have position : l'.position = l.position := h.position
  cases l
  cases l'
  simp only [mk.injEq]
  exact ⟨h.message, h.expected, h.found, position, h.lineText rfl⟩

theorem Failure.Behind.eq {f f' : Failure} (h : f.Behind [] f') : f' = f := by
  have same : f'.levels = f.levels := by
    refine (List.forall₂_eq_eq_eq ▸ ?_ : f.levels = f'.levels).symm
    exact h.imp fun _ _ same => same.eq.symm
  cases f
  cases f'
  simpa [levels] using same

theorem Grammar.respects_nil (g : Grammar) : g.Respects [] := by
  cases g <;> simp [Respects, Value.behind_nil]

/-! ## What two stores let a run do -/

/-- The outcomes tell the same, except for their stores. -/
inductive Outcome.Alike {α : Type} : Outcome α → Outcome α → Prop
  | ok {a : α} {r : Reader} {store store' : Store} : Alike (.ok a ⟨r, store⟩) (.ok a ⟨r, store'⟩)
  | failed {f : Failure} {r : Reader} {store store' : Store} :
    Alike (.failed f ⟨r, store⟩) (.failed f ⟨r, store'⟩)
  | halted {cause : Halt} {s s' : State} : Alike (.halted cause s) (.halted cause s')

namespace Store

variable {s : Store} {rule other : NodeId}

theorem dropped_afterBuild (s : Store) (kind : RuleKind) (rule : NodeId) (label : String) :
    (s.afterBuild kind rule label).dropped = s.dropped := by
  rw [afterBuild]
  split <;> rfl

theorem isBuilt_afterBuild (s : Store) (kind : RuleKind) (rule : NodeId) (label : String) :
    (s.afterBuild kind rule label).isBuilt rule = true := by
  rw [afterBuild]
  split
  · assumption
  · simp [isBuilt, markBuilt]

theorem isBuilt_of_afterBuild (h : s.isBuilt other = true) (kind : RuleKind) (label : String) :
    (s.afterBuild kind rule label).isBuilt other = true := by
  rw [afterBuild]
  split
  · exact h
  · have before : other ∈ s.built := by simpa [isBuilt] using h
    simp [isBuilt, markBuilt, emit, before]

theorem isAvailable_of_isBuilt (undropped : s.dropped = []) (h : s.isBuilt rule = true) :
    s.isAvailable rule = true := by
  rw [isAvailable, h, undropped]
  rfl

end Store

/-- Nothing was dropped, and the rules that are known to be built are. -/
def StoreRelation.bothBuilt : StoreRelation where
  holds known s s' := s.dropped = [] ∧ s'.dropped = [] ∧
    ∀ rule ∈ known, s.isBuilt rule = true ∧ s'.isBuilt rule = true
  emit _ _ h := h
  build {known s s'} kind rule label h := by
    obtain ⟨undropped, undropped', built⟩ := h
    rw [Store.dropped_afterBuild, Store.dropped_afterBuild, List.forall_mem_cons]
    refine ⟨undropped, undropped', ⟨s.isBuilt_afterBuild kind rule label,
      s'.isBuilt_afterBuild kind rule label⟩, fun other known => ?_⟩
    exact ⟨Store.isBuilt_of_afterBuild (built other known).1 kind label,
      Store.isBuilt_of_afterBuild (built other known).2 kind label⟩
  forget h := ⟨h.1, h.2.1, fun rule known => h.2.2 rule (List.mem_cons_of_mem _ known)⟩
  available {_ s s' rule} h known := by
    rw [Store.isAvailable_of_isBuilt h.1 (h.2.2 rule known).1,
      Store.isAvailable_of_isBuilt h.2.1 (h.2.2 rule known).2]

namespace Parser

open Correspondence StoreRelation

variable {p : Parser Value}

/-- A parser that does not look at the store corresponds to itself, where no text is put in front.
-/
theorem IgnoresStore.parsers {C : Correspondence} (none : C.front = []) (h : p.IgnoresStore) :
    C.Parsers (Value.IsBehind C.front) p p := by
  refine ⟨rfl, fun s s' hs => ?_⟩
  have here : s'.reader = s.reader := by rw [hs.reader, none]; rfl
  have run := h s.reader s.store
  have run' := h s.reader s'.store
  rw [← here] at run'
  change p.run s' = _ at run'
  change p.run s = _ at run
  rw [run, run', here, none]
  cases p.run ⟨s.reader, .empty⟩ with
  | ok m t =>
    exact .ok ⟨(Value.behind_nil m.value).symm, rfl⟩ ⟨by rw [none]; rfl, hs.store⟩
  | failed f t =>
    refine .failed ?_ ⟨by rw [none]; rfl, hs.store⟩
    rw [none]
    exact List.forall₂_same.mpr fun l _ => ⟨rfl, rfl, rfl, rfl, fun _ => rfl⟩
  | halted cause t => exact .halted

/-- With no text in front, corresponding outcomes are alike. -/
theorem alike_of_outcomes {C : Correspondence} (none : C.front = [])
    {o o' : Outcome (Match Value)}
    (h : C.Outcomes (Matches C.front (Value.IsBehind [])) o o') : o.Alike o' := by
  cases h with
  | ok hm ht =>
    rename_i m m' t t'
    have value : m'.value = m.value := hm.value.trans (Value.behind_nil m.value)
    have span : m'.span = m.span := by rw [hm.span, none]; rfl
    have reader : t'.reader = t.reader := by rw [ht.reader, none]; rfl
    cases m
    cases m'
    cases t
    cases t'
    subst value span reader
    exact .ok
  | failed hf ht =>
    rename_i f f' t t'
    rw [none] at hf
    have reader : t'.reader = t.reader := by rw [ht.reader, none]; rfl
    cases t
    cases t'
    subst reader
    exact hf.eq ▸ .failed
  | halted => exact .halted

/-- From stores in which nothing was dropped, runs from one place end alike. -/
theorem alike_of_undropped (h : (bothBuilt.correspondence [] []).Parsers (Value.IsBehind []) p p)
    (r : Reader) {store store' : Store} (undropped : store.dropped = [])
    (undropped' : store'.dropped = []) : (p.run ⟨r, store⟩).Alike (p.run ⟨r, store'⟩) :=
  alike_of_outcomes rfl (h.runs ⟨r, store⟩ ⟨r, store'⟩ ⟨rfl, undropped, undropped', nofun⟩)

def announcedIn (outcomes : List (Outcome (Match Value))) : List NodeId :=
  outcomes.flatMap fun o => o.state.store.announced

/-- Parses of one text after the other: each ends as it would for itself, and no more is built in
them together than each of `rules` once. -/
structure ParsesApart (p : Parser Value) (rules : List NodeId) (inputs : List Text) : Prop where
  alone : List.Forall₂ Outcome.Alike (p.parseAll .empty inputs) (inputs.map p.parse)
  builtOnce : (announcedIn (p.parseAll .empty inputs)).Nodup
  atMost : (announcedIn (p.parseAll .empty inputs)).length ≤ rules.length

variable {rules : List NodeId} {store : Store}

/-- From any store on, the parses of a list go as they do from an empty one. -/
theorem alike_parseAll (grows : p.run.Grows rules)
    (alike : ∀ r store store', store.dropped = [] → store'.dropped = [] →
      (p.run ⟨r, store⟩).Alike (p.run ⟨r, store'⟩))
    (undropped : store.dropped = []) (inputs : List Text) :
    List.Forall₂ Outcome.Alike (p.parseAll store inputs) (inputs.map p.parse) := by
  induction inputs generalizing store with
  | nil => exact .nil
  | cons input inputs ih =>
    have grown := grows ⟨Reader.start input, store.clearLog⟩
    exact .cons (alike _ _ _ undropped rfl) (ih (grown.1.trans undropped))

/-- What is announced in one parse was not built in those before it. -/
theorem announcedIn_parseAll (grows : p.run.Grows rules) (store : Store) (inputs : List Text) :
    (announcedIn (p.parseAll store inputs)).Nodup ∧
      ∀ rule ∈ announcedIn (p.parseAll store inputs), rule ∈ rules ∧ rule ∉ store.built := by
  induction inputs generalizing store with
  | nil => exact ⟨.nil, nofun⟩
  | cons input inputs ih =>
    obtain ⟨-, new, builds, among⟩ := grows ⟨Reader.start input, store.clearLog⟩
    generalize hrun : p.run ⟨Reader.start input, store.clearLog⟩ = o at builds
    have first : o.state.store.announced = new.reverse := builds.announced
    have after : o.state.store.built = new ++ store.built := builds.built
    obtain ⟨once, later⟩ := ih o.state.store
    have all : announcedIn (p.parseAll store (input :: inputs)) =
        new.reverse ++ announcedIn (p.parseAll o.state.store inputs) := by
      rw [← first, ← hrun]
      rfl
    rw [all]
    constructor
    · refine List.nodup_append.mpr ⟨List.nodup_reverse.mpr builds.once, once, ?_⟩
      rintro rule now _ again rfl
      refine (later rule again).2 ?_
      rw [after]
      exact List.mem_append_left _ (List.mem_reverse.mp now)
    · intro rule built
      rcases List.mem_append.mp built with now | again
      · have now := List.mem_reverse.mp now
        exact ⟨among now, builds.notBefore rule now⟩
      · refine ⟨(later rule again).1, fun before => (later rule again).2 ?_⟩
        rw [after]
        exact List.mem_append_right _ before

/-- Of a parser that grows the store by its rules, and does the same whatever is built. -/
theorem parsesApart (grows : p.run.Grows rules)
    (corresponds : (bothBuilt.correspondence [] []).Parsers (Value.IsBehind []) p p)
    (inputs : List Text) : p.ParsesApart rules inputs := by
  obtain ⟨once, among⟩ := announcedIn_parseAll grows .empty inputs
  have within := List.subperm_of_subset once fun rule built => (among rule built).1
  refine ⟨?_, once, within.length_le⟩
  exact alike_parseAll grows (fun r _ _ => alike_of_undropped corresponds r) rfl inputs

end Parser

namespace Grammar

open Correspondence StoreRelation

variable {g : Grammar}

theorem corresponds_leaf (known : List NodeId) (p : Parser Value)
    (h : ∀ q, Grammar.custom p = .custom q → q.IgnoresStore) :
    (bothBuilt.correspondence [] known).Parsers (Value.IsBehind []) p p :=
  (h p rfl).parsers rfl

theorem StoreBlind.corresponds (hg : g.StoreBlind) (node : NodeId) :
    (bothBuilt.correspondence [] []).Parsers (Value.IsBehind []) (g.toParser node)
      (g.toParser node) :=
  parsers_toParser (fun g _ => g.respects_nil) corresponds_leaf hg node

/-- Each of a number of parses goes as if it were the first one, and between them each deferred node
is built once at most. -/
theorem storeBlind_parsesApart (hg : g.StoreBlind) (node : NodeId) (inputs : List Text) :
    (∀ depth, (g.parserWithin depth node).ParsesApart (g.deferredNodes node) inputs) ∧
      (g.toParser node).ParsesApart (g.deferredNodes node) inputs := by
  constructor
  · intro depth
    exact Parser.parsesApart (hg.grows_parserWithin depth node)
      (parsers_parserWithin (fun g _ => g.respects_nil) corresponds_leaf hg depth node) inputs
  · exact Parser.parsesApart (hg.grows_toParser node) (hg.corresponds node) inputs

/-- Lists in brackets, in which a lazy rule stands within a recursive one. -/
def lists : Grammar :=
  .recursive "list" (.either
    (.between (.codePoint "(" '(')
      (.lazy "items" (.sepBy (.reference "list")
        (.either (.leaky "leak" 1) (.codePoint "," ',')))) (.codePoint ")" ')'))
    (.handmade "item" 1 .reversed))

theorem lists_storeBlind : lists.StoreBlind := by
  have leaf : ∀ label c, (Grammar.codePoint label c).StoreBlind := fun _ _ => .leaf nofun rfl
  have inner : (Grammar.reference "list").StoreBlind := .leaf nofun rfl
  have delimiter : (Grammar.either (.leaky "leak" 1) (.codePoint "," ',')).StoreBlind :=
    .binary nofun rfl (leaky_storeBlind _ _) (leaf _ _)
  have items : (Grammar.lazy "items" (.sepBy (.reference "list")
      (.either (.leaky "leak" 1) (.codePoint "," ',')))).StoreBlind :=
    .unary nofun rfl (.binary nofun rfl inner delimiter)
  exact .unary nofun rfl (.binary nofun rfl (.ternary nofun rfl (leaf _ _) items (leaf _ _))
    (handmade_storeBlind _ _ _))

/-- Parses with nothing built yet, one rule built, both, and both again. -/
theorem lists_parsesApart :
    lists.StoreBlind ∧ lists.deferredNodes [] = [[], [1, 0, 0]] ∧
      (lists.toParser []).ParsesApart (lists.deferredNodes [])
        [['x'], ['(', 'x', ',', '(', 'x', ')', ')'], ['(', '('], []] :=
  ⟨lists_storeBlind, rfl, (storeBlind_parsesApart lists_storeBlind [] _).2⟩

end Grammar

end RecursiveDescent
