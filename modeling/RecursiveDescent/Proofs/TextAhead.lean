import RecursiveDescent.Proofs.CorrespondingGrammars

/-!
# Nothing but the text ahead

A grammar over the library's parsers, run where one text follows another, does as it does on the
second text alone: it takes the same, gives the same values, and fails in the same words at the same
lines and columns, all offsets being larger by the bytes of the first text. That the cut between
the two may go through a line break makes no difference.
-/
namespace RecursiveDescent

namespace Value

mutual

theorem toText_behind (front : Text) : (v : Value) → (v.behind front).toText = v.toText
  | .char _ | .text _ | .unit | .absent | .int _ => rfl
  | .present v => by rw [behind, toText, toText, toText_behind front v]
  | .list vs => by rw [behind, toText, toText, listToText_behind front vs]
  | .pair l r => by rw [behind, toText, toText, toText_behind front l, toText_behind front r]
  | .located v s => by rw [behind, toText, toText, toText_behind front v]
  | .operation op l r => by
    rw [behind, toText, toText, toText_behind front op, toText_behind front l,
      toText_behind front r]

theorem listToText_behind (front : Text) :
    (vs : List Value) → listToText (listBehind front vs) = listToText vs
  | [] => rfl
  | v :: vs => by
    rw [listBehind, listToText, listToText, toText_behind front v, listToText_behind front vs]

end

theorem toInt_behind (front : Text) (v : Value) : (v.behind front).toInt = v.toInt := by
  have same := toText_behind front v
  cases v with
  | int n => rfl
  | _ => exact congrArg intOfText same

theorem asInt_behind (front : Text) (v : Value) :
    (v.behind front).asInt = v.asInt.behind front := by
  rw [asInt, toInt_behind]
  rfl

theorem arithmetic_behind (front : Text) (op left right : Value) :
    arithmetic (op.behind front) (left.behind front) (right.behind front) =
      (arithmetic op left right).behind front := by
  rw [arithmetic, toText_behind, toInt_behind, toInt_behind]
  rfl

end Value

/-- The second run ended as the first did, behind the text in front. -/
def Outcome.Behind (front : Text) : Outcome (Match Value) → Outcome (Match Value) → Prop
  | .ok m t, .ok m' t' =>
    m'.value = m.value.behind front ∧ m'.span = m.span.behind front ∧
      t'.reader = t.reader.behind front
  | .failed f t, .failed f' t' => f.Behind front f' ∧ t'.reader = t.reader.behind front
  | .halted cause _, .halted cause' _ => cause' = cause
  | _, _ => False

def StoreRelation.sameRules : StoreRelation where
  holds _ s s' := s'.built = s.built ∧ s'.dropped = s.dropped
  emit _ _ h := h
  build {_ s s'} kind rule label h := by
    have same : s'.isBuilt rule = s.isBuilt rule := by rw [Store.isBuilt, h.1, Store.isBuilt]
    rw [Store.afterBuild, Store.afterBuild, same]
    split
    · exact h
    · exact ⟨congrArg (rule :: ·) h.1, h.2⟩
  forget h := h
  available h _ := by
    rw [Store.isAvailable, Store.isBuilt, h.1, h.2, Store.isAvailable, Store.isBuilt]

theorem Reader.startAt_behind (front rest : Text) (line column : Nat) :
    startAt (front ++ rest) ⟨front.byteLength, line, column⟩ =
      (startAt rest ⟨0, line, column⟩).behind front := by
  rw [startAt, startAt, behind, Position.behind, Text.byteLength_append,
    Nat.min_eq_left (Nat.le_add_right _ _)]
  dsimp only
  rw [Nat.zero_min, Nat.zero_add]

namespace Grammar

/-- No leaf is a parser of one's own, and no function in the grammar looks at offsets. -/
def SpanBlind : Grammar → Prop :=
  Everywhere fun g => (∀ p, g ≠ .custom p) ∧ ∀ front, g.Respects front

open Correspondence StoreRelation in
/-- Parsers that correspond behind a text come out behind that text. -/
theorem outcome_behind {front : Text} {p : Parser Value}
    (h : (sameRules.correspondence front []).Parsers (Value.IsBehind front) p p) (r : Reader)
    (store : Store) : (p.run ⟨r, store⟩).Behind front (p.run ⟨r.behind front, store⟩) := by
  have outcomes := h.runs ⟨r, store⟩ ⟨r.behind front, store⟩ ⟨rfl, rfl, rfl⟩
  generalize p.run ⟨r, store⟩ = o at outcomes ⊢
  generalize p.run ⟨r.behind front, store⟩ = o' at outcomes ⊢
  cases outcomes with
  | ok hm ht => exact ⟨hm.value, hm.span, ht.reader⟩
  | failed hf ht => exact ⟨hf, ht.reader⟩
  | halted => rfl

/-- Runs on a text alone and behind another text, with rules entered to any depth or as deep as the
text asks for. -/
theorem run_behind {g : Grammar} (blind : g.SpanBlind) (node : NodeId) (front rest : Text)
    (line column : Nat) (store : Store) :
    (∀ depth, ((g.parserWithin depth node).run
        ⟨Reader.startAt rest ⟨0, line, column⟩, store⟩).Behind front
      ((g.parserWithin depth node).run
        ⟨Reader.startAt (front ++ rest) ⟨front.byteLength, line, column⟩, store⟩)) ∧
    ((g.toParser node).run ⟨Reader.startAt rest ⟨0, line, column⟩, store⟩).Behind front
      ((g.toParser node).run
        ⟨Reader.startAt (front ++ rest) ⟨front.byteLength, line, column⟩, store⟩) := by
  have respects : ∀ g : Grammar, ((∀ p, g ≠ .custom p) ∧ ∀ front, g.Respects front) →
      g.Respects front := fun g h => h.2 front
  rw [Reader.startAt_behind]
  constructor
  · intro depth
    refine outcome_behind ?_ _ store
    exact StoreRelation.parsers_parserWithin respects (fun _ p h => absurd rfl (h.1 p)) blind depth
      node
  · refine outcome_behind ?_ _ store
    exact StoreRelation.parsers_toParser respects (fun _ p h => absurd rfl (h.1 p)) blind node

def sums : Grammar :=
  .withSpan (.chainLeft Value.arithmetic (.map Value.asInt (.many1 digit))
    (.oneOf "operator" ['+', '-']))

theorem sums_spanBlind : sums.SpanBlind := by
  have digits : (Grammar.many1 digit).SpanBlind :=
    .unary ⟨nofun, fun _ => trivial⟩ rfl (.leaf ⟨nofun, fun _ => trivial⟩ rfl)
  have number : (Grammar.map Value.asInt (.many1 digit)).SpanBlind :=
    .unary ⟨nofun, fun front v => Value.asInt_behind front v⟩ rfl digits
  have operator : (Grammar.oneOf "operator" ['+', '-']).SpanBlind :=
    .leaf ⟨nofun, fun _ => trivial⟩ rfl
  refine .unary ⟨nofun, fun _ => trivial⟩ rfl (.binary ⟨nofun, fun front => ?_⟩ rfl number operator)
  exact Value.arithmetic_behind front

theorem sums_run_behind : sums.SpanBlind ∧
    ((sums.toParser []).run ⟨Reader.startAt ['1', '+', '2', '\n'] ⟨0, 3, 1⟩, .empty⟩).Behind
      ['é', '\r'] ((sums.toParser []).run
        ⟨Reader.startAt ['é', '\r', '1', '+', '2', '\n'] ⟨3, 3, 1⟩, .empty⟩) :=
  ⟨sums_spanBlind,
    (run_behind sums_spanBlind [] ['é', '\r'] ['1', '+', '2', '\n'] 3 1 .empty).2⟩

end Grammar

end RecursiveDescent
