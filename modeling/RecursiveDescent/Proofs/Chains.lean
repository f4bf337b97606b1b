import Mathlib.Data.List.Induction
import RecursiveDescent.Parser.Operators
import RecursiveDescent.Proofs.Ending

/-!
# Chains

A chain gives the value of a tree whose operands and operators, from left to right, are those that
were read in turn. The tree of a chain from the left has all its operations on left sides, and that
of a chain from the right on right sides, so there is only one such tree. Operands and operators may
move the reader as they like, back too, and change the store. So there may be any number of them,
and a chain is looked at in any number of rounds.
-/
namespace RecursiveDescent

open RecursiveDescent.Parser

variable {α β : Type}

/-- Operands joined by operators. -/
inductive Joined (α β : Type) where
  | operand (a : α)
  | operation (left : Joined α β) (op : β) (right : Joined α β)

namespace Joined

def inOrder : Joined α β → List (α ⊕ β)
  | operand a => [.inl a]
  | operation left op right => left.inOrder ++ .inr op :: right.inOrder

/-- Each operator is applied once, to the values of its two sides. -/
def value : Joined α (α → α → α) → α
  | operand a => a
  | operation left op right => op left.value right.value

/-- The right side of every operation is a mere operand. -/
inductive LeftNested : Joined α β → Prop
  | operand (a : α) : LeftNested (.operand a)
  | operation {left : Joined α β} (op : β) (a : α) :
    LeftNested left → LeftNested (.operation left op (.operand a))

/-- The left side of every operation is a mere operand. -/
inductive RightNested : Joined α β → Prop
  | operand (a : α) : RightNested (.operand a)
  | operation {right : Joined α β} (a : α) (op : β) :
    RightNested right → RightNested (.operation (.operand a) op right)

def sequence (first : α) (ops : List (β × α)) : List (α ⊕ β) :=
  .inl first :: ops.flatMap fun op => [.inr op.1, .inl op.2]

variable {tree : Joined α β} {first : α} {ops : List (β × α)}

theorem sequence_cons (first : α) (op : β) (second : α) (ops : List (β × α)) :
    sequence first ((op, second) :: ops) = .inl first :: .inr op :: sequence second ops := rfl

theorem sequence_concat (first : α) (ops : List (β × α)) (op : β) (last : α) :
    sequence first (ops ++ [(op, last)]) = sequence first ops ++ [.inr op, .inl last] := by
  simp only [sequence, List.flatMap_append, List.flatMap_singleton, List.cons_append]

/-! ## Trees that lean to the left -/

/-- For each sequence there is a tree that is nested to the left. -/
theorem exists_leftNested (first : α) (ops : List (β × α)) :
    ∃ tree : Joined α β, tree.LeftNested ∧ tree.inOrder = sequence first ops := by
  induction ops using List.reverseRecOn with
  | nil => exact ⟨.operand first, .operand first, rfl⟩
  | append_singleton ops op ih =>
    obtain ⟨left, nested, listed⟩ := ih
    refine ⟨.operation left op.1 (.operand op.2), .operation op.1 op.2 nested, ?_⟩
    rw [inOrder, listed, sequence_concat]
    rfl

theorem combineLeft_concat (first : α) (ops : List ((α → α → α) × α)) (op : α → α → α) (last : α) :
    combineLeft first (ops ++ [(op, last)]) = op (combineLeft first ops) last := by
  induction ops generalizing first with
  | nil => rfl
  | cons next ops ih => exact ih (next.1 first next.2)

/-- The last operator is the outermost, and what stands before it is listed by its left side. -/
theorem LeftNested.value_eq {tree : Joined α (α → α → α)} {ops : List ((α → α → α) × α)}
    (nested : tree.LeftNested) (listed : tree.inOrder = sequence first ops) :
    tree.value = combineLeft first ops := by
  induction nested generalizing ops with
  | operand a =>
    cases ops with
    | nil => exact Sum.inl.inj (List.cons.inj listed).1
    | cons op ops => cases listed
  | @operation left op a _ ih =>
    rcases List.eq_nil_or_concat ops with rfl | ⟨init, last, rfl⟩
    · have shorter := congrArg List.length listed
      simp only [inOrder, sequence, List.length_append, List.length_cons,
        List.flatMap_nil] at shorter
      omega
    · rw [List.concat_eq_append] at listed ⊢
      rw [inOrder, inOrder, sequence_concat] at listed
      obtain ⟨before, same⟩ := List.append_inj' listed rfl
      simp only [List.cons.injEq, Sum.inr.injEq, Sum.inl.injEq, and_true] at same
      rw [value, value, ih before, combineLeft_concat, same.1, same.2]

/-! ## Trees that lean to the right -/

theorem exists_rightNested (first : α) (ops : List (β × α)) :
    ∃ tree : Joined α β, tree.RightNested ∧ tree.inOrder = sequence first ops := by
  induction ops generalizing first with
  | nil => exact ⟨.operand first, .operand first, rfl⟩
  | cons op ops ih =>
    obtain ⟨right, nested, listed⟩ := ih op.2
    refine ⟨.operation (.operand first) op.1 right, .operation first op.1 nested, ?_⟩
    rw [inOrder, listed, sequence_cons]
    rfl

/-- The first operator is the outermost, and what stands behind it is listed by its right side. -/
theorem RightNested.value_eq {tree : Joined α (α → α → α)} {ops : List ((α → α → α) × α)}
    (nested : tree.RightNested) (listed : tree.inOrder = sequence first ops) :
    tree.value = combineRight first ops := by
  induction nested generalizing first ops with
  | operand a =>
    cases ops with
    | nil => exact Sum.inl.inj (List.cons.inj listed).1
    | cons op ops => cases listed
  | @operation right a op _ ih =>
    cases ops with
    | nil => cases listed
    | cons next ops =>
      rw [inOrder, inOrder, sequence_cons] at listed
      simp only [List.singleton_append, List.cons.injEq, Sum.inl.injEq, Sum.inr.injEq] at listed
      obtain ⟨rfl, rfl, behind⟩ := listed
      rw [value, value, ih behind, combineRight_cons]

end Joined

/-! ## What is read in turn -/

/-- From the one state to the other an operator and an operand in turn, until there is no operator.
What looking for that one did to the reader is undone. -/
inductive Parser.InTurn (operand : Parser α) (operator : Parser β) :
    State → List (β × α) → State → Prop
  | none {s t : State} {f : Failure} {back : Reader} : operator.run s = .failed f t →
    t.reader.rewind s.reader.position = .ok back → InTurn operand operator s [] ⟨back, t.store⟩
  | more {s t u v : State} {op : Match β} {right : Match α} {ops : List (β × α)} :
    operator.run s = .ok op t → operand.run t = .ok right u → InTurn operand operator u ops v →
    InTurn operand operator s ((op.value, right.value) :: ops) v

section InTurn

variable {operand : Parser α} {operator : Parser β} {name : String} {s t : State}

/-- With rounds enough the loop reads what there is to read in turn. -/
theorem operations_eq_ok_iff {start : Position} {n : Nat} {ops : List (β × α)} :
    operations name operand operator start n s = .ok ops t ↔
      ops.length < n ∧ operand.InTurn operator s ops t := by
  induction n generalizing s ops with
  | zero => exact ⟨nofun, fun both => absurd both.1 (Nat.not_lt_zero _)⟩
  | succ n ih =>
    constructor
    · intro h
      obtain ⟨checkpoint, _, here, h⟩ := Run.bind_eq_ok_iff.mp h
      cases here
      obtain ⟨found, u, looked, h⟩ := Run.bind_eq_ok_iff.mp h
      cases found with
      | none =>
        cases h
        obtain ⟨f, v, back, failed, undone, rfl⟩ := Run.orNothing_eq_none_iff.mp looked
        exact ⟨Nat.succ_pos n, .none failed undone⟩
      | some op =>
        obtain ⟨right, v, taken, h⟩ := Run.bind_eq_ok_iff.mp h
        obtain ⟨rest, w, read, h⟩ := Run.bind_eq_ok_iff.mp h
        cases h
        obtain ⟨fewer, inTurn⟩ := ih.mp read
        have found := Run.orNothing_eq_some_iff.mp looked
        exact ⟨Nat.succ_lt_succ fewer, .more found (Run.enclosing_eq_ok_iff.mp taken) inTurn⟩
    · rintro ⟨fewer, inTurn⟩
      refine Run.bind_eq_ok_iff.mpr ⟨_, _, rfl, Run.bind_eq_ok_iff.mpr ?_⟩
      cases inTurn with
      | none failed undone =>
        have looked := Run.orNothing_eq_none_iff.mpr ⟨_, _, _, failed, undone, rfl⟩
        exact ⟨_, _, looked, rfl⟩
      | more found taken inTurn =>
        have read := ih.mpr ⟨Nat.lt_of_succ_lt_succ fewer, inTurn⟩
        refine ⟨_, _, Run.orNothing_eq_some_iff.mpr found, Run.bind_eq_ok_iff.mpr ?_⟩
        exact ⟨_, _, Run.enclosing_eq_ok_iff.mpr taken, Run.bind_eq_ok_iff.mpr ⟨_, _, read, rfl⟩⟩

/-- A chain of so many operators is read in more rounds than these, however the rounds are counted
behind the first operand. -/
theorem operandsWithin_eq_ok_iff {rounds : Run Nat} {count : State → Nat}
    (counts : ∀ u, rounds u = .ok (count u) u) {first : α} {ops : List (β × α)} :
    operandsWithin rounds name operand operator s = .ok (first, ops) t ↔
      ∃ m u, operand.run s = .ok m u ∧ operand.InTurn operator u ops t ∧
        ops.length < count u ∧ m.value = first := by
  constructor
  · intro h
    obtain ⟨start, _, here, h⟩ := Run.bind_eq_ok_iff.mp h
    cases here
    obtain ⟨m, u, taken, h⟩ := Run.bind_eq_ok_iff.mp h
    obtain ⟨n, _, counted, h⟩ := Run.bind_eq_ok_iff.mp h
    cases (counts u).symm.trans counted
    obtain ⟨rest, v, read, h⟩ := Run.bind_eq_ok_iff.mp h
    cases h
    obtain ⟨fewer, inTurn⟩ := operations_eq_ok_iff.mp read
    exact ⟨m, u, Run.enclosing_eq_ok_iff.mp taken, inTurn, fewer, rfl⟩
  · rintro ⟨m, u, taken, inTurn, fewer, rfl⟩
    have read : operations name operand operator s.reader.position (count u) u = .ok ops t :=
      operations_eq_ok_iff.mpr ⟨fewer, inTurn⟩
    refine Run.bind_eq_ok_iff.mpr ⟨_, _, rfl, Run.bind_eq_ok_iff.mpr ?_⟩
    refine ⟨_, _, Run.enclosing_eq_ok_iff.mpr taken, Run.bind_eq_ok_iff.mpr ⟨_, _, counts u, ?_⟩⟩
    exact Run.bind_eq_ok_iff.mpr ⟨_, _, read, rfl⟩

end InTurn

section Folding

variable {operand : Parser α} {operator : Parser (α → α → α)} {s t : State} {m : Match α}

/-- An operand is read from `s` to `u`, and from there to `t` so many operators, each with the
operand behind it. The match is the value of the tree of that shape which lists what was read. -/
def Parser.Folds (operand : Parser α) (operator : Parser (α → α → α))
    (shape : Joined α (α → α → α) → Prop) (s u t : State) (count : Nat) (m : Match α) : Prop :=
  ∃ first ops, ∃ tree : Joined α (α → α → α), operand.run s = .ok first u ∧
    operand.InTurn operator u ops t ∧ ops.length = count ∧ shape tree ∧
    tree.inOrder = Joined.sequence first.value ops ∧
    m = ⟨tree.value, ⟨s.reader.position, t.reader.position⟩⟩

/-- When a chain gives a match, which depends on the number of its rounds only in so far as there
have to be enough. -/
structure Parser.FoldsInTurn (chain : Run Nat → Parser α) (operand : Parser α)
    (operator : Parser (α → α → α)) (shape : Joined α (α → α → α) → Prop) (s t : State)
    (m : Match α) : Prop where
  unbounded : (∃ n, (chain (pure n)).run s = .ok m t) ↔
    ∃ u count, operand.Folds operator shape s u t count m
  within (n : Nat) : (chain (pure n)).run s = .ok m t ↔
    ∃ u count, count < n ∧ operand.Folds operator shape s u t count m
  byDefault : (chain Run.rounds).run s = .ok m t ↔
    ∃ u count, count ≤ u.reader.bytesLeft ∧ operand.Folds operator shape s u t count m

/-- Both chains combine what is read in turn, each as the trees of its shape tell. -/
theorem combined_eq_ok_iff {name : String} {combine : α → List ((α → α → α) × α) → α}
    {shape : Joined α (α → α → α) → Prop}
    (exists_tree : ∀ first ops, ∃ tree, shape tree ∧ tree.inOrder = Joined.sequence first ops)
    (value_eq : ∀ {tree first ops}, shape tree → tree.inOrder = Joined.sequence first ops →
      tree.value = combine first ops)
    {rounds : Run Nat} {count : State → Nat} (counts : ∀ u, rounds u = .ok (count u) u) :
    (do
      let start ← Run.position
      let (first, ops) ← operandsWithin rounds name operand operator
      return ⟨combine first ops, ⟨start, ← Run.position⟩⟩ : Run (Match α)) s = .ok m t ↔
      ∃ u n, n < count u ∧ operand.Folds operator shape s u t n m := by
  constructor
  · intro h
    obtain ⟨start, _, here, h⟩ := Run.bind_eq_ok_iff.mp h
    cases here
    obtain ⟨⟨_, ops⟩, v, read, h⟩ := Run.bind_eq_ok_iff.mp h
    obtain ⟨stop, _, there, h⟩ := Run.bind_eq_ok_iff.mp h
    cases there
    cases h
    obtain ⟨first, u, taken, inTurn, fewer, rfl⟩ := (operandsWithin_eq_ok_iff counts).mp read
    obtain ⟨tree, shaped, listed⟩ := exists_tree first.value ops
    refine ⟨u, _, fewer, first, ops, tree, taken, inTurn, rfl, shaped, listed, ?_⟩
    rw [value_eq shaped listed]
  · rintro ⟨u, _, fewer, first, ops, tree, taken, inTurn, rfl, shaped, listed, rfl⟩
    have read : operandsWithin rounds name operand operator s = .ok (first.value, ops) t :=
      (operandsWithin_eq_ok_iff counts).mpr ⟨first, u, taken, inTurn, fewer, rfl⟩
    rw [value_eq shaped listed]
    refine Run.bind_eq_ok_iff.mpr ⟨_, _, rfl, Run.bind_eq_ok_iff.mpr ⟨_, _, read, ?_⟩⟩
    exact Run.bind_eq_ok_iff.mpr ⟨_, _, rfl, rfl⟩

theorem foldsInTurn {chain : Run Nat → Parser α} {shape : Joined α (α → α → α) → Prop}
    (folds : ∀ {rounds : Run Nat} {count : State → Nat}, (∀ u, rounds u = .ok (count u) u) →
      ((chain rounds).run s = .ok m t ↔
        ∃ u n, n < count u ∧ operand.Folds operator shape s u t n m)) :
    FoldsInTurn chain operand operator shape s t m where
  unbounded := by
    constructor
    · rintro ⟨n, gives⟩
      obtain ⟨u, count, -, folded⟩ := (folds fun _ => rfl).mp gives
      exact ⟨u, count, folded⟩
    · rintro ⟨u, count, folded⟩
      exact ⟨count + 1, (folds fun _ => rfl).mpr ⟨u, count, Nat.lt_succ_self count, folded⟩⟩
  within n := folds fun _ => rfl
  byDefault := by
    have counts (u : State) : Run.rounds u = .ok (u.reader.bytesLeft + 1) u := rfl
    simp only [folds counts, Nat.lt_succ_iff]

end Folding

/-- A chain succeeds where an operand can be read, and behind it operators and operands in turn, any
number of them for which it has rounds enough. From the left the last operator is applied last, and
from the right the first; each is applied once, and the tree of what is applied to what lists
operands and operators in the order in which they were read. -/
theorem Parser.chains_fold (operand : Parser α) (operator : Parser (α → α → α)) (s t : State)
    (m : Match α) :
    FoldsInTurn (fun rounds => chainLeft operand operator rounds) operand operator
        Joined.LeftNested s t m ∧
      FoldsInTurn (fun rounds => chainRight operand operator rounds) operand operator
        Joined.RightNested s t m :=
  ⟨foldsInTurn (combined_eq_ok_iff Joined.exists_leftNested Joined.LeftNested.value_eq),
    foldsInTurn (combined_eq_ok_iff Joined.exists_rightNested Joined.RightNested.value_eq)⟩

end RecursiveDescent
