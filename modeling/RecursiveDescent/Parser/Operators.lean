import RecursiveDescent.Parser.Basic

/-!
# Operands joined by operators

An operand, and then in each round an operator and an operand, until there is no operator. The
operands are combined from the left, in the order in which they came, or from the right, beginning
with the last of them. Nothing ends the rounds but an operator or an operand that fails, so a run is
given a number of rounds. Where each takes something, one round more than there are bytes ahead is
enough. Parsers that take nothing, go back or change the store may need more, or go on for ever.
-/
namespace RecursiveDescent.Parser

variable {α β : Type}

def operations (name : String) (operand : Parser α) (operator : Parser β) (start : Position) :
    Nat → Run (List (β × α))
  | 0 => Run.exhaust
  | rounds + 1 => do
    match ← operator.run.orNothing (← Run.position) with
    | none => return []
    | some op =>
      let right ← operand.run.enclosing start s!"{name}: failed to parse right value."
      return (op.value, right.value) :: (← operations name operand operator start rounds)

/-- The first operand, and each further one after its operator. -/
def operandsWithin (rounds : Run Nat) (name : String) (operand : Parser α) (operator : Parser β) :
    Run (α × List (β × α)) := do
  let start ← Run.position
  let first ← operand.run.enclosing start s!"{name}: failed to parse initial value."
  let rest ← operations name operand operator start (← rounds)
  return (first.value, rest)

def operands (name : String) (operand : Parser α) (operator : Parser β) :
    Run (α × List (β × α)) :=
  operandsWithin Run.rounds name operand operator

def combineLeft (first : α) : List ((α → α → α) × α) → α
  | [] => first
  | (combine, next) :: rest => combineLeft (combine first next) rest

/-- From the end of a chain to its first operand. What was combined so far is the right side of
`combine`, and the operand before that its left side. -/
def combineBack (first : α) (combine : α → α → α) (right : α) : List ((α → α → α) × α) → α
  | [] => combine first right
  | (earlier, left) :: before => combineBack first earlier (combine left right) before

def combineRight (first : α) (rest : List ((α → α → α) × α)) : α :=
  match rest.reverse with
  | [] => first
  | (combine, last) :: before => combineBack first combine last before

def chainLabel (operand : Parser α) (operator : Parser β) : String :=
  s!"{operand.label} chained by {operator.label}"

def chainLeft (operand : Parser α) (operator : Parser (α → α → α))
    (rounds : Run Nat := Run.rounds) : Parser α where
  label := chainLabel operand operator
  run := do
    let start ← Run.position
    let (first, rest) ← operandsWithin rounds "Chainl1" operand operator
    return ⟨combineLeft first rest, ⟨start, ← Run.position⟩⟩

def chainRight (operand : Parser α) (operator : Parser (α → α → α))
    (rounds : Run Nat := Run.rounds) : Parser α where
  label := chainLabel operand operator
  run := do
    let start ← Run.position
    let (first, rest) ← operandsWithin rounds "Chainr1" operand operator
    return ⟨combineRight first rest, ⟨start, ← Run.position⟩⟩

theorem combineBack_concat (first second : α) (combine op : α → α → α) (right : α)
    (before : List ((α → α → α) × α)) :
    combineBack first combine right (before ++ [(op, second)]) =
      op first (combineBack second combine right before) := by
  induction before generalizing combine right with
  | nil => rfl
  | cons earlier before ih => exact ih earlier.1 (combine earlier.2 right)

/-- The first operator has the whole rest of the chain on its right. -/
theorem combineRight_cons (first second : α) (op : α → α → α) (rest : List ((α → α → α) × α)) :
    combineRight first ((op, second) :: rest) = op first (combineRight second rest) := by
  rw [combineRight, combineRight, List.reverse_cons]
  cases rest.reverse with
  | nil => rfl
  | cons last before => exact combineBack_concat first second last.1 op last.2 before

example : combineLeft 9 [(Nat.sub, 4), (Nat.sub, 3)] = 2 := rfl

example : combineRight 9 [(Nat.sub, 4), (Nat.sub, 3)] = 8 := rfl

end RecursiveDescent.Parser
