import RecursiveDescent.Store

/-!
# Runs

A run starts from a reader and a store, and ends with a value, with a failure, or halted, by a
fault or because its budget is spent. However it ends, it tells where it left the reader and the
store. Failures can be observed and answered within a run; what halts it cannot.
-/
namespace RecursiveDescent

structure State where
  reader : Reader
  store : Store
deriving DecidableEq

inductive Halt where
  | fault (fault : Fault)
  | exhausted
deriving DecidableEq

inductive Outcome (α : Type) where
  | ok (value : α) (state : State)
  | failed (failure : Failure) (state : State)
  | halted (cause : Halt) (state : State)

def Outcome.state {α : Type} : Outcome α → State
  | .ok _ s => s
  | .failed _ s => s
  | .halted _ s => s

def Run (α : Type) : Type :=
  State → Outcome α

namespace Run

instance : Monad Run where
  pure a := fun s => .ok a s
  bind r next := fun s =>
    match r s with
    | .ok a s' => next a s'
    | .failed f s' => .failed f s'
    | .halted cause s' => .halted cause s'

variable {α β : Type}

theorem pure_apply (a : α) (s : State) : (pure a : Run α) s = .ok a s := rfl

theorem bind_apply (r : Run α) (next : α → Run β) (s : State) :
    (r >>= next) s = match r s with
      | .ok a s' => next a s'
      | .failed f s' => .failed f s'
      | .halted cause s' => .halted cause s' := rfl

def fail (f : Failure) : Run α :=
  fun s => .failed f s

def halt (cause : Halt) : Run α :=
  fun s => .halted cause s

/-- The budget is spent. -/
def exhaust : Run α :=
  halt .exhausted

/-- The result of `r`, be it a value or a failure. The reader stays where `r` left it. -/
def observe (r : Run α) : Run (Except Failure α) := fun s =>
  match r s with
  | .ok a s' => .ok (.ok a) s'
  | .failed f s' => .ok (.error f) s'
  | .halted cause s' => .halted cause s'

/-! ## The reader and the store -/

def reader : Run Reader :=
  fun s => .ok s.reader s

def position : Run Position :=
  fun s => .ok s.reader.position s

def input : Run Text :=
  fun s => .ok s.reader.input s

def store : Run Store :=
  fun s => .ok s.store s

def modifyStore (f : Store → Store) : Run Unit :=
  fun s => .ok () ⟨s.reader, f s.store⟩

def emit (e : Event) : Run Unit :=
  modifyStore (·.emit e)

def rewind (p : Position) : Run Unit := fun s =>
  match s.reader.rewind p with
  | .ok r => .ok () ⟨r, s.store⟩
  | .error f => .halted (.fault f) s

/-- Moves the reader as `move` does, and tells what it has passed. -/
def advance (move : Reader → Except Fault (Option (Text × Reader))) :
    Run (Option (Text × Span)) := fun s =>
  match move s.reader with
  | .ok (some (text, next)) =>
    .ok (some (text, ⟨s.reader.position, next.position⟩)) ⟨next, s.store⟩
  | .ok none => .ok none s
  | .error f => .halted (.fault f) s

def take (n : Nat) : Run (Option (Text × Span)) :=
  advance (·.take n)

def takeBytes (n : Nat) : Run (Option (Text × Span)) :=
  advance (·.takeBytes n)

/-- One round more than there are bytes ahead. -/
def rounds : Run Nat :=
  fun s => .ok (s.reader.bytesLeft + 1) s

/-- What failures report as found: the character ahead or the end. -/
def found : Run String := do
  match (← reader).peek? with
  | some c => return String.singleton c
  | none => return endMark

/-! ## Failing, and going back after a failure -/

def failHere (message expected found : String) : Run α := do
  fail (.here message expected found (← reader))

def failAtEnd (message expected : String) : Run α :=
  failHere message expected endMark

/-- A failure of `r` takes the reader back to `start`, where it becomes the cause of a new
level. -/
def enclosing (start : Position) (message : String) (r : Run α) : Run α := do
  match ← r.observe with
  | .ok a => return a
  | .error cause =>
    rewind start
    fail (cause.enclose message (← reader))

/-- A failure of `r` takes the reader back to `start` and is forgotten. -/
def orNothing (start : Position) (r : Run α) : Run (Option α) := do
  match ← r.observe with
  | .ok a => return some a
  | .error _ =>
    rewind start
    return none

/-- The result of `r`, with the reader back at `start` in any case. -/
def lookAhead (start : Position) (r : Run α) : Run (Except Failure α) := do
  let result ← r.observe
  rewind start
  return result

end Run

end RecursiveDescent
