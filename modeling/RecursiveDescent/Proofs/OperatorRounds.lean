import RecursiveDescent.Parser.Operators
import RecursiveDescent.Proofs.Rounds

/-!
# Rounds of operators and operands

A chain goes on as long as there is an operator, also when a round takes nothing. Rounds that take
something lead to a place where the next one cannot begin, cannot be finished, or takes nothing. In
the last case the same round comes again and again, and no number of rounds is enough.
-/
namespace RecursiveDescent

open RecursiveDescent.Parser

variable {α β : Type} {S : Setting} {operand : Parser α} {operator : Parser β}

def Parser.Terminates (S : Setting) (p : Parser α) : Prop :=
  ∀ {s : State}, S.Holds s → ∀ t, p.run s ≠ .halted .exhausted t

namespace Setting

variable {start r r' u q : Reader} {a : α} {b : β} {f g : Failure} {cause : Halt} {name : String}
  {c : β × α} {store : Store}

theorem HaltsAt.ne_exhausted (h : S.HaltsAt operand r cause) (ends : operand.Terminates S)
    (hr : S.readers r) (hstore : S.stores store) : cause ≠ .exhausted := by
  rintro rfl
  have halted := Outcome.eq_halted_of_verdict (h store hstore).1
  exact ends ⟨hr, hstore⟩ _ halted

/-- An operator and the operand behind it, with both their values. -/
def Operated (S : Setting) (operand : Parser α) (operator : Parser β) (r : Reader) (c : β × α)
    (r' : Reader) : Prop :=
  ∃ u, S.Takes operator r c.1 u ∧ S.Takes operand u c.2 r'

/-- There is an operator that takes nothing, and an operand that takes nothing either. -/
def Idles (S : Setting) (operand : Parser α) (operator : Parser β) (q : Reader) : Prop :=
  ∃ b a, S.Takes operator q b q ∧ S.Takes operand q a q

/-- Rounds lead to a place where the next one takes nothing. -/
def Stalls (S : Setting) (operand : Parser α) (operator : Parser β) (r : Reader) : Prop :=
  ∃ ops q, Rounds (S.Operated operand operator) r ops q ∧ S.Idles operand operator q

theorem Operated.on (h : S.Operated operand operator r c r') (hr : S.On start r) :
    S.On start r' := by
  obtain ⟨u, found, taken⟩ := h
  exact taken.on (found.on hr)

/-- A round that takes nothing has an operator and an operand that take nothing. -/
theorem Operated.idles (h : S.Operated operand operator r c r') (nothing : ¬ r.offset < r'.offset) :
    S.Idles operand operator r := by
  obtain ⟨u, found, taken⟩ := h
  have forward := taken.forward
  obtain rfl := found.eq_of_not_lt (by omega)
  obtain rfl := taken.eq_of_not_lt nothing
  exact ⟨c.1, c.2, found, taken⟩

theorem onward_operated (operand : Parser α) (operator : Parser β) (start : Reader) :
    S.Onward start (Advancing (S.Operated operand operator)) :=
  onward_advancing fun hr round => round.on hr

/-! ## Where rounds end -/

/-- What there is where no round takes anything any more. -/
inductive RoundsEnd (S : Setting) (operand : Parser α) (operator : Parser β) (q : Reader) : Prop
  | none {f : Failure} : S.Refuses operator q f → RoundsEnd S operand operator q
  | dangling {b : β} {u : Reader} {g : Failure} : S.Takes operator q b u → S.Refuses operand u g →
    RoundsEnd S operand operator q
  | halts {cause : Halt} : S.HaltsAt operator q cause → RoundsEnd S operand operator q
  | haltsBehind {b : β} {u : Reader} {cause : Halt} : S.Takes operator q b u →
    S.HaltsAt operand u cause → RoundsEnd S operand operator q
  | idles : S.Idles operand operator q → RoundsEnd S operand operator q

/-- From every place there are rounds that take something, up to one that ends them. -/
theorem exists_roundsEnd (hoperand : operand.Dependable S) (hoperator : operator.Dependable S)
    (hr : S.On start r) (hstore : S.stores store) :
    ∃ ops q, Rounds (Advancing (S.Operated operand operator)) r ops q ∧ S.On start q ∧
      S.RoundsEnd operand operator q := by
  obtain ⟨ops, q, rounds, on, last⟩ := (onward_operated operand operator start).exists_rounds hr
  refine ⟨ops, q, rounds, on, ?_⟩
  cases goes hoperator on.reader hstore with
  | refuses refused => exact .none refused
  | halts halted => exact .halts halted
  | takes found =>
    rename_i b u
    cases goes hoperand found.reader hstore with
    | refuses refused => exact .dangling found refused
    | halts halted => exact .haltsBehind found halted
    | takes taken =>
      rename_i a q'
      have round : S.Operated operand operator q (b, a) q' := ⟨u, found, taken⟩
      exact .idles (round.idles fun further => last (b, a) q' ⟨round, further⟩)

/-! ## One round of a chain -/

/-- Without an operator the chain has ended. -/
theorem Refuses.settles_operations (h : S.Refuses operator r f) (hr : S.readers r)
    (name : String) (operand : Parser α) (start : Position) (n : Nat) :
    S.Settles (operations name operand operator start (n + 1)) r (.gives [] r) := by
  have none := Settles.orNothing (S.inText hr) h rfl
  exact (settles_look Reader.position r).bind (none.bind (settles_pure _ r))

theorem HaltsAt.settles_operations (h : S.HaltsAt operator r cause) (hr : S.readers r)
    (name : String) (operand : Parser α) (start : Position) (n : Nat) :
    S.Settles (operations name operand operator start (n + 1)) r (.halts cause) := by
  have halted := Settles.orNothing (S.inText hr) h trivial
  exact (settles_look Reader.position r).bind halted.bind_halts

/-- Behind an operator it comes down to the operand. -/
theorem Takes.settles_operations (h : S.Takes operator r b u) (hr : S.readers r)
    {start : Position} {n : Nat} {v : Verdict (List (β × α))}
    (onward : S.Settles (do
      let right ← operand.run.enclosing start s!"{name}: failed to parse right value."
      return (b, right.value) :: (← operations name operand operator start n)) u v) :
    S.Settles (operations name operand operator start (n + 1)) r v := by
  have found := h.settles.orNothing (S.inText hr) h.input
  exact (settles_look Reader.position r).bind (found.bind onward)

section Behind

variable (found : S.Takes operator r b u) (hstart : S.readers start) (hr : S.On start r)
include found hstart hr

/-- An operator without an operand undoes the whole chain. -/
theorem Takes.operations_fails (refused : S.Refuses operand u g) (name : String) (n : Nat) :
    S.Settles (operations name operand operator start.position (n + 1)) r
      (.fails (g.enclose s!"{name}: failed to parse right value." start) start) := by
  have failed := Settles.enclosing (S.inText hstart) refused (found.on hr).input
    s!"{name}: failed to parse right value."
  exact found.settles_operations hr.reader failed.bind_fails

theorem Takes.operations_halts (halted : S.HaltsAt operand u cause) (name : String) (n : Nat) :
    S.Settles (operations name operand operator start.position (n + 1)) r (.halts cause) := by
  have halts := Settles.enclosing (S.inText hstart) halted trivial
    s!"{name}: failed to parse right value."
  exact found.settles_operations hr.reader halts.bind_halts

end Behind

/-- One more round in front of what the later ones give. -/
theorem Operated.settles_operations (h : S.Operated operand operator r c r')
    (hstart : S.readers start) (hr : S.On start r) {n : Nat} {v : Verdict (List (β × α))}
    (later : S.Settles (operations name operand operator start.position n) r' v) :
    S.Settles (operations name operand operator start.position (n + 1)) r (v.map (c :: ·)) := by
  obtain ⟨u, found, taken⟩ := h
  have right := taken.settles.enclosing (S.inText hstart) (taken.on (found.on hr)).input
    s!"{name}: failed to parse right value."
  exact found.settles_operations hr.reader (right.bind (later.map _))

/-! ## All rounds of a chain -/

/-- Whatever the number of rounds, it is spent. -/
theorem Stalls.settles_operations (h : S.Stalls operand operator r) (hstart : S.readers start)
    (hr : S.On start r) (name : String) (n : Nat) :
    S.Settles (operations name operand operator start.position n) r (.halts .exhausted) := by
  obtain ⟨ops, q, rounds, idles⟩ := h
  -- One round after the other, first those that lead there, then the one that takes nothing.
  induction n generalizing r ops with
  | zero => exact fun _ hstore => ⟨rfl, hstore⟩
  | succ n ih =>
    cases rounds with
    | none =>
      obtain ⟨b, a, found, taken⟩ := idles
      have round : S.Operated operand operator q (b, a) q := ⟨q, found, taken⟩
      exact round.settles_operations hstart hr (ih hr [] .none)
    | more round rounds =>
      exact round.settles_operations hstart hr (ih (round.on hr) _ rounds)

/-- The rounds, and then what is done where they end. -/
theorem settles_operations {ops : List (β × α)} {v : Verdict (List (β × α))}
    (hstart : S.readers start) (hr : S.On start r)
    (rounds : Rounds (Advancing (S.Operated operand operator)) r ops q)
    (stop : ∀ n, S.Settles (operations name operand operator start.position (n + 1)) q v) {n : Nat}
    (enough : r.bytesLeft < n) :
    S.Settles (operations name operand operator start.position n) r (v.map (ops ++ ·)) :=
  (onward_operated operand operator start).settles
    (fun _ _ hu round later => round.1.settles_operations hstart hu later) stop hr rounds enough

/-! ## The first operand and all rounds -/

theorem Refuses.settles_operands (h : S.Refuses operand r g) (hr : S.readers r) (name : String)
    (operator : Parser β) :
    S.Settles (operands name operand operator) r
      (.fails (g.enclose s!"{name}: failed to parse initial value." r) r) := by
  have failed := Settles.enclosing (S.inText hr) h rfl s!"{name}: failed to parse initial value."
  exact (settles_look Reader.position r).bind failed.bind_fails

theorem HaltsAt.settles_operands (h : S.HaltsAt operand r cause) (hr : S.readers r) (name : String)
    (operator : Parser β) : S.Settles (operands name operand operator) r (.halts cause) := by
  have halts := Settles.enclosing (S.inText hr) h trivial s!"{name}: failed to parse initial value."
  exact (settles_look Reader.position r).bind halts.bind_halts

/-- Behind the first operand there are as many rounds as bytes, and one. -/
theorem Takes.settles_operands (first : S.Takes operand r a u) (hr : S.readers r)
    {v : Verdict (List (β × α))}
    (rest : S.Settles (operations name operand operator r.position (u.bytesLeft + 1)) u v) :
    S.Settles (operands name operand operator) r (v.map (Prod.mk a)) := by
  have taken := first.settles.enclosing (S.inText hr) first.input
    s!"{name}: failed to parse initial value."
  refine (settles_look Reader.position r).bind (taken.bind ?_)
  exact (settles_look (·.bytesLeft + 1) u).bind (rest.map _)

end Setting

end RecursiveDescent
