import RecursiveDescent.Proofs.DelimitedItems
import RecursiveDescent.Proofs.OperatorRounds

/-!
# Chains and lists

A chain takes what a list of its operands takes that has its operators for delimiters, and combines
the items of this list. The rounds of both are the same as long as they take something. A round that
takes nothing is the last one of a list, but a chain never gets over it.
-/
namespace RecursiveDescent

open RecursiveDescent.Parser

variable {α : Type} {S : Setting} {operand : Parser α} {operator : Parser (α → α → α)}

namespace Setting

variable {r u q : Reader} {a : α} {f g : Failure} {cause : Halt} {name : String} {store : Store}

/-- How a chain from the left, one from the right, and a list may end that begin at `r`. -/
inductive ChainsAlike (S : Setting) (operand : Parser α) (operator : Parser (α → α → α))
    (r : Reader) : Verdict (Match α) → Verdict (Match α) → Verdict (Match (List α)) → Prop
  /-- The chains combine the items of the list. -/
  | whole {x : α} {ops : List ((α → α → α) × α)} {u q : Reader} :
    S.Takes operand r x u → Rounds (S.Operated operand operator) u ops q →
    ChainsAlike S operand operator r
      (.gives ⟨combineLeft x ops, ⟨r.position, q.position⟩⟩ q)
      (.gives ⟨combineRight x ops, ⟨r.position, q.position⟩⟩ q)
      (.gives ⟨x :: ops.map Prod.snd, ⟨r.position, q.position⟩⟩ q)
  | undone {left right list : Failure} : left.root = list.root → right.root = list.root →
    ChainsAlike S operand operator r (.fails left r) (.fails right r) (.fails list r)
  | halted {cause : Halt} :
    operand.HaltsBehind S r cause ∨ operator.HaltsBehind S r cause →
    ChainsAlike S operand operator r (.halts cause) (.halts cause) (.halts cause)
  /-- The chains do not end. -/
  | endless {x : α} {u q : Reader} {m : Match (List α)} :
    S.Takes operand r x u → S.Stalls operand operator u →
    ChainsAlike S operand operator r (.halts .exhausted) (.halts .exhausted) (.gives m q)

/-- Levels around one cause keep its root, whatever they say. -/
theorem root_enclosed (message message' : String) (r r' : Reader) (cause : Failure) :
    (cause.enclose message r).root = (cause.enclose message' r').root := by
  rw [Failure.root_enclose, Failure.root_enclose]

/-! ## One match of all operands -/

/-- A chain settles on what its operands settle on, combined. -/
theorem Settles.combined {v : Verdict (α × List ((α → α → α) × α))}
    (h : S.Settles (operands name operand operator) r v)
    (combine : α → List ((α → α → α) × α) → α) :
    S.Settles (do
      let start ← Run.position
      let (first, ops) ← operands name operand operator
      return ⟨combine first ops, ⟨start, ← Run.position⟩⟩) r
      ((v.map fun read => combine read.1 read.2).since r.position) :=
  (settles_look Reader.position r).bind (h.since _ r.position)

theorem settles_chainLeft {v : Verdict (α × List ((α → α → α) × α))}
    (h : S.Settles (operands "Chainl1" operand operator) r v) :
    S.Settles (chainLeft operand operator).run r
      ((v.map fun read => combineLeft read.1 read.2).since r.position) :=
  h.combined combineLeft

theorem settles_chainRight {v : Verdict (α × List ((α → α → α) × α))}
    (h : S.Settles (operands "Chainr1" operand operator) r v) :
    S.Settles (chainRight operand operator).run r
      ((v.map fun read => combineRight read.1 read.2).since r.position) :=
  h.combined combineRight

/-! ## The rounds of chains and lists -/

/-- The rounds of a list are those of a chain without the operators. -/
theorem delimited_of_operated {β : Type} {delimiter : Parser β} {ops : List (β × α)}
    (rounds : Rounds (Advancing (S.Operated operand delimiter)) u ops q) :
    Rounds (S.Delimited operand delimiter) u (ops.map Prod.snd) q := by
  refine rounds.map Prod.snd fun {_ c _} round => ?_
  obtain ⟨⟨w, found, taken⟩, further⟩ := round
  exact ⟨⟨c.1, w, found, taken⟩, further⟩

section AllRounds

variable {ops : List ((α → α → α) × α)} (hr : S.readers r) (first : S.Takes operand r a u)
  (rounds : Rounds (Advancing (S.Operated operand operator)) u ops q)
include hr first rounds

/-- Both chains: the first operand, the rounds, and then what is done where they end. -/
theorem settles_chains {left right : Verdict (List ((α → α → α) × α))}
    (stopLeft : ∀ n, S.Settles (operations "Chainl1" operand operator r.position (n + 1)) q left)
    (stopRight : ∀ n,
      S.Settles (operations "Chainr1" operand operator r.position (n + 1)) q right) :
    S.Settles (chainLeft operand operator).run r
        ((left.map fun rest => combineLeft a (ops ++ rest)).since r.position) ∧
      S.Settles (chainRight operand operator).run r
        ((right.map fun rest => combineRight a (ops ++ rest)).since r.position) := by
  have behind := first.on (.refl hr)
  have all {name : String} {v : Verdict (List ((α → α → α) × α))}
      (stop : ∀ n, S.Settles (operations name operand operator r.position (n + 1)) q v) :=
    first.settles_operands hr
      (Setting.settles_operations hr behind rounds stop (Nat.lt_succ_self _))
  have chainLeft := settles_chainLeft (all stopLeft)
  have chainRight := settles_chainRight (all stopRight)
  rw [Verdict.map_map, Verdict.map_map] at chainLeft chainRight
  exact ⟨chainLeft, chainRight⟩

end AllRounds

/-- Behind the first operand the cases are those of the place where the rounds end. -/
theorem Takes.chainsAlike (first : S.Takes operand r a u) (hr : S.readers r)
    (hoperand : operand.Dependable S) (hoperator : operator.Dependable S)
    (hstore : S.stores store) :
    ∃ left right list, S.Settles (chainLeft operand operator).run r left ∧
      S.Settles (chainRight operand operator).run r right ∧
      S.Settles (sepBy operand operator).run r list ∧
      S.ChainsAlike operand operator r left right list := by
  have behind := first.on (.refl hr)
  obtain ⟨ops, q, rounds, on, last⟩ := exists_roundsEnd hoperand hoperator behind hstore
  have operated : Rounds (S.Operated operand operator) u ops q := rounds.mono And.left
  have listed := delimited_of_operated rounds
  cases last with
  | none refused =>
    have stop name := refused.settles_operations on.reader name operand r.position
    obtain ⟨left, right⟩ := settles_chains hr first rounds (stop _) (stop _)
    have list := settles_sepBy hr first listed
      (refused.settles_delimitedItems on.reader operand r.position)
    refine ⟨_, _, _, left, right, list, ?_⟩
    simp only [Verdict.map, Verdict.bind, Verdict.since, List.append_nil]
    exact .whole first operated
  | dangling found refused =>
    have stop name := found.operations_fails hr on refused name
    obtain ⟨left, right⟩ := settles_chains hr first rounds (stop _) (stop _)
    have list := settles_sepBy hr first listed (found.delimitedItems_fails hr on refused)
    exact ⟨_, _, _, left, right, list, .undone (root_enclosed ..) (root_enclosed ..)⟩
  | halts halted =>
    have stop name := halted.settles_operations on.reader name operand r.position
    obtain ⟨left, right⟩ := settles_chains hr first rounds (stop _) (stop _)
    have list := settles_sepBy hr first listed
      (halted.settles_delimitedItems on.reader operand r.position)
    exact ⟨_, _, _, left, right, list, .halted (.inr (halted.haltsBehind on hstore))⟩
  | haltsBehind found halted =>
    have stop name := found.operations_halts hr on halted name
    obtain ⟨left, right⟩ := settles_chains hr first rounds (stop _) (stop _)
    have list := settles_sepBy hr first listed (found.delimitedItems_halts hr on halted)
    exact ⟨_, _, _, left, right, list, .halted (.inl (halted.haltsBehind (found.on on) hstore))⟩
  | idles idles =>
    have stalls : S.Stalls operand operator q := ⟨[], q, .none, idles⟩
    have stop name n := stalls.settles_operations hr on name (n + 1)
    obtain ⟨left, right⟩ := settles_chains hr first rounds (stop _) (stop _)
    obtain ⟨b, x, found, taken⟩ := idles
    have list := settles_sepBy hr first listed (found.settles_delimitedItems_idle taken hr on)
    exact ⟨_, _, _, left, right, list, .endless first ⟨ops, q, operated, b, x, found, taken⟩⟩

theorem chainsAlike (hoperand : operand.Dependable S) (hoperator : operator.Dependable S)
    (hr : S.readers r) (hstore : S.stores store) :
    ∃ left right list, S.Settles (chainLeft operand operator).run r left ∧
      S.Settles (chainRight operand operator).run r right ∧
      S.Settles (sepBy operand operator).run r list ∧
      S.ChainsAlike operand operator r left right list := by
  cases goes hoperand hr hstore with
  | takes first => exact first.chainsAlike hr hoperand hoperator hstore
  | refuses refused =>
    have all name := refused.settles_operands hr name operator
    have list := refused.settles_sepBy hr operator
    exact ⟨_, _, _, settles_chainLeft (all _), settles_chainRight (all _), list,
      .undone (root_enclosed ..) (root_enclosed ..)⟩
  | halts halted =>
    have all name := halted.settles_operands hr name operator
    have list := halted.settles_sepBy hr operator
    exact ⟨_, _, _, settles_chainLeft (all _), settles_chainRight (all _), list,
      .halted (.inl (halted.haltsBehind (.refl hr) hstore))⟩

end Setting

/-- Where a chain ends, a list of its operands with the operators for delimiters does too. Either
all take the same, the items of the list being the operands, or all are undone for the same root
cause. If it does not end, a part halts, or rounds lead to a place where a round takes nothing. -/
theorem Parser.chains_sepBy_alike (hoperand : operand.Dependable S)
    (hoperator : operator.Dependable S) {s : State} (hs : S.Holds s) :
    S.ChainsAlike operand operator s.reader ((chainLeft operand operator).run s).verdict
      ((chainRight operand operator).run s).verdict ((sepBy operand operator).run s).verdict := by
  obtain ⟨left, right, list, leftSettles, rightSettles, listSettles, alike⟩ :=
    Setting.chainsAlike hoperand hoperator hs.reader hs.store
  rw [leftSettles.verdict hs, rightSettles.verdict hs, listSettles.verdict hs]
  exact alike

/-- Words with commas behind each but the last, which is empty; the list of them shows what the
chains combine. -/
theorem Parser.words_chained_by_commas :
    let word := (Grammar.takeWhile "word" Char.isAlpha).toParser []
    let comma := ((Grammar.codePoint "," ',').toParser []).recast Value.operation
    let s : State := ⟨Reader.startAt ['é', 'a', ',', 'b', ',', ';'] ⟨2, 1, 2⟩, .empty⟩
    let q : Reader := Reader.startAt ['é', 'a', ',', 'b', ',', ';'] ⟨6, 1, 6⟩
    word.Dependable .undropped ∧ comma.Dependable .undropped ∧ Setting.undropped.Holds s ∧
      Setting.undropped.ChainsAlike word comma s.reader
        (.gives ⟨.operation (.char ',') (.operation (.char ',') (.text ['a']) (.text ['b']))
          (.text []), ⟨⟨2, 1, 2⟩, ⟨6, 1, 6⟩⟩⟩ q)
        (.gives ⟨.operation (.char ',') (.text ['a']) (.operation (.char ',') (.text ['b'])
          (.text [])), ⟨⟨2, 1, 2⟩, ⟨6, 1, 6⟩⟩⟩ q)
        (.gives ⟨[.text ['a'], .text ['b'], .text []], ⟨⟨2, 1, 2⟩, ⟨6, 1, 6⟩⟩⟩ q) := by
  intro word comma s q
  have letters : ∀ label accepts, (Grammar.takeWhile label accepts).Plain := fun _ _ =>
    .leaf nofun rfl
  have one : ∀ label c, (Grammar.codePoint label c).Plain := fun _ _ => .leaf nofun rfl
  have hword : word.Dependable .undropped := (letters _ _).dependable []
  have hcomma : comma.Dependable .undropped := ((one _ _).dependable []).recast _
  have boundary : s.reader.OnBoundary := by decide
  have hs : Setting.undropped.Holds s := ⟨boundary, rfl⟩
  exact ⟨hword, hcomma, hs, chains_sepBy_alike hword hcomma hs⟩

end RecursiveDescent
