import RecursiveDescent.Parser.Repeat
import RecursiveDescent.Proofs.Dependable

/-!
# Rounds of repetitions

Each repetition goes in rounds that take a byte or more, up to a reader from which there is no such
round. What it settles on is then known from what it does there, and so two repetitions with the
same rounds are compared where these end.
-/
namespace RecursiveDescent

variable {α β : Type} {S : Setting} {start r r' q : Reader} {a : α} {as : List α}

inductive Rounds (round : Reader → α → Reader → Prop) : Reader → List α → Reader → Prop
  | none {r : Reader} : Rounds round r [] r
  | more {r r' q : Reader} {a : α} {as : List α} :
    round r a r' → Rounds round r' as q → Rounds round r (a :: as) q

theorem Rounds.map {round : Reader → α → Reader → Prop} {round' : Reader → β → Reader → Prop}
    (f : α → β) (each : ∀ {r a r'}, round r a r' → round' r (f a) r') (h : Rounds round r as q) :
    Rounds round' r (as.map f) q := by
  induction h with
  | none => exact .none
  | more taken _ ih => exact .more (each taken) ih

theorem Rounds.mono_of_mem {round round' : Reader → α → Reader → Prop} (h : Rounds round r as q)
    (each : ∀ {r a r'}, a ∈ as → round r a r' → round' r a r') : Rounds round' r as q := by
  induction h with
  | none => exact .none
  | more taken _ ih =>
    exact .more (each List.mem_cons_self taken) (ih fun mem => each (List.mem_cons_of_mem _ mem))

theorem Rounds.mono {round round' : Reader → α → Reader → Prop}
    (each : ∀ {r a r'}, round r a r' → round' r a r') (h : Rounds round r as q) :
    Rounds round' r as q :=
  h.mono_of_mem fun _ => each

def Advancing (round : Reader → α → Reader → Prop) (r : Reader) (a : α) (r' : Reader) : Prop :=
  round r a r' ∧ r.offset < r'.offset

namespace Setting

theorem Takes.on {p : Parser α} (h : S.Takes p r a r') (hr : S.On start r) : S.On start r' :=
  ⟨h.reader, h.input.trans hr.input, Nat.le_trans hr.further h.forward⟩

/-- The rounds lead on in the text, by a byte or more. -/
structure Onward (S : Setting) (start : Reader) (round : Reader → α → Reader → Prop) : Prop where
  on {r r' : Reader} {a : α} : S.On start r → round r a r' → S.On start r'
  shorter {r r' : Reader} {a : α} : S.On start r → round r a r' → r'.bytesLeft < r.bytesLeft

/-- A round that takes something leaves fewer bytes for the next. -/
theorem Takes.shorter {p : Parser α} (h : S.Takes p r a r') (further : r.offset < r'.offset) :
    r'.bytesLeft < r.bytesLeft := by
  have inText := S.inText h.reader
  rw [h.input] at inText
  rw [Reader.bytesLeft, Reader.bytesLeft, h.input]
  omega

variable {round : Reader → α → Reader → Prop}

theorem onward_advancing (on : ∀ {r r' a}, S.On start r → round r a r' → S.On start r') :
    S.Onward start (Advancing round) where
  on hr advancing := on hr advancing.1
  shorter {r r' _} hr advancing := by
    have hr' := on hr advancing.1
    have inText := S.inText hr'.reader
    have further := advancing.2
    rw [Reader.bytesLeft, Reader.bytesLeft, hr.input, hr'.input]
    rw [hr'.input] at inText
    omega

/-- The rounds lead to where none is possible any more. -/
theorem Onward.exists_rounds (h : S.Onward start round) (hr : S.On start r) :
    ∃ as q, Rounds round r as q ∧ S.On start q ∧ ∀ a q', ¬ round q a q' := by
  -- By induction on the bytes ahead, of which each round leaves fewer.
  induction hn : r.bytesLeft using Nat.strongRecOn generalizing r with
  | _ n ih =>
    by_cases more : ∃ a r', round r a r'
    · obtain ⟨a, r', taken⟩ := more
      obtain ⟨as, q, rounds, hq, last⟩ := ih _ (hn ▸ h.shorter hr taken) (h.on hr taken) rfl
      exact ⟨a :: as, q, .more taken rounds, hq, last⟩
    · exact ⟨[], r, .none, hr, fun a q' taken => more ⟨a, q', taken⟩⟩

/-- A loop does its rounds, and then what it does where these end. -/
theorem Onward.settles {loop : Nat → Run (List α)} {v : Verdict (List α)}
    (h : S.Onward start round)
    (step : ∀ {r a r'} n v, S.On start r → round r a r' → S.Settles (loop n) r' v →
      S.Settles (loop (n + 1)) r (v.map (a :: ·)))
    (stop : ∀ n, S.Settles (loop (n + 1)) q v) (hr : S.On start r) (rounds : Rounds round r as q)
    {n : Nat} (enough : r.bytesLeft < n) : S.Settles (loop n) r (v.map (as ++ ·)) := by
  -- The loop may do more rounds than there are bytes ahead, so its budget is not spent before.
  induction rounds generalizing n with
  | none =>
    cases n with
    | zero => omega
    | succ n =>
      have stopped := stop n
      rw [← v.map_id] at stopped
      exact stopped
  | more taken _ ih =>
    cases n with
    | zero => omega
    | succ n =>
      have shorter := h.shorter hr taken
      have later := ih stop (h.on hr taken) (Nat.lt_of_lt_of_le shorter (Nat.le_of_lt_succ enough))
      have settled := step n _ hr taken later
      rw [Verdict.map_map] at settled
      exact settled

end Setting

/-- A match of all that was taken since `start`. -/
def Verdict.since (start : Position) (v : Verdict α) : Verdict (Match α) :=
  v.bind fun a r => .gives ⟨a, ⟨start, r.position⟩⟩ r

namespace Setting

theorem Settles.since {run : Run α} {v : Verdict α} (h : S.Settles run r v) (f : α → β)
    (start : Position) :
    S.Settles (run >>= fun a => Run.position >>= fun stop => pure ⟨f a, ⟨start, stop⟩⟩) r
      ((v.map f).since start) := by
  cases v with
  | gives a r' => exact h.bind ((settles_look Reader.position r').bind (settles_pure _ r'))
  | fails g r' => exact h.bind_fails
  | halts cause => exact h.bind_halts

/-- The values of a loop with a round more than there are bytes ahead, as one match. -/
theorem Onward.settles_match {round : Reader → α → Reader → Prop} {v : Verdict (List α)}
    (h : S.Onward r round) (loop : Position → Nat → Run (List α))
    (step : ∀ {u a u'} n v, S.On r u → round u a u' → S.Settles (loop r.position n) u' v →
      S.Settles (loop r.position (n + 1)) u (v.map (a :: ·)))
    (stop : ∀ n, S.Settles (loop r.position (n + 1)) q v) (hr : S.readers r)
    (rounds : Rounds round r as q) :
    S.Settles (do
      let start ← Run.position
      let values ← loop start (← Run.rounds)
      return ⟨values, ⟨start, ← Run.position⟩⟩) r ((v.map (as ++ ·)).since r.position) := by
  have all := h.settles step stop (.refl hr) rounds (Nat.lt_succ_self _)
  have whole := all.since id r.position
  rw [Verdict.map_id] at whole
  exact (settles_look Reader.position r).bind ((settles_look (·.bytesLeft + 1) r).bind whole)

end Setting

/-! ## Zero or more -/

open RecursiveDescent.Parser

namespace Setting

variable {item : Parser α} {f : Failure} {cause : Halt}

/-- One more item in front of what the later rounds give. -/
theorem Takes.settles_items (h : S.Takes item r a r') (hr : S.readers r)
    (further : r.offset < r'.offset) {n : Nat} {v : Verdict (List α)}
    (later : S.Settles (items item n) r' v) :
    S.Settles (items item (n + 1)) r (v.map (a :: ·)) := by
  have taken := h.settles.orNothing (S.inText hr) h.input
  refine (settles_look Reader.position r).bind (taken.bind ?_)
  simp only [h.isEmpty_span further]
  exact later.map _

theorem Takes.settles_items_idle (h : S.Takes item r a r) (hr : S.readers r) (n : Nat) :
    S.Settles (items item (n + 1)) r (.gives [a] r) := by
  have taken := h.settles.orNothing (S.inText hr) h.input
  refine (settles_look Reader.position r).bind (taken.bind ?_)
  have none_taken : (Span.mk r.position r.position).isEmpty = true := Span.isEmpty_empty _
  simp only [none_taken]
  exact settles_pure _ r

/-- An item that is refused ends the items with nothing more. -/
theorem Refuses.settles_items (h : S.Refuses item r f) (hr : S.readers r) (n : Nat) :
    S.Settles (items item (n + 1)) r (.gives [] r) := by
  have refused := Settles.orNothing (S.inText hr) h rfl
  exact (settles_look Reader.position r).bind (refused.bind (settles_pure _ r))

theorem HaltsAt.settles_items (h : S.HaltsAt item r cause) (hr : S.readers r) (n : Nat) :
    S.Settles (items item (n + 1)) r (.halts cause) := by
  have halted := Settles.orNothing (S.inText hr) h trivial
  exact (settles_look Reader.position r).bind halted.bind_halts

/-- A repetition of what takes a byte or more in each of the rounds. -/
theorem Onward.settles_many {round : Reader → α → Reader → Prop} {v : Verdict (List α)}
    (h : S.Onward r round)
    (takes : ∀ {u a u'}, S.On r u → round u a u' → S.Takes item u a u' ∧ u.offset < u'.offset)
    (stop : ∀ n, S.Settles (items item (n + 1)) q v) (hr : S.readers r)
    (rounds : Rounds round r as q) :
    S.Settles (many item).run r ((v.map (as ++ ·)).since r.position) :=
  h.settles_match (fun _ => items item) (fun _ _ hu taken later =>
    (takes hu taken).1.settles_items hu.reader (takes hu taken).2 later) stop hr rounds

end Setting

end RecursiveDescent
