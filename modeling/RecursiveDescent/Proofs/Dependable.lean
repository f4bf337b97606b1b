import RecursiveDescent.Proofs.Apart
import RecursiveDescent.Proofs.Settling
import RecursiveDescent.Proofs.Yielding

/-!
# Dependable parsers

A parser can be depended upon if it keeps the contract of parsers and does the same each time it is
run from one place. From every place it then goes in one of three ways, which settle what the
combinators make of it. All grammars without parsers of one's own are dependable, wherever a symbol
begins and as long as no rule was dropped.
-/
namespace RecursiveDescent

variable {α β : Type} {S : Setting}

/-- What is asked of a parser among the readers and the stores of a setting. -/
structure Parser.Dependable (S : Setting) (p : Parser α) : Prop where
  deterministic {r : Reader} {store store' : Store} :
    S.readers r → S.stores store → S.stores store' →
      (p.run ⟨r, store⟩).verdict = (p.run ⟨r, store'⟩).verdict
  /-- A match covers what was taken, and leaves the reader as it was if that is nothing; a failure
  does so in any case. That a match of nothing leaves the reader as it was is more than
  `Parser.KeepsContract` asks. It leaves out the parsers that make up a position: those that match
  at the offset where they began and put the reader in another line or column, where no reader gets
  by moving. No combinator does so. -/
  contract {s : State} : S.Holds s →
    match p.run s with
    | .ok m t =>
      S.readers t.reader ∧ t.reader.input = s.reader.input ∧
        m.span = ⟨s.reader.position, t.reader.position⟩ ∧ s.reader.offset ≤ t.reader.offset ∧
        (m.span.isEmpty = true → t.reader = s.reader)
    | .failed _ t => t.reader = s.reader
    | .halted _ _ => True
  stores {s : State} : S.Holds s → S.stores (p.run s).state.store

/-- The contract alone, from the states of a setting. -/
structure Parser.Abides (S : Setting) (p : Parser α) : Prop where
  of_ok {s t : State} {m : Match α} : S.Holds s → p.run s = .ok m t →
    S.Holds t ∧ t.reader.input = s.reader.input ∧
      m.span = ⟨s.reader.position, t.reader.position⟩
  of_failed {s t : State} {f : Failure} : S.Holds s → p.run s = .failed f t →
    t.reader = s.reader

theorem Parser.Dependable.abides {p : Parser α} (h : p.Dependable S) : p.Abides S where
  of_ok {s t m} hs ran := by
    have contract := h.contract hs
    have stores := h.stores hs
    rw [ran] at contract stores
    exact ⟨⟨contract.1, stores⟩, contract.2.1, contract.2.2.1⟩
  of_failed {s t f} hs ran := by
    have contract := h.contract hs
    rw [ran] at contract
    exact contract

def Parser.SucceedsAt (p : Parser α) (s : State) : Prop :=
  ∃ m t, p.run s = .ok m t

/-- The parser itself halts for that cause, at `start` or further on in the text. -/
def Parser.HaltsBehind (S : Setting) (p : Parser α) (start : Reader) (cause : Halt) : Prop :=
  ∃ s t, S.On start s.reader ∧ S.stores s.store ∧ p.run s = .halted cause t

namespace Setting

/-- Whatever the store, the parser matches what is between the readers. -/
structure Takes (S : Setting) (p : Parser α) (r : Reader) (a : α) (r' : Reader) : Prop where
  settles : S.Settles p.run r (.gives ⟨a, ⟨r.position, r'.position⟩⟩ r')
  reader : S.readers r'
  input : r'.input = r.input
  forward : r.offset ≤ r'.offset
  idle : r'.offset = r.offset → r' = r

def Refuses (S : Setting) (p : Parser α) (r : Reader) (f : Failure) : Prop :=
  S.Settles p.run r (.fails f r)

def HaltsAt (S : Setting) (p : Parser α) (r : Reader) (cause : Halt) : Prop :=
  S.Settles p.run r (.halts cause)

inductive Goes (S : Setting) (p : Parser α) (r : Reader) : Prop
  | takes {a : α} {r' : Reader} : S.Takes p r a r' → Goes S p r
  | refuses {f : Failure} : S.Refuses p r f → Goes S p r
  | halts {cause : Halt} : S.HaltsAt p r cause → Goes S p r

theorem settles_verdict {p : Parser α} (h : p.Dependable S) {r : Reader} (hr : S.readers r)
    {store : Store} (hstore : S.stores store) : S.Settles p.run r (p.run ⟨r, store⟩).verdict :=
  fun _ hother => ⟨h.deterministic hr hother hstore, h.stores ⟨hr, hother⟩⟩

/-- What is taken once is taken whatever the store. -/
theorem takes_of_ok {p : Parser α} (h : p.Dependable S) {s t : State} (hs : S.Holds s)
    {m : Match α} (ran : p.run s = .ok m t) : S.Takes p s.reader m.value t.reader := by
  have settles := settles_verdict h hs.reader hs.store
  have contract := h.contract hs
  rw [ran] at settles contract
  obtain ⟨reader, input, span, forward, idle⟩ := contract
  obtain ⟨a, _⟩ := m
  obtain rfl : _ = _ := span
  exact ⟨settles, reader, input, forward,
    fun same => idle ((Span.isEmpty_iff forward).mpr same)⟩

/-- From every place a dependable parser goes in one of the three ways. -/
theorem goes {p : Parser α} (h : p.Dependable S) {r : Reader} (hr : S.readers r) {store : Store}
    (hstore : S.stores store) : S.Goes p r := by
  have settles := settles_verdict h hr hstore
  have contract := h.contract (s := ⟨r, store⟩) ⟨hr, hstore⟩
  cases hrun : p.run ⟨r, store⟩ with
  | ok m t => exact .takes (takes_of_ok h ⟨hr, hstore⟩ hrun)
  | failed f t =>
    rw [hrun] at settles contract
    obtain rfl : t.reader = r := contract
    exact .refuses settles
  | halted cause t =>
    rw [hrun] at settles
    exact .halts settles

theorem Takes.eq_of_not_lt {p : Parser α} {r r' : Reader} {a : α} (h : S.Takes p r a r')
    (nothing : ¬ r.offset < r'.offset) : r' = r :=
  h.idle (Nat.le_antisymm (Nat.le_of_not_lt nothing) h.forward)

/-- What takes a byte or more reports a span that is not empty. -/
theorem Takes.isEmpty_span {p : Parser α} {r r' : Reader} {a : α} (h : S.Takes p r a r')
    (further : r.offset < r'.offset) : (Span.mk r.position r'.position).isEmpty = false := by
  have forward : r.position.offset ≤ r'.position.offset := h.forward
  refine Bool.eq_false_iff.mpr fun empty => ?_
  have stood : r'.offset = r.offset := (Span.isEmpty_iff forward).mp empty
  omega

section Combinators

variable {p : Parser α} {d : Parser β} {r r' u : Reader} {a : α} {b : β} {f : Failure}
  {cause : Halt}

theorem HaltsAt.haltsBehind {start : Reader} (h : S.HaltsAt p r cause) (hr : S.On start r)
    {store : Store} (hstore : S.stores store) : p.HaltsBehind S start cause :=
  ⟨⟨r, store⟩, _, hr, hstore, Outcome.eq_halted_of_verdict (h store hstore).1⟩

theorem Settles.succeedsAt {m : Match α} (h : S.Settles p.run r (.gives m r')) {store : Store}
    (hstore : S.stores store) : p.SucceedsAt ⟨r, store⟩ := by
  obtain ⟨store', ran, -⟩ := h.exists_ok hstore
  exact ⟨m, _, ran⟩

theorem Refuses.not_succeedsAt (h : S.Refuses p r f) {store : Store} (hstore : S.stores store) :
    ¬ p.SucceedsAt ⟨r, store⟩ := by
  obtain ⟨store', ran, -⟩ := Settles.exists_failed h hstore
  rintro ⟨m, t, succeeds⟩
  rw [ran] at succeeds
  cases succeeds

/-! ## One parser after the other -/

/-- Behind a match the pair goes as the second parser does from there. -/
theorem Takes.settles_andThen {γ : Type} {q : Parser γ} (hd : S.Takes d r b u) (hr : S.readers r)
    {v : Verdict (Match γ)} (hq : S.Settles q.run u v) (onText : v.OnText r.input) :
    S.Settles (Parser.andThen d q).run r
      ((v.enclosed r "Right of Then failed").map fun m =>
        ⟨(b, m.value), ⟨r.position, m.next⟩⟩) := by
  have inText := S.inText hr
  refine (settles_look Reader.position r).bind ?_
  refine (hd.settles.enclosing inText hd.input "Left of Then failed").bind ?_
  exact (hq.enclosing inText onText "Right of Then failed").map _

theorem Refuses.settles_andThen {γ : Type} {q : Parser γ} (hd : S.Refuses d r f)
    (hr : S.readers r) :
    S.Refuses (Parser.andThen d q) r (f.enclose "Left of Then failed" r) := by
  refine (settles_look Reader.position r).bind ?_
  exact (Settles.enclosing (S.inText hr) hd rfl "Left of Then failed").bind_fails

theorem HaltsAt.settles_andThen {γ : Type} {q : Parser γ} (hd : S.HaltsAt d r cause)
    (hr : S.readers r) : S.HaltsAt (Parser.andThen d q) r cause := by
  refine (settles_look Reader.position r).bind ?_
  exact (Settles.enclosing (S.inText hr) hd trivial "Left of Then failed").bind_halts

theorem Settles.settles_snd {pair : Parser (α × β)} {v : Verdict (Match (α × β))}
    (h : S.Settles pair.run r v) (hr : S.readers r) (onText : v.OnText r.input) :
    S.Settles (Parser.snd pair).run r
      ((v.enclosed r "KeepRight failed.").map (Match.map Prod.snd)) := by
  refine (settles_look Reader.position r).bind ?_
  exact (h.enclosing (S.inText hr) onText "KeepRight failed.").map _

/-- A delimiter and what is behind it, as one parser that keeps the latter. -/
theorem Takes.after (hp : S.Takes p u a r') (hd : S.Takes d r b u) (hr : S.readers r) :
    S.Takes (Parser.snd (Parser.andThen d p)) r a r' where
  settles := (hd.settles_andThen hr hp.settles (hp.input.trans hd.input)).settles_snd hr
    (hp.input.trans hd.input)
  reader := hp.reader
  input := hp.input.trans hd.input
  forward := Nat.le_trans hd.forward hp.forward
  idle same := by
    have stood : u = r := hd.idle (Nat.le_antisymm (same ▸ hp.forward) hd.forward)
    subst stood
    exact hp.idle same

theorem Refuses.after (hp : S.Refuses p u f) (hd : S.Takes d r b u) (hr : S.readers r) :
    ∃ g, S.Refuses (Parser.snd (Parser.andThen d p)) r g :=
  ⟨_, (hd.settles_andThen hr hp hd.input).settles_snd hr rfl⟩

theorem HaltsAt.after (hp : S.HaltsAt p u cause) (hd : S.Takes d r b u) (hr : S.readers r) :
    S.HaltsAt (Parser.snd (Parser.andThen d p)) r cause :=
  (hd.settles_andThen hr hp trivial).settles_snd hr trivial

theorem Refuses.before (hd : S.Refuses d r f) (hr : S.readers r) (p : Parser α) :
    ∃ g, S.Refuses (Parser.snd (Parser.andThen d p)) r g :=
  ⟨_, Settles.settles_snd (hd.settles_andThen hr) hr rfl⟩

theorem HaltsAt.before (hd : S.HaltsAt d r cause) (hr : S.readers r) (p : Parser α) :
    S.HaltsAt (Parser.snd (Parser.andThen d p)) r cause :=
  Settles.settles_snd (hd.settles_andThen hr) hr trivial

/-! ## Negative lookahead -/

/-- The guard takes nothing where the other parser fails. -/
theorem Refuses.takes_notAhead (hd : S.Refuses d r f) (hr : S.readers r) (label : String) :
    S.Takes (Parser.notAhead label d) r () r where
  settles := by
    refine (settles_look Reader.position r).bind ?_
    exact (Settles.lookAhead (S.inText hr) hd rfl).bind (settles_pure _ r)
  reader := hr
  input := rfl
  forward := Nat.le_refl _
  idle _ := rfl

/-- What can be read is refused where it must not be ahead. -/
theorem Takes.refuses_notAhead (hd : S.Takes d r b u) (hr : S.readers r) (label : String) :
    ∃ g, S.Refuses (Parser.notAhead label d) r g := by
  have ahead := hd.settles.lookAhead (S.inText hr) hd.input
  exact ⟨_, (settles_look Reader.position r).bind
    (ahead.bind ((settles_look Reader.input r).bind (settles_failHere _ _ _ r)))⟩

theorem HaltsAt.halts_notAhead (hd : S.HaltsAt d r cause) (hr : S.readers r) (label : String) :
    S.HaltsAt (Parser.notAhead label d) r cause := by
  refine (settles_look Reader.position r).bind ?_
  exact (Settles.lookAhead (S.inText hr) hd trivial).bind_halts

end Combinators

end Setting

/-! ## The same with another value -/

theorem Parser.run_recast (p : Parser α) (f : α → β) (s : State) :
    (p.recast f).run s = match p.run s with
      | .ok m t => .ok (m.map f) t
      | .failed g t => .failed g t
      | .halted cause t => .halted cause t := by
  change (p.run >>= fun m => pure (m.map f)) s = _
  rw [Run.bind_apply]
  cases p.run s <;> rfl

theorem Parser.verdict_recast (p : Parser α) (f : α → β) (s : State) :
    ((p.recast f).run s).verdict = (p.run s).verdict.map (Match.map f) := by
  rw [run_recast]
  cases p.run s <;> rfl

/-- To change the values of a parser takes nothing from what can be depended upon. -/
theorem Parser.Dependable.recast {p : Parser α} (h : p.Dependable S) (f : α → β) :
    (p.recast f).Dependable S where
  deterministic hr hstore hstore' := by
    rw [p.verdict_recast, p.verdict_recast, h.deterministic hr hstore hstore']
  contract {s} hs := by
    have contract := h.contract hs
    rw [p.run_recast]
    cases hrun : p.run s <;> rw [hrun] at contract <;> exact contract
  stores {s} hs := by
    have stores := h.stores hs
    rw [p.run_recast]
    cases hrun : p.run s <;> rw [hrun] at stores <;> exact stores

/-! ## Dependable grammars -/

/-- The readers at the beginning of a symbol, and the stores from which no rule was dropped. -/
def Setting.undropped : Setting where
  readers := Reader.OnBoundary
  stores store := store.dropped = []
  inText := Reader.OnBoundary.offset_le

theorem Outcome.Alike.verdict {o o' : Outcome α} (h : o.Alike o') : o.verdict = o'.verdict := by
  cases h <;> rfl

namespace Grammar

variable {g : Grammar}

theorem Plain.storeBlind (hg : g.Plain) : g.StoreBlind := by
  induction hg with
  | node own _ ih => exact .node (fun p here => absurd here (own p)) ih

/-- Grammars without parsers of one's own can be depended upon. -/
theorem Plain.dependable (hg : g.Plain) (node : NodeId) :
    (g.toParser node).Dependable .undropped where
  deterministic _ undropped undropped' :=
    (Parser.alike_of_undropped (hg.storeBlind.corresponds node) _ undropped undropped').verdict
  contract {s} hs := by
    have governs := Discipline.governs_toParser (D := .contract) plain_leaf hg node s hs.reader
    rw [Run.Ends] at governs
    cases hrun : (g.toParser node).run s with
    | ok m t =>
      rw [hrun] at governs
      obtain ⟨walk, exact_span⟩ := governs
      have span := exact_span trivial
      refine ⟨walk.onBoundary hs.reader, walk.input, span, walk.offset_le, fun empty => ?_⟩
      rw [span] at empty
      exact walk.eq_of_offset ((Span.isEmpty_iff walk.offset_le).mp empty)
    | failed f t =>
      rw [hrun] at governs
      exact governs.1
    | halted cause t => trivial
  stores {s} hs := (hg.storeBlind.grows_toParser node s).1.trans hs.store

end Grammar

end RecursiveDescent
