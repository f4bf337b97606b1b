import RecursiveDescent.Proofs.Ending

/-!
# What runs settle on

A run from a reader settles on a verdict if it ends with it whatever is in the store, as long as the
store is one of those in question. Each operation of runs has one rule, so what a run settles on is
put together from what its parts settle on, and the store is not looked at again.
-/
namespace RecursiveDescent

/-- What a run tells, apart from the store it leaves. -/
inductive Verdict (α : Type) where
  | gives (value : α) (reader : Reader)
  | fails (failure : Failure) (reader : Reader)
  | halts (cause : Halt)

def Outcome.verdict {α : Type} : Outcome α → Verdict α
  | .ok a t => .gives a t.reader
  | .failed f t => .fails f t.reader
  | .halted cause _ => .halts cause

namespace Outcome

variable {α : Type} {o : Outcome α}

theorem eq_ok_of_verdict {a : α} {r : Reader} (h : o.verdict = .gives a r) :
    o = .ok a ⟨r, o.state.store⟩ := by
  cases o <;> cases h
  rfl

theorem eq_failed_of_verdict {f : Failure} {r : Reader} (h : o.verdict = .fails f r) :
    o = .failed f ⟨r, o.state.store⟩ := by
  cases o <;> cases h
  rfl

theorem eq_halted_of_verdict {cause : Halt} (h : o.verdict = .halts cause) :
    o = .halted cause o.state := by
  cases o <;> cases h
  rfl

end Outcome

namespace Verdict

variable {α β : Type}

def bind (v : Verdict α) (after : α → Reader → Verdict β) : Verdict β :=
  match v with
  | .gives a r => after a r
  | .fails f r => .fails f r
  | .halts cause => .halts cause

def map (f : α → β) (v : Verdict α) : Verdict β :=
  v.bind fun a r => .gives (f a) r

def observed : Verdict α → Verdict (Except Failure α)
  | .gives a r => .gives (.ok a) r
  | .fails f r => .gives (.error f) r
  | .halts cause => .halts cause

/-- What is told of a failure by a level around it, back at `start`. -/
def enclosed (start : Reader) (message : String) : Verdict α → Verdict α
  | .gives a r => .gives a r
  | .fails f _ => .fails (f.enclose message start) start
  | .halts cause => .halts cause

def orNothing (start : Reader) : Verdict α → Verdict (Option α)
  | .gives a r => .gives (some a) r
  | .fails _ _ => .gives none start
  | .halts cause => .halts cause

def lookAhead (start : Reader) : Verdict α → Verdict (Except Failure α)
  | .gives a _ => .gives (.ok a) start
  | .fails f _ => .gives (.error f) start
  | .halts cause => .halts cause

def OnText (t : Text) : Verdict α → Prop
  | .gives _ r | .fails _ r => r.input = t
  | .halts _ => True

theorem map_map {γ : Type} (f : α → β) (g : β → γ) (v : Verdict α) :
    (v.map f).map g = v.map (g ∘ f) := by
  cases v <;> rfl

theorem map_id (v : Verdict α) : v.map id = v := by
  cases v <;> rfl

section Enclosed

variable {v : Verdict α} {start r : Reader} {message : String}

@[simp]
theorem enclosed_eq_gives_iff {a : α} : v.enclosed start message = .gives a r ↔ v = .gives a r := by
  cases v with
  | gives a r => exact Iff.rfl
  | fails f r | halts cause => exact ⟨nofun, nofun⟩

/-- A failure below the new level, wherever it left the reader. -/
@[simp]
theorem enclosed_eq_fails_iff {g : Failure} : v.enclosed start message = .fails g r ↔
    (∃ f u, v = .fails f u ∧ g = f.enclose message start) ∧ r = start := by
  cases v with
  | fails f u =>
    constructor
    · rintro ⟨⟩
      exact ⟨⟨f, u, rfl, rfl⟩, rfl⟩
    · rintro ⟨⟨_, _, ⟨⟩, rfl⟩, rfl⟩
      rfl
  | gives a u | halts cause => exact ⟨nofun, fun h => nomatch h.1⟩

@[simp]
theorem enclosed_eq_halts_iff {cause : Halt} :
    v.enclosed start message = .halts cause ↔ v = .halts cause := by
  cases v with
  | halts cause => exact Iff.rfl
  | gives a r | fails f r => exact ⟨nofun, nofun⟩

end Enclosed

end Verdict

/-- The readers and the stores in question. -/
structure Setting where
  readers : Reader → Prop
  stores : Store → Prop
  inText {r : Reader} : readers r → r.offset ≤ r.input.byteLength

namespace Setting

variable {α β : Type} (S : Setting)

structure Holds (s : State) : Prop where
  reader : S.readers s.reader
  store : S.stores s.store

/-- A reader in question, at `start` or further on in the text. -/
structure On (start r : Reader) : Prop where
  reader : S.readers r
  input : r.input = start.input
  further : start.offset ≤ r.offset

/-- The run ends so from the reader, and leaves one of the stores. -/
def Settles (run : Run α) (r : Reader) (v : Verdict α) : Prop :=
  ∀ store, S.stores store →
    (run ⟨r, store⟩).verdict = v ∧ S.stores (run ⟨r, store⟩).state.store

variable {S} {run : Run α} {next : α → Run β} {r r' : Reader} {v : Verdict α} {w : Verdict β}
  {a : α} {f : Failure} {cause : Halt}

theorem On.refl (hr : S.readers r) : S.On r r :=
  ⟨hr, rfl, Nat.le_refl _⟩

theorem Settles.exists_ok (h : S.Settles run r (.gives a r')) {store : Store}
    (hstore : S.stores store) :
    ∃ store', run ⟨r, store⟩ = .ok a ⟨r', store'⟩ ∧ S.stores store' := by
  obtain ⟨verdict, kept⟩ := h store hstore
  exact ⟨_, Outcome.eq_ok_of_verdict verdict, kept⟩

theorem Settles.exists_failed (h : S.Settles run r (.fails f r')) {store : Store}
    (hstore : S.stores store) :
    ∃ store', run ⟨r, store⟩ = .failed f ⟨r', store'⟩ ∧ S.stores store' := by
  obtain ⟨verdict, kept⟩ := h store hstore
  exact ⟨_, Outcome.eq_failed_of_verdict verdict, kept⟩

theorem Settles.verdict {s : State} (h : S.Settles run s.reader v) (hs : S.Holds s) :
    (run s).verdict = v :=
  (h s.store hs.store).1

theorem Settles.ran {s : State} (h : S.Settles run s.reader (.gives a r')) (hs : S.Holds s) :
    ∃ store, run s = .ok a ⟨r', store⟩ ∧ S.stores store :=
  h.exists_ok hs.store

/-- A run settles on one verdict only. -/
theorem Settles.unique {v' : Verdict α} (h : S.Settles run r v) (h' : S.Settles run r v')
    {store : Store} (hstore : S.stores store) : v = v' :=
  (h store hstore).1.symm.trans (h' store hstore).1

theorem settles_pure (a : α) (r : Reader) : S.Settles (pure a) r (.gives a r) :=
  fun _ hstore => ⟨rfl, hstore⟩

/-- An operation that only looks at the reader. -/
theorem settles_look (f : Reader → α) (r : Reader) :
    S.Settles (fun s => .ok (f s.reader) s) r (.gives (f r) r) :=
  fun _ hstore => ⟨rfl, hstore⟩

theorem settles_fail (f : Failure) (r : Reader) :
    S.Settles (Run.fail f : Run α) r (.fails f r) :=
  fun _ hstore => ⟨rfl, hstore⟩

theorem settles_failHere (message expected found : String) (r : Reader) :
    S.Settles (Run.failHere message expected found : Run α) r
      (.fails (.here message expected found r) r) :=
  fun _ hstore => ⟨rfl, hstore⟩

theorem settles_rewind {start : Reader} (input : r.input = start.input)
    (inText : start.offset ≤ start.input.byteLength) :
    S.Settles (Run.rewind start.position) r (.gives () start) := by
  intro store hstore
  rw [Run.rewind_to input inText]
  exact ⟨rfl, hstore⟩

/-- What comes after depends on the verdict; the next three are its cases. -/
theorem Settles.bind_of (h : S.Settles run r v) (after : α → Reader → Verdict β)
    (hnext : ∀ a r', v = .gives a r' → S.Settles (next a) r' (after a r')) :
    S.Settles (run >>= next) r (v.bind after) := by
  intro store hstore
  obtain ⟨rfl, kept⟩ := h store hstore
  rw [Run.bind_apply]
  cases hrun : run ⟨r, store⟩ with
  | ok a t =>
    rw [hrun] at kept
    exact hnext a t.reader (by rw [hrun]; rfl) t.store kept
  | failed f t | halted cause t =>
    rw [hrun] at kept
    exact ⟨rfl, kept⟩

/-- A verdict in two steps. -/
theorem Settles.bind (h : S.Settles run r (.gives a r')) (hnext : S.Settles (next a) r' w) :
    S.Settles (run >>= next) r w := by
  refine h.bind_of (fun _ _ => w) ?_
  rintro _ _ ⟨⟩
  exact hnext

theorem Settles.bind_fails (h : S.Settles run r (.fails f r')) :
    S.Settles (run >>= next) r (.fails f r') :=
  h.bind_of (fun _ _ => .fails f r') nofun

theorem Settles.bind_halts (h : S.Settles run r (.halts cause)) :
    S.Settles (run >>= next) r (.halts cause) :=
  h.bind_of (fun _ _ => .halts cause) nofun

theorem settles_found (r : Reader) : S.Settles Run.found r (.gives r.found r) := by
  refine (settles_look id r).bind ?_
  rw [Reader.found]
  dsimp only [id]
  cases r.peek? <;> exact settles_pure _ r

theorem Settles.map (h : S.Settles run r v) (f : α → β) :
    S.Settles (run >>= fun a => pure (f a)) r (v.map f) :=
  h.bind_of _ fun a r' _ => settles_pure (f a) r'

theorem Settles.observe (h : S.Settles run r v) : S.Settles run.observe r v.observed := by
  intro store hstore
  obtain ⟨rfl, kept⟩ := h store hstore
  rw [Run.observe]
  cases hrun : run ⟨r, store⟩ <;> rw [hrun] at kept <;> exact ⟨rfl, kept⟩

/-! ## Going back -/

section GoingBack

variable {start : Reader} (inText : start.offset ≤ start.input.byteLength)
include inText

/-- A failure settles on a failure with one level more, back where the whole began. -/
theorem Settles.enclosing (h : S.Settles run r v) (hv : v.OnText start.input) (message : String) :
    S.Settles (run.enclosing start.position message) r (v.enclosed start message) := by
  cases v with
  | gives a r' => exact h.observe.bind (settles_pure _ _)
  | fails f r' =>
    refine h.observe.bind ((settles_rewind hv inText).bind ?_)
    exact (settles_look id start).bind (settles_fail _ _)
  | halts cause => exact h.observe.bind_halts

/-- A failure settles on nothing, back where the whole began. -/
theorem Settles.orNothing (h : S.Settles run r v) (hv : v.OnText start.input) :
    S.Settles (run.orNothing start.position) r (v.orNothing start) := by
  cases v with
  | gives a r' => exact h.observe.bind (settles_pure _ _)
  | fails f r' => exact h.observe.bind ((settles_rewind hv inText).bind (settles_pure _ _))
  | halts cause => exact h.observe.bind_halts

theorem Settles.lookAhead (h : S.Settles run r v) (hv : v.OnText start.input) :
    S.Settles (run.lookAhead start.position) r (v.lookAhead start) := by
  cases v with
  | gives a r' => exact h.observe.bind ((settles_rewind hv inText).bind (settles_pure _ _))
  | fails f r' => exact h.observe.bind ((settles_rewind hv inText).bind (settles_pure _ _))
  | halts cause => exact h.observe.bind_halts

end GoingBack

end Setting

end RecursiveDescent
