import RecursiveDescent.Proofs.Rounds
import RecursiveDescent.Proofs.Symbols

/-!
# The longest run

A run of accepted characters is measured first, and then taken as so many bytes. It is the longest
one there is, and the same as is taken by one accepted character after the other.
-/
namespace RecursiveDescent

open Text

variable {r r' : Reader} {s t : State} {walked other : Text} {accepts : Char → Bool} {c : Char}

namespace Reader

/-- Over one symbol, which is read as the character. -/
def ReadsOne (r : Reader) (c : Char) (r' : Reader) : Prop :=
  r.peek? = some c ∧ r.step? = some r'

/-- What is passed is read symbol by symbol. -/
theorem Passes.rounds (hb : r.OnBoundary) (h : r.Passes walked r') :
    Rounds ReadsOne r walked.read r' := by
  induction hn : walked.read.length generalizing r walked with
  | zero =>
    obtain rfl : walked = [] := read_eq_nil_iff.mp (List.length_eq_zero_iff.mp hn)
    rw [h.stands]
    exact .none
  | succ n ih =>
    have steps := (steps?_eq_some_iff hb).mpr ⟨walked, h, hn⟩
    obtain ⟨r₁, step, steps⟩ := Option.bind_eq_some_iff.mp steps
    obtain ⟨head, c, first, hc, peek⟩ := exists_passes_of_step? step
    obtain ⟨tail, later, count⟩ := (steps?_eq_some_iff (first.onBoundary hb)).mp steps
    obtain rfl : walked = head ++ tail :=
      List.append_cancel_right (h.ahead.symm.trans (first.trans later).ahead)
    rw [first.read_append later, hc]
    exact .more ⟨peek, step⟩ (ih (first.onBoundary hb) later count)

end Reader

/-- No longer beginning of whole symbols is accepted than one behind which nothing is. -/
theorem Text.prefix_of_refused {t : Text} (hw : walked.LeadsWhole t) (ho : other.LeadsWhole t)
    (all : ∀ c ∈ other.read, accepts c = true)
    (refused : ∀ rest, t = walked ++ rest → ∀ c, rest.read.head? = some c → ¬ accepts c = true) :
    other <+: walked := by
  rcases ho.total hw with ⟨rest, rfl, -⟩ | ⟨more, rfl, whole⟩
  · exact List.prefix_append other rest
  · obtain ⟨rest, ahead, whole'⟩ := ho
    cases more with
    | nil =>
      rewrite [List.append_nil]
      exact List.prefix_rfl
    | cons d more =>
      -- What the longer one goes on with is read first behind the shorter one.
      rw [splitsBreak_append (List.cons_ne_nil d more)] at whole'
      rw [List.append_assoc] at ahead
      obtain ⟨c, tail, hc⟩ : ∃ c tail, read (d :: more) = c :: tail := by
        refine List.exists_cons_of_ne_nil fun none => ?_
        exact List.cons_ne_nil d more (read_eq_nil_iff.mp none)
      have accepted : accepts c = true := by
        apply all
        rw [read_append whole, hc]
        exact List.mem_append_right _ List.mem_cons_self
      refine absurd accepted (refused _ ahead c ?_)
      rw [read_append whole', hc]
      rfl

namespace Setting

variable {S : Setting} {name : String}

theorem settles_takeSymbol (step : r.step? = some r') (expected : String) :
    S.Settles (Parser.takeSymbol expected) r (.gives ⟨r.position, r'.position⟩ r') := by
  obtain ⟨head, c, passes, hc, -⟩ := Reader.exists_passes_of_step? step
  intro store hstore
  have takes : Run.Takes ⟨r, store⟩ head ⟨r.position, r'.position⟩ ⟨r', store⟩ := ⟨passes, rfl, rfl⟩
  have taken := takes.take (Reader.onBoundary_of_step? step)
  rw [hc] at taken
  rw [Parser.takeSymbol, Run.bind_apply, show Run.take 1 ⟨r, store⟩ = _ from taken]
  exact ⟨rfl, hstore⟩

/-- A parser of one accepted character takes what is read as one. -/
theorem takes_satisfy (h : r.ReadsOne c r') (hr' : S.readers r') (accepted : accepts c = true) :
    S.Takes (Parser.satisfy name accepts) r c r' where
  settles := by
    refine (settles_look id r).bind ?_
    simp only [id, h.1, if_pos accepted]
    exact (settles_takeSymbol h.2 name).map (Match.mk c)
  reader := hr'
  input := (Reader.reaches_of_step? h.2).input
  forward := (Reader.reaches_of_step? h.2).offset_le
  idle same := absurd same (Nat.ne_of_gt (Reader.offset_lt_of_step? h.2))

theorem refuses_satisfy (name : String) (refused : ∀ c, r.peek? = some c → ¬ accepts c = true) :
    ∃ f, S.Refuses (Parser.satisfy name accepts) r f := by
  refine ⟨.here "Char parser with predicate failed." name r.found r, ?_⟩
  refine (settles_look id r).bind ?_
  rw [Reader.found]
  cases peek : r.peek? with
  | none =>
    simp only [id, peek]
    exact settles_failHere _ _ _ r
  | some c =>
    simp only [id, peek, if_neg (refused c peek)]
    exact settles_failHere _ _ _ r

/-- The readers at the beginning of a symbol, with a store that does not change. -/
def still (store : Store) : Setting where
  readers := Reader.OnBoundary
  stores := (· = store)
  inText := Reader.OnBoundary.offset_le

/-- One accepted character after the other is taken up to one that is refused. -/
theorem settles_many_satisfy (name : String) (hb : r.OnBoundary) (h : r.Passes walked r')
    (all : ∀ c ∈ walked.read, accepts c = true)
    (refused : ∀ c, r'.peek? = some c → ¬ accepts c = true) (store : Store) :
    (still store).Settles (Parser.many (Parser.satisfy name accepts)).run r
      (.gives ⟨walked.read, ⟨r.position, r'.position⟩⟩ r') := by
  obtain ⟨f, last⟩ := refuses_satisfy (S := still store) name refused
  have onward : (still store).Onward r
      (Advancing ((still store).Takes (Parser.satisfy name accepts))) :=
    onward_advancing fun hr taken => taken.on hr
  have rounds : Rounds (Advancing ((still store).Takes (Parser.satisfy name accepts))) r
      walked.read r' := by
    refine (h.rounds hb).mono_of_mem fun mem one => ⟨takes_satisfy one ?_ (all _ mem), ?_⟩
    · exact (Reader.reaches_of_step? one.2).onBoundary (Reader.onBoundary_of_step? one.2)
    · exact Reader.offset_lt_of_step? one.2
  have settled := onward.settles_many (fun _ taken => taken)
    (last.settles_items (h.onBoundary hb)) hb rounds
  rw [Verdict.map, Verdict.bind, List.append_nil] at settled
  exact settled

end Setting

namespace Parser

/-- What a run of characters takes, and what is ahead behind it. -/
theorem takeWhile_takes (hb : s.reader.OnBoundary) (label : String) (accepts : Char → Bool) :
    ∃ walked span t, Run.Takes s walked span t ∧
      (takeWhile label accepts).run s = .ok ⟨walked, span⟩ t ∧
      (∀ c ∈ walked.read, accepts c = true) ∧
      ∀ c, t.reader.peek? = some c → ¬ accepts c = true := by
  obtain ⟨walked, rest, ahead, bytes, whole, all, refused⟩ := exists_run accepts s.reader.remaining
  obtain ⟨span, t, takes⟩ := Run.exists_takes hb ⟨rest, ahead, whole⟩
  have behind : t.reader.remaining = rest :=
    List.append_cancel_left (takes.passes.ahead.symm.trans ahead)
  refine ⟨walked, span, t, takes, ?_, all, ?_⟩
  · have taken := takes.takeBytes hb
    rw [bytes] at taken
    rw [takeWhile]
    dsimp only
    rw [Run.bind_apply]
    dsimp only [Run.reader]
    rw [Run.bind_apply, taken]
    rfl
  · rw [Reader.peek?_eq, behind]
    exact refused

/-- A run of characters never fails. It takes the longest beginning of whole symbols that are all
accepted, so that none is ahead behind it; and one accepted character after the other takes the
same and leaves everything as it does. -/
theorem takeWhile_longest (label name : String) (accepts : Char → Bool)
    (hb : s.reader.OnBoundary) :
    ∃ walked t,
      (takeWhile label accepts).run s =
        .ok ⟨walked, ⟨s.reader.position, t.reader.position⟩⟩ t ∧
      (many (satisfy name accepts)).run s =
        .ok ⟨walked.read, ⟨s.reader.position, t.reader.position⟩⟩ t ∧
      s.reader.Passes walked t.reader ∧ t.store = s.store ∧
      (∀ c ∈ walked.read, accepts c = true) ∧
      (∀ other : Text, other.LeadsWhole s.reader.remaining →
        (∀ c ∈ other.read, accepts c = true) → other <+: walked) ∧
      ∀ c, t.reader.peek? = some c → ¬ accepts c = true := by
  obtain ⟨walked, span, t, takes, taken, all, refused⟩ := takeWhile_takes hb label accepts
  rw [takes.span] at taken
  refine ⟨walked, t, taken, ?_, takes.passes, takes.store, all, fun other leads others => ?_,
    refused⟩
  · have settled := Setting.settles_many_satisfy name hb takes.passes all refused s.store
    obtain ⟨store, ran, rfl⟩ := settled.exists_ok rfl
    exact ran.trans (by rw [← takes.store])
  · refine prefix_of_refused takes.passes.leadsWhole leads others fun rest ahead c first => ?_
    obtain rfl : rest = t.reader.remaining :=
      List.append_cancel_left (ahead.symm.trans takes.passes.ahead)
    rw [← Reader.peek?_eq] at first
    exact refused c first

/-- Line breaks of either kind are accepted and lone returns are not. -/
theorem takeWhile_longest_breaks :
    let s : State := ⟨Reader.startAt ['x', '\r', '\n', '\n', '\r', '\r', '\n'] ⟨1, 1, 2⟩, .empty⟩
    s.reader.OnBoundary ∧ ∃ t,
      (takeWhile "breaks" (· == '\n')).run s =
        .ok ⟨['\r', '\n', '\n'], ⟨⟨1, 1, 2⟩, ⟨4, 3, 1⟩⟩⟩ t ∧
      (many (satisfy "break" (· == '\n'))).run s =
        .ok ⟨['\n', '\n'], ⟨⟨1, 1, 2⟩, ⟨4, 3, 1⟩⟩⟩ t := by
  intro s
  have boundary : s.reader.OnBoundary := by decide
  obtain ⟨walked, t, run, again, -⟩ :=
    takeWhile_longest "breaks" "break" (· == '\n') boundary
  obtain ⟨u, ran⟩ : ∃ u, (takeWhile "breaks" (· == '\n')).run s =
      .ok ⟨['\r', '\n', '\n'], ⟨⟨1, 1, 2⟩, ⟨4, 3, 1⟩⟩⟩ u := ⟨_, rfl⟩
  obtain ⟨same, rfl⟩ := Outcome.ok.inj (run.symm.trans ran)
  obtain ⟨rfl, spans⟩ := Match.mk.inj same
  rw [spans] at again
  exact ⟨boundary, t, ran, again⟩

end Parser

end RecursiveDescent
