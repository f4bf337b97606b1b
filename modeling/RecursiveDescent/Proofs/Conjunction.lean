import RecursiveDescent.Proofs.OrderedChoice

/-!
# Conjunctions

Where all parsers have to succeed from one place, each of them is run from there, and what the ones
before it have taken is undone. One of them decides: the first that does not succeed, or else the
last. The others are guards, and only whether they succeed counts.
-/
namespace RecursiveDescent.Parser

variable {α : Type} {S : Setting} {p : Parser α} {ps guards before after : List (Parser α)}
  {r u : Reader} {s : State} {v w : Verdict (Match α)} {m : Match α} {last : Option (Match α)}

/-- From the reader the parser does the same whatever the store. -/
def SettlesAt (S : Setting) (p : Parser α) (r : Reader) : Prop :=
  ∃ v, S.Settles p.run r v

theorem Dependable.settlesAt (h : p.Dependable S) (hs : S.Holds s) : p.SettlesAt S s.reader :=
  ⟨_, Setting.settles_verdict h hs.reader hs.store⟩

/-- A verdict that does not hang on the store is settled. -/
theorem SettlesAt.settles (h : p.SettlesAt S s.reader) (hs : S.Holds s) :
    S.Settles p.run s.reader (p.run s).verdict := by
  obtain ⟨v, settles⟩ := h
  rwa [settles.verdict hs]

theorem KeepsText.onText (h : p.KeepsText) (s : State) :
    (p.run s).verdict.OnText s.reader.input := by
  have kept := h s
  cases ran : p.run s <;> rw [ran] at kept <;> exact kept

theorem succeedsAt_iff : p.SucceedsAt s ↔ ∃ m r, (p.run s).verdict = .gives m r := by
  constructor
  · rintro ⟨m, t, ran⟩
    exact ⟨m, t.reader, by rw [ran]; rfl⟩
  · rintro ⟨m, r, gives⟩
    exact ⟨m, _, Outcome.eq_ok_of_verdict gives⟩

/-- One of the parsers is the last or does not succeed, and all before it do. -/
theorem exists_deciding (ne : ps ≠ []) (s : State) :
    ∃ before p after, ps = before ++ p :: after ∧ (∀ q ∈ before, q.SucceedsAt s) ∧
      (p.SucceedsAt s → after = []) := by
  rcases none_or_first (fun p => ¬ p.SucceedsAt s) ps with
    all | ⟨before, p, after, split, all, refuses⟩
  · have split := (List.dropLast_concat_getLast ne).symm
    refine ⟨ps.dropLast, ps.getLast ne, [], split, ?_, fun _ => rfl⟩
    exact fun q mem => not_not.mp (all q (List.dropLast_subset ps mem))
  · exact ⟨before, p, after, split, fun q mem => not_not.mp (all q mem),
      fun succeeds => absurd succeeds refuses⟩

/-! ## The loop -/

theorem allOfFrom_cons (label : String) (start : Position) :
    allOfFrom label start last (p :: ps) = Run.rewind start >>= fun _ =>
      p.run.enclosing start allOfFailed >>= fun m => allOfFrom label start (some m) ps := by
  cases last <;> rfl

section FromOnePlace

variable (inText : r.offset ≤ r.input.byteLength) (label : String)
include inText

/-- What a guard has taken is undone before the next parser is run. -/
theorem settles_guarded {r' : Reader} (input : u.input = r.input)
    (guard : S.Settles p.run r (.gives m r')) (onText : r'.input = r.input)
    (others : S.Settles (allOfFrom label r.position (some m) ps) r' w) :
    S.Settles (allOfFrom label r.position last (p :: ps)) u w := by
  rw [allOfFrom_cons]
  exact (Setting.settles_rewind input inText).bind
    ((guard.enclosing inText onText allOfFailed).bind others)

/-- The parser that decides does so for all. -/
theorem settles_deciding (input : u.input = r.input) (settles : S.Settles p.run r v)
    (onText : v.OnText r.input) (decides : ∀ m r', v = .gives m r' → after = []) :
    S.Settles (allOfFrom label r.position last (p :: after)) u (v.enclosed r allOfFailed) := by
  have enclosed := settles.enclosing inText onText allOfFailed
  rw [allOfFrom_cons]
  refine (Setting.settles_rewind input inText).bind ?_
  cases v with
  | gives m r' =>
    obtain rfl := decides m r' rfl
    exact enclosed.bind (Setting.settles_pure m r')
  | fails f r' => exact enclosed.bind_fails
  | halts cause => exact enclosed.bind_halts

/-- The parsers in front of the deciding one are guards, and none behind it is run. -/
theorem settles_allOfFrom (input : u.input = r.input)
    (guarded : ∀ q ∈ before, ∃ m r', S.Settles q.run r (.gives m r') ∧ r'.input = r.input)
    (settles : S.Settles p.run r v) (onText : v.OnText r.input)
    (decides : ∀ m r', v = .gives m r' → after = []) :
    S.Settles (allOfFrom label r.position last (before ++ p :: after)) u
      (v.enclosed r allOfFailed) := by
  -- A guard leaves the reader anywhere in the text, so the induction is over that as well.
  induction before generalizing last u with
  | nil => exact settles_deciding inText label input settles onText decides
  | cons q before ih =>
    obtain ⟨⟨m, r', guard, kept⟩, others⟩ := List.forall_mem_cons.mp guarded
    exact settles_guarded inText label input guard kept (ih kept others)

end FromOnePlace

/-! ## What decides -/

/-- A conjunction is decided by what its parsers do where it is run. -/
structure Conjoins (label : String) (ps : List (Parser α)) (s : State) : Prop where
  succeeds : (allOf label ps).SucceedsAt s ↔ ∀ p ∈ ps, p.SucceedsAt s
  last {guards : List (Parser α)} {p : Parser α} {m : Match α} {r : Reader} :
    ps = guards ++ [p] → (((allOf label ps).run s).verdict = .gives m r ↔
      (∀ q ∈ guards, q.SucceedsAt s) ∧ (p.run s).verdict = .gives m r)
  first_failed {before after : List (Parser α)} {p : Parser α} {f : Failure} {t : State} :
    ps = before ++ p :: after → (∀ q ∈ before, q.SucceedsAt s) → p.run s = .failed f t →
    ((allOf label ps).run s).verdict = .fails (f.enclose allOfFailed s.reader) s.reader
  failed {g : Failure} {t : State} : (allOf label ps).run s = .failed g t →
    t.reader = s.reader ∧ ∃ before p after f u, ps = before ++ p :: after ∧
      (∀ q ∈ before, q.SucceedsAt s) ∧ p.run s = .failed f u ∧ g = f.enclose allOfFailed s.reader
  halted {cause : Halt} {t : State} : (allOf label ps).run s = .halted cause t →
    ∃ p ∈ ps, ∃ u, p.run s = .halted cause u

section WhereItIsRun

variable (hs : S.Holds s) (keeps : ∀ p ∈ ps, p.KeepsText)
  (settle : ∀ p ∈ ps, p.SettlesAt S s.reader) (label : String)
include hs keeps settle

/-- The verdict is that of the parser that decides, enclosed if it is a failure. -/
theorem verdict_allOf (split : ps = before ++ p :: after) (succeed : ∀ q ∈ before, q.SucceedsAt s)
    (decides : p.SucceedsAt s → after = []) :
    ((allOf label ps).run s).verdict = (p.run s).verdict.enclosed s.reader allOfFailed := by
  subst split
  rw [List.forall_mem_append, List.forall_mem_cons] at keeps settle
  have guarded : ∀ q ∈ before, ∃ m r', S.Settles q.run s.reader (.gives m r') ∧
      r'.input = s.reader.input := by
    intro q mem
    obtain ⟨m, r', gives⟩ := succeedsAt_iff.mp (succeed q mem)
    have onText := (keeps.1 q mem).onText s
    have settles := (settle.1 q mem).settles hs
    rw [gives] at onText settles
    exact ⟨m, r', settles, onText⟩
  have all : S.Settles (allOfFrom label s.reader.position none (before ++ p :: after)) s.reader _ :=
    settles_allOfFrom (S.inText hs.reader) label rfl guarded (settle.2.1.settles hs)
      (keeps.2.1.onText s) fun m r' gives => decides (succeedsAt_iff.mpr ⟨m, r', gives⟩)
  exact all.verdict hs

theorem succeedsAt_allOf (split : ps = before ++ p :: after)
    (succeed : ∀ q ∈ before, q.SucceedsAt s) (decides : p.SucceedsAt s → after = []) :
    (allOf label ps).SucceedsAt s ↔ p.SucceedsAt s := by
  rw [succeedsAt_iff, verdict_allOf hs keeps settle label split succeed decides, succeedsAt_iff]
  simp only [Verdict.enclosed_eq_gives_iff]

/-- A conjunction succeeds if and only if each of its parsers does from the start. -/
theorem succeedsAt_allOf_iff (ne : ps ≠ []) :
    (allOf label ps).SucceedsAt s ↔ ∀ p ∈ ps, p.SucceedsAt s := by
  obtain ⟨before, p, after, split, succeed, decides⟩ := exists_deciding ne s
  rw [succeedsAt_allOf hs keeps settle label split succeed decides]
  constructor
  · intro mine
    rw [split, decides mine, List.forall_mem_append, List.forall_mem_singleton]
    exact ⟨succeed, mine⟩
  · exact fun all => all p (by simp [split])

/-- What a conjunction gives is given by its last parser. -/
theorem gives_allOf_iff (split : ps = guards ++ [p]) :
    ((allOf label ps).run s).verdict = .gives m r ↔
      (∀ q ∈ guards, q.SucceedsAt s) ∧ (p.run s).verdict = .gives m r := by
  have given : (∀ q ∈ guards, q.SucceedsAt s) →
      (((allOf label ps).run s).verdict = .gives m r ↔ (p.run s).verdict = .gives m r) := by
    intro succeed
    rw [verdict_allOf hs keeps settle label split succeed fun _ => rfl,
      Verdict.enclosed_eq_gives_iff]
  constructor
  · intro gives
    have ne : ps ≠ [] := by simp [split]
    have all := (succeedsAt_allOf_iff hs keeps settle label ne).mp
      (succeedsAt_iff.mpr ⟨m, r, gives⟩)
    rw [split, List.forall_mem_append] at all
    exact ⟨all.1, (given all.1).mp gives⟩
  · rintro ⟨succeed, gives⟩
    exact (given succeed).mpr gives

theorem conjoins (ne : ps ≠ []) : Conjoins label ps s where
  succeeds := succeedsAt_allOf_iff hs keeps settle label ne
  last split := gives_allOf_iff hs keeps settle label split
  first_failed {before after p f t} split succeed ran := by
    have decides : p.SucceedsAt s → after = [] := by
      rintro ⟨m, u, ran'⟩
      cases ran.symm.trans ran'
    rw [verdict_allOf hs keeps settle label split succeed decides, ran]
    rfl
  failed {g t} ran := by
    obtain ⟨before, p, after, split, succeed, decides⟩ := exists_deciding ne s
    have verdict := verdict_allOf hs keeps settle label split succeed decides
    rw [ran] at verdict
    obtain ⟨⟨f, u, fails, rfl⟩, back⟩ := Verdict.enclosed_eq_fails_iff.mp verdict.symm
    exact ⟨back, before, p, after, f, _, split, succeed, Outcome.eq_failed_of_verdict fails, rfl⟩
  halted {cause t} ran := by
    obtain ⟨before, p, after, split, succeed, decides⟩ := exists_deciding ne s
    have verdict := verdict_allOf hs keeps settle label split succeed decides
    rw [ran] at verdict
    have halts := Verdict.enclosed_eq_halts_iff.mp verdict.symm
    exact ⟨p, by simp [split], _, Outcome.eq_halted_of_verdict halts⟩

end WhereItIsRun

/-- Where its parsers each do the same whatever the store, a conjunction of one or more succeeds if
every one does by itself, with the match of the last, and otherwise fails back at the start with the
failure of the first that fails. Which guards there are counts, but not in which order they are, or
how often. -/
theorem allOf_conjoins (hs : S.Holds s) (ne : ps ≠ []) (keeps : ∀ p ∈ ps, p.KeepsText)
    (settle : ∀ p ∈ ps, p.SettlesAt S s.reader) (label : String) :
    Conjoins label ps s ∧ ∀ guards guards' p, ps = guards ++ [p] →
      (∀ q, q ∈ guards' ↔ q ∈ guards) → Conjoins label (guards' ++ [p]) s ∧
        ((allOf label (guards' ++ [p])).SucceedsAt s ↔ (allOf label ps).SucceedsAt s) ∧
        ∀ m r, ((allOf label (guards' ++ [p])).run s).verdict = .gives m r ↔
          ((allOf label ps).run s).verdict = .gives m r := by
  refine ⟨conjoins hs keeps settle label ne, ?_⟩
  intro guards guards' p split same
  have members : ∀ q, q ∈ guards' ++ [p] ↔ q ∈ ps := by simp [split, same]
  have keeps' : ∀ q ∈ guards' ++ [p], q.KeepsText := fun q mem => keeps q ((members q).mp mem)
  have settle' : ∀ q ∈ guards' ++ [p], q.SettlesAt S s.reader := fun q mem =>
    settle q ((members q).mp mem)
  have gives : ∀ m r, ((allOf label (guards' ++ [p])).run s).verdict = .gives m r ↔
      ((allOf label ps).run s).verdict = .gives m r := by
    intro m r
    rw [gives_allOf_iff hs keeps settle label split, gives_allOf_iff hs keeps' settle' label rfl]
    simp only [same]
  refine ⟨conjoins hs keeps' settle' label (by simp), ?_, gives⟩
  rw [succeedsAt_iff, succeedsAt_iff]
  simp only [gives]

/-- A guard takes a letter and a word is taken from before it; with a leak as the guard or behind
one, nothing is. -/
theorem allOf_conjoins_word :
    let letter : Parser Value := (Grammar.satisfy "letter" Char.isAlpha).toParser []
    let word : Parser Value := (Grammar.takeWhile "word" Char.isAlpha).toParser []
    let leak : Parser Value := leaky "leak" 1
    let s : State := ⟨Reader.startAt ['é', 'b', 'c'] ⟨2, 1, 2⟩, .empty⟩
    Setting.undropped.Holds s ∧
      (∀ p ∈ [letter, word, leak], p.KeepsText ∧ p.SettlesAt .undropped s.reader) ∧
      (∃ m r, ((allOf "all" [letter, word]).run s).verdict = .gives m r ∧
        m.span = ⟨⟨2, 1, 2⟩, ⟨4, 1, 4⟩⟩ ∧
        ((allOf "all" [letter, letter, word]).run s).verdict = .gives m r) ∧
      ∃ g, ((allOf "all" [letter, leak, word]).run s).verdict = .fails g s.reader ∧
        g.root.message = "leaked" := by
  intro letter word leak s
  have boundary : s.reader.OnBoundary := by decide
  have hs : Setting.undropped.Holds s := ⟨boundary, rfl⟩
  have leaf : ∀ g : Grammar, g.Plain → g.MayLeak → (g.toParser []).KeepsText ∧
      (g.toParser []).SettlesAt .undropped s.reader := fun g plain mayLeak =>
    ⟨(mayLeak.parsers []).2.1, (plain.dependable []).settlesAt hs⟩
  have hletter : letter.KeepsText ∧ letter.SettlesAt .undropped s.reader :=
    leaf _ (.leaf nofun rfl) (.leaf nofun rfl)
  have hword : word.KeepsText ∧ word.SettlesAt .undropped s.reader :=
    leaf _ (.leaf nofun rfl) (.leaf nofun rfl)
  have hleak : leak.KeepsText ∧ leak.SettlesAt .undropped s.reader := by
    let further := Reader.startAt ['é', 'b', 'c'] ⟨3, 1, 3⟩
    let f := Failure.here "leaked" "anything" "nothing" further
    exact ⟨(leaky_mayLeak "leak" 1).1, .fails f further, fun _ undropped => ⟨rfl, undropped⟩⟩
  refine ⟨hs, by simp [hletter, hword, hleak], ?_, ?_⟩
  · have keeps : ∀ p ∈ [letter, word], p.KeepsText := by simp [hletter, hword]
    have settle : ∀ p ∈ [letter, word], p.SettlesAt .undropped s.reader := by
      simp [hletter, hword]
    have again : ∀ q, q ∈ [letter, letter] ↔ q ∈ [letter] := by simp
    obtain ⟨-, others⟩ := allOf_conjoins hs (List.cons_ne_nil _ _) keeps settle "all"
    obtain ⟨-, -, gives⟩ := others [letter] [letter, letter] word rfl again
    exact ⟨_, _, rfl, rfl, (gives _ _).mpr rfl⟩
  · have keeps : ∀ p ∈ [letter, leak, word], p.KeepsText := by simp [hletter, hword, hleak]
    have settle : ∀ p ∈ [letter, leak, word], p.SettlesAt .undropped s.reader := by
      simp [hletter, hword, hleak]
    obtain ⟨conjoins, -⟩ := allOf_conjoins hs (List.cons_ne_nil _ _) keeps settle "all"
    have succeed : ∀ q ∈ [letter], q.SucceedsAt s := by
      rw [List.forall_mem_singleton]
      exact ⟨_, _, rfl⟩
    obtain ⟨f, t, failed, root⟩ : ∃ f t, leak.run s = .failed f t ∧ f.root.message = "leaked" :=
      ⟨_, _, rfl, rfl⟩
    have split : [letter, leak, word] = [letter] ++ leak :: [word] := rfl
    refine ⟨_, conjoins.first_failed split succeed failed, ?_⟩
    rw [Failure.root_enclose, root]

end RecursiveDescent.Parser
