import RecursiveDescent.Proofs.Rounds

/-!
# Items with delimiters

A list with delimiters is an item, and after it pairs of a delimiter and an item, of which the
delimiter must not be left alone. The rounds are those of repeated pairs. Only where they end the
two differ: a delimiter without an item ends the repetition of pairs in front of it, and fails the
list.
-/
namespace RecursiveDescent

open RecursiveDescent.Parser

variable {α β : Type} {S : Setting} {item : Parser α} {delimiter : Parser β}

/-- There is a delimiter, and behind it the item fails. -/
def Parser.Dangles (item : Parser α) (delimiter : Parser β) (s : State) (g : Failure) : Prop :=
  ∃ m t u, delimiter.run s = .ok m t ∧ item.run t = .failed g u

namespace Setting

variable {start r r' u q : Reader} {a : α} {b : β} {f g : Failure} {cause : Halt} {as : List α}
  {store : Store}

/-- Behind a delimiter that is read, an item is refused. -/
theorem Takes.dangles (hd : S.Takes delimiter r b u) (hi : S.Refuses item u g)
    (hstore : S.stores store) : item.Dangles delimiter ⟨r, store⟩ g := by
  obtain ⟨store', ran, hstore'⟩ := hd.settles.exists_ok hstore
  obtain ⟨store'', failed, -⟩ := Settles.exists_failed hi hstore'
  exact ⟨_, _, _, ran, failed⟩

theorem Takes.not_dangles (hd : S.Takes delimiter r b u) (hi : S.Takes item u a r')
    (hstore : S.stores store) : ¬ item.Dangles delimiter ⟨r, store⟩ g := by
  rintro ⟨m, t, w, ran, failed⟩
  obtain ⟨store', ran', hstore'⟩ := hd.settles.exists_ok hstore
  obtain ⟨store'', succeeded, -⟩ := hi.settles.exists_ok hstore'
  cases ran.symm.trans ran'
  cases failed.symm.trans succeeded

theorem Refuses.not_dangles (hd : S.Refuses delimiter r f) (hstore : S.stores store) :
    ¬ item.Dangles delimiter ⟨r, store⟩ g := by
  rintro ⟨m, t, w, ran, -⟩
  exact hd.not_succeedsAt hstore ⟨m, t, ran⟩

/-! ## One round -/

/-- A delimiter and an item, together a byte or more. -/
structure Delimited (S : Setting) (item : Parser α) (delimiter : Parser β) (r : Reader) (a : α)
    (r' : Reader) : Prop where
  takes : ∃ b u, S.Takes delimiter r b u ∧ S.Takes item u a r'
  further : r.offset < r'.offset

/-- A delimiter and an item are one item of the list of pairs. -/
theorem Delimited.pair (h : S.Delimited item delimiter r a r') (hr : S.readers r) :
    S.Takes (snd (andThen delimiter item)) r a r' := by
  obtain ⟨b, u, hd, hi⟩ := h.takes
  exact hi.after hd hr

theorem onward_delimited (item : Parser α) (delimiter : Parser β) (start : Reader) :
    S.Onward start (S.Delimited item delimiter) where
  on hr round := (round.pair hr.reader).on hr
  shorter hr round := (round.pair hr.reader).shorter round.further

theorem Refuses.settles_delimitedItems (h : S.Refuses delimiter r f) (hr : S.readers r)
    (item : Parser α) (start : Position) (n : Nat) :
    S.Settles (delimitedItems item delimiter start (n + 1)) r (.gives [] r) := by
  have none := Settles.orNothing (S.inText hr) h rfl
  exact (settles_look Reader.position r).bind (none.bind (settles_pure _ r))

theorem HaltsAt.settles_delimitedItems (h : S.HaltsAt delimiter r cause) (hr : S.readers r)
    (item : Parser α) (start : Position) (n : Nat) :
    S.Settles (delimitedItems item delimiter start (n + 1)) r (.halts cause) := by
  have halted := Settles.orNothing (S.inText hr) h trivial
  exact (settles_look Reader.position r).bind halted.bind_halts

/-- Behind a delimiter it comes down to the item. -/
theorem Takes.settles_delimitedItems (h : S.Takes delimiter r b u) (hr : S.readers r)
    {start : Position} {n : Nat} {v : Verdict (List α)}
    (onward : S.Settles (do
      let m ← item.run.enclosing start sepByFailed
      if r.position.offset < (← Run.position).offset then
        return m.value :: (← delimitedItems item delimiter start n)
      else return [m.value]) u v) :
    S.Settles (delimitedItems item delimiter start (n + 1)) r v := by
  have found := h.settles.orNothing (S.inText hr) h.input
  exact (settles_look Reader.position r).bind (found.bind onward)

/-- An item that takes nothing, nor did its delimiter, is the last. -/
theorem Takes.settles_delimitedItems_idle (hd : S.Takes delimiter r b r) (hi : S.Takes item r a r)
    (hstart : S.readers start) (hr : S.On start r) (n : Nat) :
    S.Settles (delimitedItems item delimiter start.position (n + 1)) r (.gives [a] r) := by
  have taken := hi.settles.enclosing (S.inText hstart) hr.input sepByFailed
  refine hd.settles_delimitedItems hr.reader (taken.bind ((settles_look Reader.position r).bind ?_))
  simp only [Nat.lt_irrefl, if_false]
  exact settles_pure _ r

section Behind

variable (found : S.Takes delimiter r b u) (hstart : S.readers start) (hr : S.On start r)
include found hstart hr

/-- A delimiter without an item undoes the whole list. -/
theorem Takes.delimitedItems_fails (refused : S.Refuses item u g) (n : Nat) :
    S.Settles (delimitedItems item delimiter start.position (n + 1)) r
      (.fails (g.enclose sepByFailed start) start) := by
  have failed := Settles.enclosing (S.inText hstart) refused (found.on hr).input sepByFailed
  exact found.settles_delimitedItems hr.reader failed.bind_fails

theorem Takes.delimitedItems_halts (halting : S.HaltsAt item u cause) (n : Nat) :
    S.Settles (delimitedItems item delimiter start.position (n + 1)) r (.halts cause) := by
  have halted := Settles.enclosing (S.inText hstart) halting trivial sepByFailed
  exact found.settles_delimitedItems hr.reader halted.bind_halts

end Behind

/-! ## All rounds -/

/-- One more delimited item in front of what the later rounds give. -/
theorem Delimited.settles_delimitedItems (h : S.Delimited item delimiter r a r')
    (hstart : S.readers start) (hr : S.On start r) (n : Nat) (v : Verdict (List α))
    (later : S.Settles (delimitedItems item delimiter start.position n) r' v) :
    S.Settles (delimitedItems item delimiter start.position (n + 1)) r (v.map (a :: ·)) := by
  obtain ⟨b, u, hd, hi⟩ := h.takes
  have further : r.position.offset < r'.position.offset := h.further
  have taken := hi.settles.enclosing (S.inText hstart) (hi.on (hd.on hr)).input sepByFailed
  refine hd.settles_delimitedItems hr.reader ?_
  refine taken.bind ((settles_look Reader.position r').bind ?_)
  simp only [further, if_true]
  exact later.map _

/-- The pairs that are read, and then what stops them. -/
theorem settles_manyPairs (hu : S.readers u) (rounds : Rounds (S.Delimited item delimiter) u as q)
    {v : Verdict (List α)}
    (stop : ∀ n, S.Settles (items (snd (andThen delimiter item)) (n + 1)) q v) :
    S.Settles (many (snd (andThen delimiter item))).run u
      ((v.map (as ++ ·)).since u.position) :=
  (onward_delimited item delimiter u).settles_many
    (fun hw round => ⟨round.pair hw.reader, round.further⟩) stop hu rounds

/-- Without a first item there is no list. -/
theorem Refuses.settles_sepBy (h : S.Refuses item r f) (hr : S.readers r)
    (delimiter : Parser β) :
    S.Refuses (sepBy item delimiter) r (f.enclose sepByFailed r) := by
  have failed := Settles.enclosing (S.inText hr) h rfl sepByFailed
  exact (settles_look Reader.position r).bind failed.bind_fails

theorem HaltsAt.settles_sepBy (h : S.HaltsAt item r cause) (hr : S.readers r)
    (delimiter : Parser β) : S.HaltsAt (sepBy item delimiter) r cause := by
  have halted := Settles.enclosing (S.inText hr) h trivial sepByFailed
  exact (settles_look Reader.position r).bind halted.bind_halts

section AllRounds

variable {x : α} (hr : S.readers r) (first : S.Takes item r x u)
  (rounds : Rounds (S.Delimited item delimiter) u as q)
include hr first rounds

/-- The list: its first item, the rounds, and then what is done where they end. -/
theorem settles_sepBy {v : Verdict (List α)}
    (stop : ∀ n, S.Settles (delimitedItems item delimiter r.position (n + 1)) q v) :
    S.Settles (sepBy item delimiter).run r
      (((v.map (as ++ ·)).map (x :: ·)).since r.position) := by
  have rest := (onward_delimited item delimiter r).settles
    (fun n v hw round later => round.settles_delimitedItems hr hw n v later) stop
    (first.on (.refl hr)) rounds (Nat.lt_succ_self _)
  have taken := first.settles.enclosing (S.inText hr) first.input sepByFailed
  refine (settles_look Reader.position r).bind (taken.bind ?_)
  exact (settles_look (·.bytesLeft + 1) u).bind (rest.since (x :: ·) r.position)

/-- The item and the pairs: the same rounds, and then what is done there. -/
theorem settles_pairs {last : List α} (onText : q.input = r.input)
    (stop : ∀ n, S.Settles (items (snd (andThen delimiter item)) (n + 1)) q (.gives last q)) :
    S.Settles (andThen item (many (snd (andThen delimiter item)))).run r
      (.gives ⟨(x, as ++ last), ⟨r.position, q.position⟩⟩ q) :=
  first.settles_andThen hr (settles_manyPairs first.reader rounds stop) onText

theorem settles_pairs_halts
    (stop : ∀ n, S.Settles (items (snd (andThen delimiter item)) (n + 1)) q (.halts cause)) :
    S.HaltsAt (andThen item (many (snd (andThen delimiter item)))) r cause :=
  first.settles_andThen hr (settles_manyPairs first.reader rounds stop) trivial

end AllRounds

/-- How the list and the pairs end, with the same rounds behind them. -/
inductive PairsAlike (S : Setting) (item : Parser α) (delimiter : Parser β) (r : Reader)
    (list : Run (Match (List α))) (pairs : Run (Match (α × List α))) : Prop
  | whole {x : α} {xs : List α} {q : Reader} :
    S.Settles list r (.gives ⟨x :: xs, ⟨r.position, q.position⟩⟩ q) →
    S.Settles pairs r (.gives ⟨(x, xs), ⟨r.position, q.position⟩⟩ q) →
    (∀ {store g}, S.stores store → ¬ item.Dangles delimiter ⟨q, store⟩ g) →
    PairsAlike S item delimiter r list pairs
  | dangling {m : Match (α × List α)} {f g : Failure} {q : Reader} :
    S.Settles list r (.fails f r) → f.root = g.root → S.Settles pairs r (.gives m q) →
    (∀ {store}, S.stores store → item.Dangles delimiter ⟨q, store⟩ g) →
    PairsAlike S item delimiter r list pairs
  | missing {f g h : Failure} :
    S.Settles list r (.fails f r) → f.root = g.root → S.Settles pairs r (.fails h r) →
    S.Refuses item r g → PairsAlike S item delimiter r list pairs
  | halted {cause : Halt} {q : Reader} :
    S.Settles list r (.halts cause) → S.Settles pairs r (.halts cause) → S.On r q →
    S.HaltsAt item q cause ∨ S.HaltsAt delimiter q cause →
    PairsAlike S item delimiter r list pairs

namespace PairsAlike

variable {s : State} {list : Run (Match (List α))} {pairs : Run (Match (α × List α))}
  (h : S.PairsAlike item delimiter s.reader list pairs) (hs : S.Holds s)
include h hs

/-- The pairs are a list unless a delimiter is left behind them. -/
theorem gives_iff (x : α) (xs : List α) (span : Span) (q : Reader) :
    (list s).verdict = .gives ⟨x :: xs, span⟩ q ↔
      (pairs s).verdict = .gives ⟨(x, xs), span⟩ q ∧
        ¬ ∃ g, item.Dangles delimiter (pairs s).state g := by
  cases h with
  | whole listSettles pairsSettle undangling =>
    obtain ⟨store, ran, hstore⟩ := pairsSettle.ran hs
    rw [listSettles.verdict hs, ran]
    constructor
    · rintro ⟨⟩
      exact ⟨rfl, fun ⟨g, dangles⟩ => undangling hstore dangles⟩
    · rintro ⟨⟨⟩, -⟩
      rfl
  | dangling listSettles _ pairsSettle dangles =>
    obtain ⟨store, ran, hstore⟩ := pairsSettle.ran hs
    rw [listSettles.verdict hs, ran]
    exact ⟨nofun, fun both => absurd ⟨_, dangles hstore⟩ both.2⟩
  | missing listSettles _ pairsSettle _ | halted listSettles pairsSettle _ _ =>
    rw [listSettles.verdict hs, pairsSettle.verdict hs]
    exact ⟨nofun, fun both => nomatch both.1⟩

/-- Either there is a list, or all is undone for want of an item, or a part halts. -/
theorem ends :
    (∃ x xs q, (list s).verdict = .gives ⟨x :: xs, ⟨s.reader.position, q.position⟩⟩ q) ∨
      (∃ f g, (list s).verdict = .fails f s.reader ∧ f.root = g.root ∧
        ((∃ t, item.run s = .failed g t) ∨
          (∃ m q, (pairs s).verdict = .gives m q) ∧
            item.Dangles delimiter (pairs s).state g)) ∨
      ∃ cause, (list s).verdict = .halts cause ∧
        (item.HaltsBehind S s.reader cause ∨ delimiter.HaltsBehind S s.reader cause) := by
  cases h with
  | whole listSettles _ _ =>
    exact .inl ⟨_, _, _, listSettles.verdict hs⟩
  | dangling listSettles root pairsSettle dangles =>
    obtain ⟨store, ran, hstore⟩ := pairsSettle.ran hs
    rw [ran]
    have left := dangles hstore
    exact .inr (.inl ⟨_, _, listSettles.verdict hs, root, .inr ⟨⟨_, _, rfl⟩, left⟩⟩)
  | missing listSettles root _ refused =>
    obtain ⟨store, failed, -⟩ := Settles.exists_failed refused hs.store
    exact .inr (.inl ⟨_, _, listSettles.verdict hs, root, .inl ⟨_, failed⟩⟩)
  | halted listSettles _ on halting =>
    have where_halted := halting.imp (·.haltsBehind on hs.store) (·.haltsBehind on hs.store)
    exact .inr (.inr ⟨_, listSettles.verdict hs, where_halted⟩)

end PairsAlike

/-- Behind the first item the cases are those of the two parts at the end of the rounds. -/
theorem Takes.pairsAlike {x : α} (first : S.Takes item r x u) (hr : S.readers r)
    (hitem : item.Dependable S) (hdelimiter : delimiter.Dependable S) (hstore : S.stores store) :
    S.PairsAlike item delimiter r (sepBy item delimiter).run
      (andThen item (many (snd (andThen delimiter item)))).run := by
  obtain ⟨as, q, rounds, on, last⟩ :=
    (onward_delimited item delimiter r).exists_rounds (first.on (.refl hr))
  have hq := on.reader
  cases goes hdelimiter hq hstore with
  | refuses none =>
    obtain ⟨g, refused⟩ := none.before hq item
    have list := settles_sepBy hr first rounds (none.settles_delimitedItems hq item r.position)
    have pairs := settles_pairs hr first rounds on.input (refused.settles_items hq)
    exact .whole list pairs none.not_dangles
  | halts halting =>
    have pair := halting.before hq item
    have list := settles_sepBy hr first rounds (halting.settles_delimitedItems hq item r.position)
    have pairs := settles_pairs_halts hr first rounds (pair.settles_items hq)
    exact .halted list pairs on (.inr halting)
  | takes found =>
    rename_i b w
    have behind := found.on on
    cases goes hitem found.reader hstore with
    | refuses refused =>
      obtain ⟨g, none⟩ := refused.after found hq
      have list := settles_sepBy hr first rounds (found.delimitedItems_fails hr on refused)
      have pairs := settles_pairs hr first rounds on.input (none.settles_items hq)
      exact .dangling list (Failure.root_enclose ..) pairs (found.dangles refused)
    | halts halting =>
      have pair := halting.after found hq
      have list := settles_sepBy hr first rounds (found.delimitedItems_halts hr on halting)
      have pairs := settles_pairs_halts hr first rounds (pair.settles_items hq)
      exact .halted list pairs behind (.inl halting)
    | takes taken =>
      rename_i a q'
      have pair := taken.after found hq
      -- The last round would not be the last if it took a byte.
      obtain rfl := pair.eq_of_not_lt fun further => last a q' ⟨⟨b, w, found, taken⟩, further⟩
      obtain rfl := found.eq_of_not_lt (Nat.not_lt_of_le taken.forward)
      have list := settles_sepBy hr first rounds
        (found.settles_delimitedItems_idle taken hr on)
      have pairs := settles_pairs hr first rounds on.input (pair.settles_items_idle hq)
      exact .whole list pairs (found.not_dangles taken)

/-- From every place both lists go alike, by the way the first item goes. -/
theorem pairsAlike (hitem : item.Dependable S) (hdelimiter : delimiter.Dependable S)
    (hr : S.readers r) (hstore : S.stores store) :
    S.PairsAlike item delimiter r (sepBy item delimiter).run
      (andThen item (many (snd (andThen delimiter item)))).run := by
  cases goes hitem hr hstore with
  | takes first => exact first.pairsAlike hr hitem hdelimiter hstore
  | refuses refused =>
    exact .missing (refused.settles_sepBy hr delimiter) (Failure.root_enclose ..)
      (refused.settles_andThen hr) refused
  | halts halting =>
    exact .halted (halting.settles_sepBy hr delimiter) (halting.settles_andThen hr) (.refl hr)
      (.inl halting)

end Setting

/-- A list with delimiters is found where an item and pairs of a delimiter and an item are, with no
dangling delimiter behind them, and they are the same. If not, and neither part halts, the failure
undoes all of it, and its root is that of an item that was missing, as the first or behind a
delimiter. -/
theorem Parser.sepBy_gives_iff_pairs (hitem : item.Dependable S)
    (hdelimiter : delimiter.Dependable S) {s : State} (hs : S.Holds s) :
    let list := (sepBy item delimiter).run s
    let pairs := (andThen item (many (snd (andThen delimiter item)))).run s
    (∀ x xs span q, list.verdict = .gives ⟨x :: xs, span⟩ q ↔
        pairs.verdict = .gives ⟨(x, xs), span⟩ q ∧
          ¬ ∃ g, item.Dangles delimiter pairs.state g) ∧
      ((∃ x xs q, list.verdict = .gives ⟨x :: xs, ⟨s.reader.position, q.position⟩⟩ q) ∨
        (∃ f g, list.verdict = .fails f s.reader ∧ f.root = g.root ∧
          ((∃ t, item.run s = .failed g t) ∨
            (∃ m q, pairs.verdict = .gives m q) ∧ item.Dangles delimiter pairs.state g)) ∨
        ∃ cause, list.verdict = .halts cause ∧
          (item.HaltsBehind S s.reader cause ∨ delimiter.HaltsBehind S s.reader cause)) := by
  intro list pairs
  have alike := Setting.pairsAlike hitem hdelimiter hs.reader hs.store
  exact ⟨alike.gives_iff hs, alike.ends hs⟩

/-- Words with commas, of which the last may be empty: the list ends with it. -/
theorem Parser.words_sepBy_commas :
    let word := (Grammar.takeWhile "word" Char.isAlpha).toParser []
    let comma := (Grammar.codePoint "," ',').toParser []
    let s : State := ⟨Reader.startAt ['é', 'a', ',', ',', ';'] ⟨2, 1, 2⟩, .empty⟩
    word.Dependable .undropped ∧ comma.Dependable .undropped ∧ Setting.undropped.Holds s ∧
      ∃ m q, ((sepBy word comma).run s).verdict = .gives m q ∧
        m.value = [.text ['a'], .text [], .text []] ∧ q.position = ⟨5, 1, 5⟩ := by
  intro word comma s
  have letters : ∀ label accepts, (Grammar.takeWhile label accepts).Plain := fun _ _ =>
    .leaf nofun rfl
  have one : ∀ label c, (Grammar.codePoint label c).Plain := fun _ _ => .leaf nofun rfl
  have hword : word.Dependable .undropped := (letters _ _).dependable []
  have hcomma : comma.Dependable .undropped := (one _ _).dependable []
  have boundary : s.reader.OnBoundary := by decide
  have hs : Setting.undropped.Holds s := ⟨boundary, rfl⟩
  have same := (sepBy_gives_iff_pairs hword hcomma hs).1
  refine ⟨hword, hcomma, hs, _, _, (same _ _ _ _).mpr ⟨rfl, ?_⟩, rfl, rfl⟩
  rintro ⟨g, m, t, u, ran, -⟩
  cases ran

end RecursiveDescent
