import RecursiveDescent.Proofs.Yielding

/-!
# What repetitions yield

A repetition goes on as long as its items take something, which they cannot do more often than there
are bytes ahead. So its rounds are never spent, save by operators and operands that take nothing.
-/
namespace RecursiveDescent.Conditions

variable {α β : Type} {C : Conditions} {r r' : Reader} {s : State} {store : Store}
variable {good : α → Reader → Prop} {bad : Failure → Prop}

/-! ## Repetition -/

/-- A movement that takes something leaves fewer bytes ahead. -/
theorem bytesLeft_lt (hr : r.OnBoundary) (walk : r.Reaches r') (moved : r.offset < r'.offset) :
    r'.bytesLeft < r.bytesLeft := by
  have inside := (walk.onBoundary hr).offset_le
  rw [walk.input] at inside
  rw [Reader.bytesLeft, Reader.bytesLeft, walk.input]
  omega

/-- An item from `r` to `r₁` is the last one if it takes nothing, and else the items behind it
continue the list that begins with it. -/
structure Continues (inv : Reader → Prop) (list : Reader → List α → Reader → Prop) (r : Reader)
    (a : α) (r₁ : Reader) : Prop where
  last : r₁.offset = r.offset → list r [a] r₁
  more : r.offset < r₁.offset → inv r₁ ∧ ∀ as r₂, list r₁ as r₂ → list r (a :: as) r₂

theorem continues_any {a : α} : Continues (fun _ => True) (fun _ _ _ => True) r a r' where
  last _ := trivial
  more _ := ⟨trivial, fun _ _ _ => trivial⟩

/-- What is known where an item begins is `inv`, and `list` relates the reader there to the items
from there on and to the reader behind them. There are enough rounds for what is ahead. -/
theorem ends_items {item : Parser α} (hr : r.OnBoundary) {inv : Reader → Prop}
    {list : Reader → List α → Reader → Prop}
    (step : ∀ r', r.Reaches r' → inv r' → C.Yields item.run r'
      (Continues inv list r') fun _ => list r' [] r')
    (rounds : Nat) (enough : s.reader.bytesLeft < rounds) (arrives : C.Arrives r s)
    (here : inv s.reader) :
    (Parser.items item rounds).Ends C.halts s
      (fun as t => C.Arrives r t ∧ list s.reader as t.reader) fun _ _ => False := by
  induction rounds generalizing s with
  | zero => cases enough
  | succ rounds ih =>
    have hb := arrives.1.onBoundary hr
    simp only [Parser.items, Run.ends_bind, Run.ends_position]
    refine ends_orNothing hr arrives (step s.reader arrives.1 here) ?_ ?_
    · rintro m t ⟨arrives', hspan, last, more⟩
      have hle := arrives'.1.offset_le
      have empty := Span.isEmpty_iff (p := s.reader.position) (q := t.reader.position) hle
      rw [← hspan] at empty
      by_cases idle : m.span.isEmpty = true
      · simp only [if_pos idle]
        exact ⟨arrives.trans arrives', last (empty.mp idle)⟩
      · have moved : s.reader.offset < t.reader.offset :=
          Nat.lt_of_le_of_ne hle fun same => idle (empty.mpr same.symm)
        have fewer := bytesLeft_lt hb arrives'.1 moved
        simp only [if_neg idle, Run.ends_bind, Run.ends_pure]
        apply (ih (by omega) (arrives.trans arrives') (more moved).1).imp_ok
        rintro as u ⟨there, hlist⟩
        exact ⟨there, (more moved).2 as u.reader hlist⟩
    · rintro f t ⟨hreader, hstore⟩ hlist
      refine ⟨⟨by rw [hreader]; exact arrives.1, hstore⟩, ?_⟩
      rw [hreader]
      exact hlist

/-- The items end where one is refused, or takes nothing. -/
theorem yields_many {item : Parser α} (inv : Reader → Prop) (start : inv r)
    (list : Reader → List α → Reader → Prop)
    (step : ∀ r', r.Reaches r' → inv r' → C.Yields item.run r'
      (Continues inv list r') fun _ => list r' [] r') :
    C.Yields (Parser.many item).run r (list r) bad := by
  intro hr store hstore
  simp only [Parser.many, Run.ends_bind, Run.ends_position, Run.ends_rounds, Run.ends_pure]
  have ends := ends_items (s := ⟨r, store⟩) hr step (r.bytesLeft + 1) (Nat.lt_succ_self _)
    (.refl hstore) start
  apply ends.of_never_fails
  rintro as t ⟨arrives, hlist⟩
  exact ⟨arrives, rfl, hlist⟩

/-- As `yields_many`, but the failure of the first item is the failure of the whole. -/
theorem yields_many1 {item : Parser α} (inv : Reader → Prop)
    (list : Reader → List α → Reader → Prop)
    (first : C.Yields item.run r (Continues inv list r) fun f =>
      bad (((f.enclose "Many1 parser failed." r).withExpected
        s!"{item.label} at least once").withFound s!"{item.label} zero times"))
    (step : ∀ r', r.Reaches r' → inv r' → C.Yields item.run r' (Continues inv list r')
      fun _ => list r' [] r') :
    C.Yields (Parser.many1 item).run r (list r) bad := by
  intro hr store hstore
  simp only [Parser.many1, Run.ends_bind, Run.ends_position, Run.ends_observe, Run.ends_reader,
    Run.ends_fail, Run.ends_pure]
  apply (first hr store hstore).mono
  · rintro m t ⟨arrives, hspan, last, more⟩
    have hle := arrives.1.offset_le
    have empty := Span.isEmpty_iff (p := r.position) (q := t.reader.position) hle
    rw [← hspan] at empty
    rw [Parser.itemsAfter]
    by_cases idle : m.span.isEmpty = true
    · simp only [if_pos idle]
      exact ⟨arrives, rfl, last (empty.mp idle)⟩
    · have moved : r.offset < t.reader.offset :=
        Nat.lt_of_le_of_ne hle fun same => idle (empty.mpr same.symm)
      simp only [if_neg idle, Run.ends_bind, Run.ends_rounds]
      have ends := ends_items hr step _ (Nat.lt_succ_self _) arrives (more moved).1
      apply ends.of_never_fails
      rintro as u ⟨there, hlist⟩
      exact ⟨there, rfl, (more moved).2 as u.reader hlist⟩
  · rintro f t ⟨⟨rfl, ht⟩, hf⟩
    exact ends_rewind hr rfl ⟨⟨rfl, ht⟩, hf⟩

theorem ends_delimitedItems {item : Parser α} {delimiter : Parser β} (hr : r.OnBoundary)
    {inv : Reader → Prop} {list : Reader → List α → Reader → Prop}
    (step : ∀ r', r.Reaches r' → inv r' → C.Yields delimiter.run r'
      (fun _ r₁ => C.Yields item.run r₁
        (Continues inv list r') fun f => bad (f.enclose Parser.sepByFailed r))
      fun _ => list r' [] r')
    (rounds : Nat) (enough : s.reader.bytesLeft < rounds) (arrives : C.Arrives r s)
    (here : inv s.reader) :
    (Parser.delimitedItems item delimiter r.position rounds).Ends C.halts s
      (fun as t => C.Arrives r t ∧ list s.reader as t.reader)
      fun f t => C.Returns r t ∧ bad f := by
  induction rounds generalizing s with
  | zero => cases enough
  | succ rounds ih =>
    have hb := arrives.1.onBoundary hr
    simp only [Parser.delimitedItems, Run.ends_bind, Run.ends_position]
    refine ends_orNothing hr arrives (step s.reader arrives.1 here) ?_ ?_
    · rintro d t ⟨arrives₁, -, hitem⟩
      have there := arrives.trans arrives₁
      simp only [Run.ends_bind, Run.ends_position]
      apply (ends_enclosing hr there hitem).imp_ok
      rintro m u ⟨arrives₂, -, last, more⟩
      have walk := arrives₁.1.trans arrives₂.1
      by_cases moved : s.reader.position.offset < u.reader.position.offset
      · have fewer := bytesLeft_lt hb walk moved
        simp only [if_pos moved, Run.ends_bind, Run.ends_pure]
        apply (ih (by omega) (there.trans arrives₂) (more moved).1).imp_ok
        rintro as v ⟨arrives₃, hlist⟩
        exact ⟨arrives₃, (more moved).2 as v.reader hlist⟩
      · have same : u.reader.offset = s.reader.offset :=
          Nat.le_antisymm (Nat.not_lt.mp moved) walk.offset_le
        simp only [if_neg moved, Run.ends_pure]
        exact ⟨there.trans arrives₂, last same⟩
    · rintro f t ⟨hreader, hstore⟩ hlist
      refine ⟨⟨by rw [hreader]; exact arrives.1, hstore⟩, ?_⟩
      rw [hreader]
      exact hlist

/-- Behind a delimiter an item has to follow. -/
theorem yields_sepBy {item : Parser α} {delimiter : Parser β} (inv : Reader → Prop)
    (list : Reader → List α → Reader → Prop) {good : List α → Reader → Prop}
    (first : C.Yields item.run r
      (fun a r₁ => inv r₁ ∧ ∀ as r₂, list r₁ as r₂ → good (a :: as) r₂)
      fun f => bad (f.enclose Parser.sepByFailed r))
    (step : ∀ r', r.Reaches r' → inv r' → C.Yields delimiter.run r'
      (fun _ r₁ => C.Yields item.run r₁
        (Continues inv list r') fun f => bad (f.enclose Parser.sepByFailed r))
      fun _ => list r' [] r') :
    C.Yields (Parser.sepBy item delimiter).run r good bad := by
  intro hr store hstore
  simp only [Parser.sepBy, Run.ends_bind, Run.ends_position, Run.ends_rounds, Run.ends_pure]
  apply (ends_enclosing (s := ⟨r, store⟩) hr (.refl hstore) first).imp_ok
  rintro m t ⟨arrives, -, there, more⟩
  apply (ends_delimitedItems hr step _ (Nat.lt_succ_self _) arrives there).imp_ok
  rintro as u ⟨arrives', hlist⟩
  exact ⟨arrives', rfl, more as u.reader hlist⟩

/-- An item that takes nothing is a failure of its own. -/
theorem yields_progressing {item : Parser α} {ending : Parser β}
    (h : C.Yields item.run r
      (fun a r₁ => (r₁.offset = r.offset → Refuses bad r) ∧ (r.offset < r₁.offset → good a r₁))
      bad) : C.Yields (Parser.progressing item ending) r good bad := by
  intro hr store hstore
  rw [Parser.progressing, Run.ends_bind]
  apply (h hr store hstore).imp_ok
  rintro m t ⟨arrives, hspan, idle, moved⟩
  have hle := arrives.1.offset_le
  have empty := Span.isEmpty_iff (p := r.position) (q := t.reader.position) hle
  rw [← hspan] at empty
  split
  · rename_i none
    have back : t.reader = r := arrives.1.eq_of_offset (empty.mp none)
    simp only [Run.ends_bind, Run.ends_found]
    refine ⟨⟨back, arrives.2⟩, ?_⟩
    rw [back]
    exact idle (empty.mp none) _ _ _
  · rename_i some
    have onward : r.offset < t.reader.offset :=
      Nat.lt_of_le_of_ne hle fun same => some (empty.mpr same.symm)
    exact ⟨arrives, hspan, moved onward⟩

theorem ends_itemsTill {item : Parser α} {ending : Parser β} (hr : r.OnBoundary)
    {inv : Reader → Prop} {list : Reader → List α → Reader → Prop}
    (step : ∀ r', r.Reaches r' → inv r' → C.Yields ending.run r' (fun _ _ => list r' [] r')
      fun _ => C.Yields item.run r'
        (fun a r₁ => (r₁.offset = r'.offset →
          Refuses (fun f => bad (f.enclose "ManyTill combinator failed." r)) r') ∧
          (r'.offset < r₁.offset →
          inv r₁ ∧ ∀ as r₂, list r₁ as r₂ → list r' (a :: as) r₂))
        fun f => bad (f.enclose "ManyTill combinator failed." r))
    (rounds : Nat) (enough : s.reader.bytesLeft < rounds) (arrives : C.Arrives r s)
    (here : inv s.reader) :
    (Parser.itemsTill item ending r.position rounds).Ends C.halts s
      (fun as t => C.Arrives r t ∧ list s.reader as t.reader)
      fun f t => C.Returns r t ∧ bad f := by
  induction rounds generalizing s with
  | zero => cases enough
  | succ rounds ih =>
    have hb := arrives.1.onBoundary hr
    simp only [Parser.itemsTill, Run.ends_bind, Run.ends_position]
    refine ends_lookAhead hr arrives (step s.reader arrives.1 here) ?_ ?_
    · rintro m r' t ⟨hreader, hstore⟩ - hlist
      refine ⟨⟨by rw [hreader]; exact arrives.1, hstore⟩, ?_⟩
      rw [hreader]
      exact hlist
    · rintro f ⟨_, store⟩ ⟨rfl, hstore⟩ hitem
      simp only [Run.ends_bind, Run.ends_pure]
      have stays : C.Arrives r ⟨s.reader, store⟩ := ⟨arrives.1, hstore⟩
      have onward : C.Yields (Parser.progressing item ending) s.reader
          (fun a r₁ => s.reader.offset < r₁.offset ∧ inv r₁ ∧
            ∀ as r₂, list r₁ as r₂ → list s.reader (a :: as) r₂)
          fun f => bad (f.enclose "ManyTill combinator failed." r) := by
        apply yields_progressing
        refine hitem.mono (fun a r₁ _ ha => ⟨ha.1, fun moved => ?_⟩)
          fun _ => id
        exact ⟨moved, ha.2 moved⟩
      apply (ends_enclosing (s := ⟨s.reader, store⟩) hr stays onward).imp_ok
      rintro m t ⟨arrives₁, -, moved, there, more⟩
      have fewer := bytesLeft_lt hb arrives₁.1 moved
      apply (ih (by omega) (stays.trans arrives₁) there).imp_ok
      rintro as u ⟨arrives₂, hlist⟩
      exact ⟨arrives₂, more as u.reader hlist⟩

theorem yields_manyTill {item : Parser α} {ending : Parser β} (inv : Reader → Prop)
    (start : inv r) (list : Reader → List α → Reader → Prop)
    (step : ∀ r', r.Reaches r' → inv r' → C.Yields ending.run r' (fun _ _ => list r' [] r')
      fun _ => C.Yields item.run r'
        (fun a r₁ => (r₁.offset = r'.offset →
          Refuses (fun f => bad (f.enclose "ManyTill combinator failed." r)) r') ∧
          (r'.offset < r₁.offset →
          inv r₁ ∧ ∀ as r₂, list r₁ as r₂ → list r' (a :: as) r₂))
        fun f => bad (f.enclose "ManyTill combinator failed." r)) :
    C.Yields (Parser.manyTill item ending).run r (list r) bad := by
  intro hr store hstore
  simp only [Parser.manyTill, Run.ends_bind, Run.ends_position, Run.ends_rounds, Run.ends_pure]
  have ends := ends_itemsTill (s := ⟨r, store⟩) hr step (r.bytesLeft + 1) (Nat.lt_succ_self _)
    (.refl hstore) start
  apply ends.imp_ok
  rintro as t ⟨arrives, hlist⟩
  exact ⟨arrives, rfl, hlist⟩

/-! ## Operands and operators -/

def initialFailed (name : String) : String :=
  s!"{name}: failed to parse initial value."

def rightFailed (name : String) : String :=
  s!"{name}: failed to parse right value."

/-- An operator and its right operand, or no operator. `inv r' after` says that `after` is to hold
of the rounds from `r'` on and of the reader behind them. Rounds that take nothing may go on until
the rounds are spent, so this has to be a way to halt. -/
def Round (C : Conditions) (r : Reader) (name : String) (operand : Parser α) (operator : Parser β)
    (inv : Reader → (List (β × α) → Reader → Prop) → Prop) (bad : Failure → Prop) : Prop :=
  ∀ r' after, r.Reaches r' → inv r' after → C.Yields operator.run r'
    (fun b r₁ => C.Yields operand.run r₁
      (fun a r₂ => (r₂.offset = r'.offset → C.halts .exhausted) ∧
        ∃ behind, inv r₂ behind ∧ ∀ ops r₃, behind ops r₃ → after ((b, a) :: ops) r₃)
      fun f => bad (f.enclose (rightFailed name) r))
    fun _ => after [] r'

/-- Either rounds may be spent, or there are enough of them for the bytes ahead. -/
theorem ends_operations {name : String} {operand : Parser α} {operator : Parser β}
    (hr : r.OnBoundary) {inv : Reader → (List (β × α) → Reader → Prop) → Prop}
    (step : C.Round r name operand operator inv bad)
    (rounds : Nat) (enough : C.halts .exhausted ∨ s.reader.bytesLeft < rounds)
    (arrives : C.Arrives r s) {after : List (β × α) → Reader → Prop} (here : inv s.reader after) :
    (Parser.operations name operand operator r.position rounds).Ends C.halts s
      (fun ops t => C.Arrives r t ∧ after ops t.reader)
      fun f t => C.Returns r t ∧ bad f := by
  induction rounds generalizing s after with
  | zero =>
    obtain exhausted | impossible := enough
    · exact exhausted
    · cases impossible
  | succ rounds ih =>
    have hb := arrives.1.onBoundary hr
    simp only [Parser.operations, Run.ends_bind, Run.ends_position]
    refine ends_orNothing hr arrives (step s.reader after arrives.1 here) ?_ ?_
    · rintro op t ⟨arrives₁, -, hoperand⟩
      have there := arrives.trans arrives₁
      simp only [Run.ends_bind, Run.ends_pure]
      apply (ends_enclosing hr there hoperand).imp_ok
      rintro m u ⟨arrives₂, -, idle, behind, onward, more⟩
      have walk := arrives₁.1.trans arrives₂.1
      have enough' : C.halts .exhausted ∨ u.reader.bytesLeft < rounds := by
        by_cases same : u.reader.offset = s.reader.offset
        · exact .inl (idle same)
        · have fewer := bytesLeft_lt hb walk
            (Nat.lt_of_le_of_ne walk.offset_le fun h => same h.symm)
          exact enough.imp_right fun h => by omega
      apply (ih enough' (there.trans arrives₂) onward).imp_ok
      rintro ops v ⟨arrives₃, hbehind⟩
      exact ⟨arrives₃, more ops v.reader hbehind⟩
    · rintro f t ⟨hreader, hstore⟩ none
      refine ⟨⟨by rw [hreader]; exact arrives.1, hstore⟩, ?_⟩
      rw [hreader]
      exact none

section Chains

variable {operand : Parser α} {operator : Parser (α → α → α)}
variable {inv : Reader → (List ((α → α → α) × α) → Reader → Prop) → Prop}

theorem ends_operands {name : String} (hr : r.OnBoundary) (hstore : C.stores store)
    (all : α × List ((α → α → α) × α) → Reader → Prop)
    (first : C.Yields operand.run r
      (fun a r₁ => ∃ behind, inv r₁ behind ∧ ∀ ops r₂, behind ops r₂ → all (a, ops) r₂)
      fun f => bad (f.enclose (initialFailed name) r))
    (step : C.Round r name operand operator inv bad) :
    (Parser.operands name operand operator).Ends C.halts ⟨r, store⟩
      (fun v t => C.Arrives r t ∧ all v t.reader) fun f t => C.Returns r t ∧ bad f := by
  simp only [Parser.operands, Parser.operandsWithin, Run.ends_bind, Run.ends_position,
    Run.ends_rounds, Run.ends_pure]
  apply (ends_enclosing (s := ⟨r, store⟩) hr (.refl hstore) first).imp_ok
  rintro m t ⟨arrives, -, behind, there, more⟩
  apply (ends_operations hr step _ (.inr (Nat.lt_succ_self _)) arrives there).imp_ok
  rintro ops u ⟨arrives', hbehind⟩
  exact ⟨arrives', more ops u.reader hbehind⟩

theorem yields_chainLeft
    (inv : Reader → (List ((α → α → α) × α) → Reader → Prop) → Prop)
    (first : C.Yields operand.run r
      (fun a r₁ => ∃ behind, inv r₁ behind ∧
        ∀ ops r₂, behind ops r₂ → good (Parser.combineLeft a ops) r₂)
      fun f => bad (f.enclose (initialFailed "Chainl1") r))
    (step : C.Round r "Chainl1" operand operator inv bad) :
    C.Yields (Parser.chainLeft operand operator).run r good bad := by
  intro hr store hstore
  simp only [Parser.chainLeft, Run.ends_bind, Run.ends_position, Run.ends_pure]
  have ends := ends_operands hr hstore (fun v r' => good (Parser.combineLeft v.1 v.2) r') first step
  apply ends.imp_ok
  rintro v t ⟨arrives, hv⟩
  exact ⟨arrives, rfl, hv⟩

theorem yields_chainRight
    (inv : Reader → (List ((α → α → α) × α) → Reader → Prop) → Prop)
    (first : C.Yields operand.run r
      (fun a r₁ => ∃ behind, inv r₁ behind ∧
        ∀ ops r₂, behind ops r₂ → good (Parser.combineRight a ops) r₂)
      fun f => bad (f.enclose (initialFailed "Chainr1") r))
    (step : C.Round r "Chainr1" operand operator inv bad) :
    C.Yields (Parser.chainRight operand operator).run r good bad := by
  intro hr store hstore
  simp only [Parser.chainRight, Run.ends_bind, Run.ends_position, Run.ends_pure]
  have ends := ends_operands hr hstore (fun v r' => good (Parser.combineRight v.1 v.2) r') first
    step
  apply ends.imp_ok
  rintro v t ⟨arrives, hv⟩
  exact ⟨arrives, rfl, hv⟩

end Chains

end RecursiveDescent.Conditions
