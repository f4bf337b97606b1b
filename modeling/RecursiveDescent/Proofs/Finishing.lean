import RecursiveDescent.Proofs.YieldingLoops

/-!
# Runs that finish

A combinator finishes if its parts do wherever it begins them. A run may succeed without taking
anything only under some condition, `idle`: that of a whole follows from those of its parts, and
where a part begins with nothing taken, the conditions of those before it hold.
-/
namespace RecursiveDescent

def Conditions.finishing : Conditions where
  halts _ := False
  stores _ := True
  emit _ _ := trivial

/-- What a walk took nothing of, its parts did not. -/
theorem Reader.Reaches.offset_eq {r r₁ r₂ : Reader} (h : r.Reaches r₁) (h' : r₁.Reaches r₂)
    (same : r₂.offset = r.offset) : r₁.offset = r.offset :=
  Nat.le_antisymm (same ▸ h'.offset_le) h.offset_le

theorem Text.lowercase_eq_nil {t : Text} (h : t.lowercase = []) : t = [] := by
  cases t with
  | nil => rfl
  | cons c rest =>
    have head : lowercaseChar [] c rest = [] := (List.append_eq_nil_iff.mp h).1
    rw [lowercaseChar] at head
    split at head
    · cases head
    · split at head
      · split at head <;> cases head
      · cases head

theorem Text.eq_nil_of_past {p : Position} {t : Text} (same : (p.past t).offset = p.offset) :
    t = [] := by
  rw [Position.offset_past] at same
  cases t with
  | nil => rfl
  | cons c rest =>
    have := byteLength_pos (List.cons_ne_nil c rest)
    omega

open Conditions

variable {α β γ : Type}

/-- The run from the reader finishes; if it succeeds without taking anything, `idle` holds. -/
def Run.FinishesFrom (run : Run (Match α)) (r : Reader) (idle : Prop) : Prop :=
  finishing.Yields run r (fun _ r' => r'.offset = r.offset → idle) fun _ => True

/-- It finishes as a part of a run from `r`, wherever that begins it; if nothing has been taken
there, `before` holds. -/
def Run.FinishesBehind (run : Run (Match α)) (r : Reader) (before idle : Prop) : Prop :=
  ∀ r', r.Reaches r' → (r'.offset = r.offset → before) → run.FinishesFrom r' idle

variable {r r' : Reader} {a b c before idle : Prop} {p item : Parser α} {q : Parser β}

theorem Run.FinishesFrom.imp {run : Run (Match α)} (h : run.FinishesFrom r a) (f : a → b) :
    run.FinishesFrom r b :=
  Yields.mono h (fun _ _ _ idle same => f (idle same)) fun _ => id

theorem Run.FinishesBehind.here {run : Run (Match α)} (h : run.FinishesBehind r before idle)
    (holds : before) : run.FinishesFrom r idle :=
  h r (.refl r) fun _ => holds

/-! ## Leaves -/

theorem finishes_recast (f : α → β) (h : p.run.FinishesFrom r a) :
    (p.recast f).run.FinishesFrom r a :=
  yields_recast h

/-- What takes a symbol takes something. -/
theorem finishes_oneWhere (label message expected : String) (accepts : Char → Bool) :
    (Parser.oneWhere label message expected accepts).run.FinishesFrom r a := by
  refine yields_oneWhere label message expected accepts (fun _ r' _ _ step same => ?_)
    fun _ _ _ _ => trivial
  exact absurd same (Nat.ne_of_gt (Reader.offset_lt_of_step? step))

theorem finishes_codePoint (label : String) (c : Char) :
    (Parser.codePoint label c).run.FinishesFrom r a := by
  refine yields_codePoint label c (fun r' _ step same => ?_) fun _ _ _ _ => trivial
  exact absurd same (Nat.ne_of_gt (Reader.offset_lt_of_step? step))

/-- Only the empty literal takes nothing. -/
theorem finishes_literal (label : String) (text : Text) :
    (Parser.literal label text).run.FinishesFrom r (text = []) :=
  yields_literal label text (fun _ _ _ => Text.eq_nil_of_past) fun _ _ _ => trivial

theorem finishes_literalIgnoringCase (label : String) (text : Text) :
    (Parser.literalIgnoringCase label text).run.FinishesFrom r (text = []) := by
  refine yields_literalIgnoringCase label text (fun walked rest _ _ lower same => ?_)
    fun _ _ _ => trivial
  rw [Text.eq_nil_of_past same] at lower
  exact Text.lowercase_eq_nil lower.symm

/-! ## Alternatives, guards and lookahead -/

/-- A condition of all alternatives is a condition of the choice. -/
theorem finishes_choice (label : String) {ps : List (Parser α)}
    (h : ∀ p ∈ ps, p.run.FinishesFrom r a) : (Parser.choice label ps).run.FinishesFrom r a :=
  yields_choice (yields_choiceFrom h (fun _ _ => trivial) fun _ _ _ => trivial)

theorem finishes_either {p q : Parser α} (hp : p.run.FinishesFrom r a)
    (hq : q.run.FinishesFrom r b) : (Parser.either p q).run.FinishesFrom r (a ∨ b) := by
  apply finishes_choice
  rw [List.forall_mem_cons, List.forall_mem_singleton]
  exact ⟨hp.imp .inl, hq.imp .inr⟩

/-- Where the last of the parsers ends, the whole does. -/
theorem finishes_allOf (label : String) {ps : List (Parser α)}
    (h : ∀ p ∈ ps, p.run.FinishesFrom r True)
    (last : ∀ p, ps.getLast? = some p → p.run.FinishesFrom r a) :
    (Parser.allOf label ps).run.FinishesFrom r a :=
  yields_allOf (fun p hp => (h p hp).mono (fun _ _ _ _ => trivial) fun _ => id) last
    fun _ _ _ _ => trivial

theorem finishes_optional (h : p.run.FinishesFrom r a) :
    (Parser.optional p).run.FinishesFrom r True :=
  yields_optional (h.mono (fun _ _ _ _ _ => trivial) fun _ _ _ => trivial)

theorem finishes_notAhead (label : String) (h : p.run.FinishesFrom r a) :
    (Parser.notAhead label p).run.FinishesFrom r True :=
  yields_notAhead (h.mono (fun _ _ _ _ _ _ _ => trivial) fun _ _ _ => trivial)

/-! ## One parser after the other -/

/-- A pair takes nothing if both of its parts take nothing. -/
theorem finishes_andThen (left : p.run.FinishesFrom r a) (right : q.run.FinishesBehind r a b) :
    (Parser.andThen p q).run.FinishesFrom r (a ∧ b) := by
  apply yields_andThen
  refine left.mono (fun _ r₁ walk idle => ?_) fun _ _ => trivial
  refine (right r₁ walk idle).mono (fun _ r₂ walk' idle' same => ?_) fun _ _ => trivial
  have same₁ := walk.offset_eq walk' same
  exact ⟨idle same₁, idle' (same.trans same₁.symm)⟩

theorem finishes_between {closing : Parser γ} (first : p.run.FinishesFrom r a)
    (second : q.run.FinishesBehind r a b) (third : closing.run.FinishesBehind r (a ∧ b) c) :
    (Parser.between p q closing).run.FinishesFrom r ((a ∧ b) ∧ c) := by
  apply yields_between
  refine first.mono (fun _ r₁ walk₁ idle₁ => ?_) fun _ => id
  refine (second r₁ walk₁ idle₁).mono (fun _ r₂ walk₂ idle₂ => ?_) fun _ => id
  have both : r₂.offset = r.offset → a ∧ b := by
    intro same
    have same₁ := walk₁.offset_eq walk₂ same
    exact ⟨idle₁ same₁, idle₂ (same.trans same₁.symm)⟩
  have walk := walk₁.trans walk₂
  refine (third r₂ walk both).mono (fun _ r₃ walk₃ idle₃ same => ?_) fun _ => id
  have same₂ := walk.offset_eq walk₃ same
  exact ⟨both same₂, idle₃ (same.trans same₂.symm)⟩

/-- `passed i` holds where the parser of that index begins with nothing taken, and goes on from one
to the next. -/
theorem finishes_inOrder (label : String) {ps : List (Parser α)} {passed idle : Nat → Prop}
    (start : passed 0) (next : ∀ i, passed i → idle i → passed (i + 1))
    (h : ∀ i (p : Parser α), ps[i]? = some p → p.run.FinishesBehind r (passed i) (idle i)) :
    (Parser.inOrder label ps).run.FinishesFrom r (passed ps.length) := by
  refine yields_inOrder
    (fun left r' => ∃ i, left = ps.drop i ∧ (r'.offset = r.offset → passed i))
    ⟨0, rfl, fun _ => start⟩ ?_ fun _ _ _ _ => trivial
  rintro p left r' walk ⟨i, here, before⟩
  have at_i : ps[i]? = some p := by rw [← List.head?_drop, ← here, List.head?_cons]
  have behind : left = ps.drop (i + 1) := by rw [← List.tail_drop, ← here, List.tail_cons]
  refine (h i p at_i r' walk before).mono (fun _ r₁ walk' idle => ?_) fun _ _ => trivial
  have onward : r₁.offset = r.offset → passed (i + 1) := by
    intro same
    have same' := walk.offset_eq walk' same
    exact next i (before same') (idle (same.trans same'.symm))
  refine ⟨⟨i + 1, behind, onward⟩, fun none => ?_⟩
  have inside := (List.getElem?_eq_some_iff.mp at_i).1
  have last : ps.length = i + 1 :=
    Nat.le_antisymm (List.drop_eq_nil_iff.mp (behind.symm.trans none)) inside
  rw [last]
  exact onward

/-! ## Changing what a parser gives -/

theorem finishes_filter (label : String) (accepts : α → Bool) (h : p.run.FinishesFrom r a) :
    (Parser.filter label accepts p).run.FinishesFrom r a :=
  yields_filter (h.mono (fun _ _ _ idle => ⟨fun _ => idle, fun _ _ _ _ => trivial⟩) fun _ => id)

/-- If nothing was taken with the blanks behind it, nothing was taken before them. -/
theorem finishes_lexeme (h : p.run.FinishesFrom r a) :
    (Parser.lexeme p).run.FinishesFrom r a := by
  apply yields_lexeme
  refine h.mono (fun _ r₁ walk idle walked rest _ _ _ same => idle ?_) fun _ => id
  have behind := Position.offset_past r₁.position walked
  have ahead := walk.offset_le
  simp only [Reader.offset] at same ahead ⊢
  omega

/-! ## Repetitions -/

/-- A repetition may take nothing whatever its item is. -/
theorem finishes_many (h : item.run.FinishesBehind r True a) :
    (Parser.many item).run.FinishesFrom r True := by
  refine (yields_many (fun _ => True) trivial (fun _ _ _ => True) fun r' walk _ => ?_).mono
    (fun _ _ _ _ _ => trivial) fun _ => id
  exact (h r' walk fun _ => trivial).mono (fun _ _ _ _ => continues_any) fun _ _ => trivial

/-- Of items that are repeated, the first tells whether they may take nothing. -/
theorem finishes_many1 (h : item.run.FinishesBehind r True a) :
    (Parser.many1 item).run.FinishesFrom r a := by
  -- a list that begins further on says nothing of the first item
  let list (r₁ : Reader) (_ : List α) (r₂ : Reader) : Prop :=
    r₁.offset ≤ r₂.offset ∧ (r₁ = r → r₂.offset = r.offset → a)
  have continued : ∀ r', r.Reaches r' → finishing.Yields item.run r'
      (Continues (fun r₁ => r.offset < r₁.offset) list r') fun _ => True := by
    intro r' walk
    refine (h r' walk fun _ => trivial).mono (fun _ r₁ walk₁ first =>
      ⟨fun _ => ⟨walk₁.offset_le, ?_⟩, fun moved => ?_⟩) fun _ => id
    · rintro rfl
      exact first
    · have before := walk.offset_le
      refine ⟨by omega, fun _ r₂ rest => ⟨by have := rest.1; omega, fun _ same => ?_⟩⟩
      have := rest.1
      omega
  refine (yields_many1 (fun r₁ => r.offset < r₁.offset) list (continued r (.refl r))
    fun r' walk moved => ?_).mono (fun _ _ _ all => all.2 rfl) fun _ => id
  refine (continued r' walk).mono (fun _ _ _ => id) fun _ _ => ⟨Nat.le_refl _, ?_⟩
  rintro rfl
  exact absurd moved (Nat.lt_irrefl _)

/-- The first item tells whether a list may take nothing. -/
theorem finishes_sepBy (hitem : item.run.FinishesBehind r True a)
    (delimiter : q.run.FinishesBehind r a b) : (Parser.sepBy item q).run.FinishesFrom r a := by
  refine yields_sepBy (fun r' => r'.offset = r.offset → a) (fun r' _ r'' => r'.offset ≤ r''.offset)
    ?_ fun r' walk passed => ?_
  · refine (hitem.here trivial).mono (fun _ r₁ walk₁ idle => ⟨idle, fun _ r₂ le same => ?_⟩)
      fun _ _ => trivial
    exact idle (Nat.le_antisymm (same ▸ le) walk₁.offset_le)
  · refine (delimiter r' walk passed).mono (fun _ r₁ walk₁ _ => ?_) fun _ _ => Nat.le_refl _
    refine (hitem r₁ (walk.trans walk₁) fun _ => trivial).mono (fun _ r₂ walk₂ _ => ?_)
      fun _ _ => trivial
    have onward := (walk₁.trans walk₂).offset_le
    have before := walk.offset_le
    exact ⟨fun _ => onward, fun moved => ⟨fun same => by omega, fun _ _ => Nat.le_trans onward⟩⟩

theorem finishes_manyTill (hitem : item.run.FinishesBehind r True a)
    (ending : q.run.FinishesBehind r True b) :
    (Parser.manyTill item q).run.FinishesFrom r True := by
  refine (yields_manyTill (fun _ => True) trivial (fun _ _ _ => True) fun r' walk _ => ?_).mono
    (fun _ _ _ _ _ => trivial) fun _ => id
  refine (ending r' walk fun _ => trivial).mono (fun _ _ _ _ => trivial) fun _ _ => ?_
  refine (hitem r' walk fun _ => trivial).mono (fun _ _ _ _ => ?_) fun _ _ => trivial
  exact ⟨fun _ _ _ _ => trivial, fun _ => ⟨trivial, fun _ _ _ => trivial⟩⟩

/-! ## Operands and operators -/

section Chains

variable {operand : Parser α} {operator : Parser (α → α → α)}

/-- What is to hold of the rounds from `r'` on, in a chain from `r` whose operands may take nothing
or not: no more than that the reader goes on. -/
def RoundsFrom (r : Reader) (idle : Prop) (r' : Reader)
    (after : List ((α → α → α) × α) → Reader → Prop) : Prop :=
  (r'.offset = r.offset → idle) ∧ ∀ ops r'', r'.offset ≤ r''.offset → after ops r''

theorem roundsFrom_first (walk : r.Reaches r') (h : r'.offset = r.offset → idle) :
    ∃ behind : List ((α → α → α) × α) → Reader → Prop, RoundsFrom r idle r' behind ∧
      ∀ ops r₂, behind ops r₂ → r₂.offset = r.offset → idle := by
  refine ⟨fun _ r₂ => r'.offset ≤ r₂.offset, ⟨h, fun _ _ le => le⟩, fun _ r₂ le same => ?_⟩
  exact h (Nat.le_antisymm (same ▸ le) walk.offset_le)

/-- A round of an operator and an operand, not both of which may take nothing. -/
theorem finishes_round (notBoth : ¬ (a ∧ b)) (operands : operand.run.FinishesBehind r True a)
    (operators : operator.run.FinishesBehind r a b) (name : String) :
    finishing.Round r name operand operator (RoundsFrom r a) fun _ => True := by
  intro r' after walk here
  refine (operators r' walk here.1).mono (fun _ r₁ walk₁ idle₁ => ?_)
    fun _ _ => here.2 _ r' (Nat.le_refl _)
  refine (operands r₁ (walk.trans walk₁) fun _ => trivial).mono
    (fun _ r₂ walk₂ idle₂ => ⟨fun same => ?_, ?_⟩) fun _ => id
  · have same₁ := walk₁.offset_eq walk₂ same
    exact notBoth ⟨idle₂ (same.trans same₁.symm), idle₁ same₁⟩
  · have onward := (walk₁.trans walk₂).offset_le
    refine ⟨fun _ r₃ => r₂.offset ≤ r₃.offset, ⟨fun same => ?_, fun _ _ le => le⟩,
      fun _ r₃ le => here.2 _ r₃ (Nat.le_trans onward le)⟩
    exact here.1 (walk.offset_eq (walk₁.trans walk₂) same)

/-- Rounds that take something each end before the bytes ahead do. -/
theorem finishes_chainLeft (notBoth : ¬ (a ∧ b)) (operands : operand.run.FinishesBehind r True a)
    (operators : operator.run.FinishesBehind r a b) :
    (Parser.chainLeft operand operator).run.FinishesFrom r a := by
  refine yields_chainLeft (RoundsFrom r a) ?_ (finishes_round notBoth operands operators _)
  exact (operands.here trivial).mono (fun _ _ => roundsFrom_first) fun _ _ => trivial

theorem finishes_chainRight (notBoth : ¬ (a ∧ b)) (operands : operand.run.FinishesBehind r True a)
    (operators : operator.run.FinishesBehind r a b) :
    (Parser.chainRight operand operator).run.FinishesFrom r a := by
  refine yields_chainRight (RoundsFrom r a) ?_ (finishes_round notBoth operands operators _)
  exact (operands.here trivial).mono (fun _ _ => roundsFrom_first) fun _ _ => trivial

end Chains

end RecursiveDescent
