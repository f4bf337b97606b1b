import RecursiveDescent.Proofs.Tokens
import RecursiveDescent.Proofs.YieldingLoops

/-!
# Arithmetic expressions, written and read back

An expression is written with brackets where precedence needs them, perhaps more, and white space
behind each token. The grammar of sums, products and brackets reads it back as it is.
-/
namespace RecursiveDescent.Arithmetic

open Grammar Conditions

/-! ## The grammar -/

def token (label : String) (c : Char) : Grammar :=
  .lexeme (.codePoint label c)

def numeral : Grammar :=
  .lexeme (.filter "integer" Value.isNonempty (.takeWhile "digits" Unicode.isAsciiDigit))

def additive : Grammar :=
  .choice "additive operator" [token "plus" '+', token "minus" '-']

def multiplicative : Grammar :=
  .choice "multiplicative operator" [token "times" '*', token "divide" '/']

def factor : Grammar :=
  .choice "factor" [numeral, .between (token "(" '(') (.reference "expr") (token ")" ')')]

def product : Grammar :=
  .chainLeft .operation factor multiplicative

def sum : Grammar :=
  .chainLeft .operation product additive

/-- A sum, with white space in front and nothing behind. -/
def arithmetic : Grammar :=
  .fst (.andThen (.snd (.andThen spaces (.recursive "expr" sum))) .endOfInput)

/-! ## Expressions -/

inductive Operator where
  | plus
  | minus
  | times
  | divide
deriving DecidableEq

namespace Operator

def char : Operator → Char
  | plus => '+'
  | minus => '-'
  | times => '*'
  | divide => '/'

def level : Operator → Nat
  | plus | minus => 0
  | times | divide => 1

end Operator

structure Numeral where
  text : Text
  nonempty : text ≠ []
  digits : ∀ c ∈ text, Unicode.isAsciiDigit c = true

structure Blank where
  text : Text
  white : ∀ c ∈ text, Unicode.isWhiteSpace c = true

inductive Expression where
  | number (n : Numeral)
  | binary (op : Operator) (left right : Expression)

def Expression.value : Expression → Value
  | number n => .text n.text
  | binary op left right => .operation (.char op.char) left.value right.value

/-- The text writes the expression, its outermost operator being of the level; numbers and what
stands in brackets are of level two. A left operand may not bind less than the operator, and a right
operand has to bind more. -/
inductive Writes : Nat → Expression → Text → Prop
  | number (n : Numeral) (blank : Blank) : Writes 2 (.number n) (n.text ++ blank.text)
  | binary {i j : Nat} {left right : Expression} {s t : Text} (op : Operator) (blank : Blank)
    (looser : op.level ≤ i) (tighter : op.level < j) (hl : Writes i left s)
    (hr : Writes j right t) :
    Writes op.level (.binary op left right) (s ++ op.char :: (blank.text ++ t))
  | brackets {i : Nat} {e : Expression} {s : Text} (opened closed : Blank) (h : Writes i e s) :
    Writes 2 e ('(' :: (opened.text ++ s) ++ ')' :: closed.text)

theorem Operator.char_injective : Function.Injective Operator.char := by
  intro op op' h
  cases op <;> cases op' <;> first | rfl | exact absurd h (by decide)

/-- Different expressions have different values, so the value of a parse tells which was read. -/
theorem Expression.value_injective : Function.Injective Expression.value := by
  intro e e' h
  induction e generalizing e' with
  | number n =>
    cases e' with
    | number n' =>
      obtain ⟨t, _, _⟩ := n
      obtain ⟨t', _, _⟩ := n'
      obtain rfl : t = t' := Value.text.inj h
      rfl
    | binary op left right => cases h
  | binary op left right ihl ihr =>
    cases e' with
    | number n => cases h
    | binary op' left' right' =>
      obtain ⟨hop, hl, hr⟩ := Value.operation.inj h
      rw [Operator.char_injective (Value.char.inj hop), ihl hl, ihr hr]

def Blank.none : Blank :=
  ⟨[], nofun⟩

/-! ## What may follow -/

/-- A character of a token, or of a number. -/
def Visible (c : Char) : Prop :=
  0x21 ≤ c.toNat ∧ c.toNat < 0x85

instance (c : Char) : Decidable (Visible c) :=
  inferInstanceAs (Decidable (_ ∧ _))

theorem Visible.not_isWhiteSpace {c : Char} (h : Visible c) : ¬ Unicode.isWhiteSpace c = true := by
  obtain ⟨low, high⟩ := h
  have four : (Unicode.whiteSpace.changes.takeWhile (· ≤ c.toNat)).length = 4 := by
    rw [Unicode.whiteSpace]
    iterate 4 rw [List.takeWhile_cons_of_pos (by rw [decide_eq_true_eq]; omega)]
    rw [List.takeWhile_cons_of_neg (by rw [decide_eq_true_eq]; omega)]
    rfl
  rw [Unicode.isWhiteSpace, Unicode.CharSet.mem, four]
  decide

theorem Visible.noBreak {c : Char} (h : Visible c) : c ≠ '\r' := by
  rintro rfl
  exact absurd h.1 (by decide)

theorem Visible.stops {c : Char} (h : Visible c) (rest : Text) :
    Text.Stops Unicode.isWhiteSpace (c :: rest) :=
  Text.stops_cons h.not_isWhiteSpace fun same => absurd same h.noBreak

theorem isAsciiDigit_iff {c : Char} :
    Unicode.isAsciiDigit c = true ↔ 0x30 ≤ c.toNat ∧ c.toNat ≤ 0x39 := by
  rw [Unicode.isAsciiDigit, Bool.and_eq_true, decide_eq_true_eq, decide_eq_true_eq]
  exact Iff.rfl

theorem visible_of_isAsciiDigit {c : Char} (h : Unicode.isAsciiDigit c = true) : Visible c := by
  have := isAsciiDigit_iff.mp h
  exact ⟨by omega, by omega⟩

/-- Behind what is read at a level there is a closing bracket, an operator that binds less, or
nothing. -/
def Follows (level : Nat) (rest : Text) : Prop :=
  ∀ c, rest.head? = some c → c = ')' ∨ ∃ op : Operator, op.level < level ∧ c = op.char

variable {level i : Nat} {e : Expression} {s rest : Text} {op : Operator}

theorem Follows.mono {level' : Nat} (h : Follows level rest) (le : level ≤ level') :
    Follows level' rest := by
  intro c hc
  refine (h c hc).imp_right ?_
  rintro ⟨op, lower, rfl⟩
  exact ⟨op, Nat.lt_of_lt_of_le lower le, rfl⟩

theorem Follows.visible (h : Follows level rest) {c : Char} (hc : rest.head? = some c) :
    Visible c ∧ ¬ Unicode.isAsciiDigit c = true := by
  rcases h c hc with rfl | ⟨op, -, rfl⟩
  · decide
  · cases op <;> decide

theorem Follows.stops (h : Follows level rest) : rest.Stops Unicode.isWhiteSpace := by
  cases rest with
  | nil => exact Text.stops_nil
  | cons c rest => exact (h.visible rfl).1.stops rest

/-- Neither does white space continue a number, nor what may follow that. -/
theorem Follows.stops_digit (h : Follows level rest) (blank : Blank) :
    (blank.text ++ rest).Stops Unicode.isAsciiDigit := by
  have newline : ¬ Unicode.isAsciiDigit '\n' = true := by decide
  cases blank_eq : blank.text with
  | nil =>
    cases rest with
    | nil => exact Text.stops_nil
    | cons c rest => exact Text.stops_cons (h.visible rfl).2 fun _ => newline
  | cons c spaces =>
    refine Text.stops_cons (fun digit => ?_) fun _ => newline
    have white := blank.white c (blank_eq ▸ List.mem_cons_self)
    exact (visible_of_isAsciiDigit digit).not_isWhiteSpace white

def Begins (s : Text) : Prop :=
  ∃ c t, s = c :: t ∧ Visible c

theorem Begins.stops (h : Begins s) (rest : Text) : (s ++ rest).Stops Unicode.isWhiteSpace := by
  obtain ⟨c, t, rfl, visible⟩ := h
  exact visible.stops (t ++ rest)

theorem Writes.begins (h : Writes i e s) : Begins s := by
  induction h with
  | number n blank =>
    obtain ⟨c, t, hn⟩ := List.exists_cons_of_ne_nil n.nonempty
    have digit := n.digits c (hn ▸ List.mem_cons_self)
    exact ⟨c, t ++ blank.text, by rw [hn, List.cons_append], visible_of_isAsciiDigit digit⟩
  | binary op blank _ _ _ _ ihl _ =>
    obtain ⟨c, t, rfl, visible⟩ := ihl
    exact ⟨c, _, rfl, visible⟩
  | brackets opened closed _ _ => exact ⟨'(', _, rfl, by decide⟩

/-! ## The parts of the grammar -/

def exprNode : NodeId := [1, 0, 0, 0]

def expr : Rule := ⟨"expr", exprNode, sum⟩

/-- What is read at each level. -/
def grammarAt : Nat → Grammar
  | 0 => sum
  | 1 => product
  | _ => factor

def operators : Nat → Grammar
  | 0 => additive
  | _ => multiplicative

/-- Within the rule: it is built, and no run is cut short. -/
def inExpr : Conditions where
  halts _ := False
  stores store := store.isAvailable exprNode = true
  emit _ h := h

/-- Wherever the text stands, and whatever may follow it, the parser of the level takes it and gives
the expression. -/
def ReadsAt (level : Nat) (e : Expression) (s : Text) : Prop :=
  ∀ depth node r rest, s.byteLength ≤ depth → r.remaining = s ++ rest → Follows level rest →
    inExpr.Yields (parser (enter depth) [expr] node (grammarAt level)).run r
      (fun v r' => v = e.value ∧ r.Passes s r') fun _ => False

section Tokens

variable {run : Rule → Scope → Run (Match Value)} {scope : Scope} {node : NodeId}
variable {C : Conditions} {r : Reader} {bad : Failure → Prop} {label : String} {c : Char}

/-- A token takes its character and the blanks behind it. -/
theorem yields_this (hr : r.OnBoundary) (visible : Visible c) (blank : Blank)
    (ahead : r.remaining = c :: (blank.text ++ rest)) (stops : rest.Stops Unicode.isWhiteSpace) :
    C.Yields (parser run scope node (token label c)).run r
      (fun v r' => v = .char c ∧ r.Passes (c :: blank.text) r') bad := by
  have one : r.remaining = [c] ++ (blank.text ++ rest) := ahead
  refine yields_token hr one blank.white stops (yields_recast ?_)
  refine (yields_known hr ahead visible.noBreak).mono (fun d r' _ known => ?_) fun _ => id
  exact ⟨congrArg Value.char known.1, known.2⟩

theorem yields_another (other : r.peek? ≠ some c) :
    C.Yields (parser run scope node (token label c)).run r (fun _ _ => False) fun _ => True :=
  yields_lexeme (yields_recast ((yields_unknown other).mono (fun _ _ _ => False.elim) fun _ => id))

variable {label₁ label₂ : String} {c₁ c₂ : Char}

theorem yields_oneOfTwo (hr : r.OnBoundary) (visible : Visible c) (blank : Blank)
    (ahead : r.remaining = c :: (blank.text ++ rest)) (stops : rest.Stops Unicode.isWhiteSpace)
    (found : c = c₁ ∨ c = c₂) :
    C.Yields (parser run scope node (.choice label [token label₁ c₁, token label₂ c₂])).run r
      (fun v r' => v = .char c ∧ r.Passes (c :: blank.text) r') bad := by
  apply yields_choice
  apply yields_choiceFrom_cons
  by_cases first : c = c₁
  · subst first
    exact yields_this hr visible blank ahead stops
  · obtain rfl := found.resolve_left first
    have other : r.peek? ≠ some c₁ := by
      rw [Reader.peek?_cons ahead visible.noBreak]
      simpa using first
    refine (yields_another other).mono (fun _ _ _ => False.elim) fun _ _ => ?_
    exact yields_choiceFrom_cons (yields_this hr visible blank ahead stops)

theorem yields_noneOfTwo (other₁ : r.peek? ≠ some c₁) (other₂ : r.peek? ≠ some c₂) :
    C.Yields (parser run scope node (.choice label [token label₁ c₁, token label₂ c₂])).run r
      (fun _ _ => False) fun _ => True := by
  apply yields_choice
  refine yields_choiceFrom ?_ (fun _ _ => trivial) fun _ _ _ => trivial
  simp only [parsers, List.forall_mem_cons]
  exact ⟨yields_another other₁, yields_another other₂, List.forall_mem_nil _⟩

/-- At a level its operators are read, whichever of the two stands there. -/
theorem yields_operator (hr : r.OnBoundary) (op : Operator) (blank : Blank)
    (ahead : r.remaining = op.char :: (blank.text ++ rest))
    (stops : rest.Stops Unicode.isWhiteSpace) :
    C.Yields (parser run scope node (operators op.level)).run r
      (fun v r' => v = .char op.char ∧ r.Passes (op.char :: blank.text) r') bad := by
  cases op with
  | plus | times => exact yields_oneOfTwo hr (by decide) blank ahead stops (.inl rfl)
  | minus | divide => exact yields_oneOfTwo hr (by decide) blank ahead stops (.inr rfl)

theorem Follows.peek?_ne (h : Follows level r.remaining) (op : Operator)
    (same : op.level = level) : r.peek? ≠ some op.char := by
  intro peek
  cases ahead : r.remaining with
  | nil =>
    rw [Reader.peek?, ahead] at peek
    cases peek
  | cons c rest =>
    rw [ahead] at h
    rw [Reader.peek?_cons ahead (h.visible rfl).1.noBreak] at peek
    rcases h c rfl with rfl | ⟨op', lower, rfl⟩
    · cases op <;> exact absurd peek (by decide)
    · have other : op'.level ≠ op.level := by omega
      cases op <;> cases op' <;> first | exact absurd rfl other | exact absurd peek (by decide)

/-- No operator of the level itself may follow. -/
theorem yields_noOperator (h : Follows level r.remaining) (below : level < 2) :
    C.Yields (parser run scope node (operators level)).run r (fun _ _ => False) fun _ => True := by
  obtain rfl | rfl : level = 0 ∨ level = 1 := by omega
  · exact yields_noneOfTwo (h.peek?_ne .plus rfl) (h.peek?_ne .minus rfl)
  · exact yields_noneOfTwo (h.peek?_ne .times rfl) (h.peek?_ne .divide rfl)

/-- All digits of a number are taken, because what follows is none. -/
theorem yields_numeral (hr : r.OnBoundary) (n : Numeral) (blank : Blank)
    (ahead : r.remaining = n.text ++ (blank.text ++ rest)) (h : Follows level rest) :
    C.Yields (parser run scope node numeral).run r
      (fun v r' => v = .text n.text ∧ r.Passes (n.text ++ blank.text) r') bad := by
  refine yields_token hr ahead blank.white h.stops (yields_filter (yields_recast ?_))
  have whole : ¬ Text.SplitsBreak n.text (blank.text ++ rest) := by
    rintro ⟨last, -⟩
    exact absurd (n.digits _ (List.mem_of_getLast? last)) (by decide)
  refine (yields_run hr ahead n.digits (h.stops_digit blank) whole).mono (fun t r' _ known => ?_)
    fun _ => id
  have accepted : Value.isNonempty (.text t) = true := by
    rw [known.1, Value.isNonempty, Value.toText]
    simpa using n.nonempty
  exact ⟨fun _ => ⟨congrArg Value.text known.1, known.2⟩, fun refused => absurd accepted refused⟩

theorem yields_noNumeral (hr : r.OnBoundary) (stops : r.remaining.Stops Unicode.isAsciiDigit) :
    C.Yields (parser run scope node numeral).run r (fun _ _ => False) fun _ => True := by
  refine yields_lexeme (yields_filter (yields_recast ?_))
  have none : r.remaining = [] ++ r.remaining := rfl
  refine (yields_run hr none nofun stops nofun).mono (fun t r' _ known => ?_) fun _ => id
  refine ⟨fun accepted => ?_, fun _ _ _ _ => trivial⟩
  rw [known.1] at accepted
  cases accepted

end Tokens

/-! ## Chains of operators -/

structure Round where
  op : Operator
  blank : Blank
  operand : Expression
  text : Text

namespace Round

def written (x : Round) : Text :=
  x.op.char :: (x.blank.text ++ x.text)

def writtenAll (xs : List Round) : Text :=
  xs.flatMap written

def Ready (level : Nat) (x : Round) : Prop :=
  x.op.level = level ∧ Begins x.text ∧ ReadsAt (level + 1) x.operand x.text

end Round

def joined (e : Expression) (xs : List Round) : Expression :=
  xs.foldl (fun left x => .binary x.op left x.operand) e

/-- A first operand and rounds of the level, of which the expression is made from the left. -/
def Spine (level : Nat) (e : Expression) (s : Text) : Prop :=
  ∃ first head xs, e = joined first xs ∧ s = head ++ Round.writtenAll xs ∧
    ReadsAt (level + 1) first head ∧ ∀ x ∈ xs, Round.Ready level x

theorem spine_of_readsAt (h : ReadsAt (level + 1) e s) : Spine level e s :=
  ⟨e, s, [], rfl, (List.append_nil s).symm, h, nofun⟩

/-- One more operation of the level, on the right of those read so far. -/
theorem Spine.append (h : Spine op.level e s) (blank : Blank) {right : Expression} {t : Text}
    (begins : Begins t) (hr : ReadsAt (op.level + 1) right t) :
    Spine op.level (.binary op e right) (s ++ op.char :: (blank.text ++ t)) := by
  obtain ⟨first, head, xs, rfl, rfl, hfirst, hxs⟩ := h
  refine ⟨first, head, xs ++ [⟨op, blank, right, t⟩], ?_, ?_, hfirst, ?_⟩
  · rw [joined, joined, List.foldl_append]
    rfl
  · rw [Round.writtenAll, Round.writtenAll, List.flatMap_append, List.append_assoc]
    simp [Round.written]
  · intro x hx
    rcases List.mem_append.mp hx with hx | hx
    · exact hxs x hx
    · obtain rfl := List.mem_singleton.mp hx
      exact ⟨rfl, begins, hr⟩

def joinedValue (v : Value) (xs : List Round) : Value :=
  xs.foldl (fun left x => .operation (.char x.op.char) left x.operand.value) v

theorem value_joined (e : Expression) (xs : List Round) :
    (joined e xs).value = joinedValue e.value xs := by
  induction xs generalizing e with
  | nil => rfl
  | cons x xs ih => exact ih (.binary x.op e x.operand)

/-- What follows the operand of a round is another round, or what follows them all. -/
theorem follows_rounds {xs : List Round} (ready : ∀ x ∈ xs, Round.Ready level x)
    (h : Follows level rest) : Follows (level + 1) (Round.writtenAll xs ++ rest) := by
  cases xs with
  | nil => exact h.mono (Nat.le_succ level)
  | cons x xs =>
    have same := (ready x List.mem_cons_self).1
    intro c hc
    obtain rfl : x.op.char = c := Option.some.inj hc
    exact .inr ⟨x.op, by omega, rfl⟩

/-- Below the highest level, a level is a chain of operands of the next one. -/
theorem parser_grammarAt {run : Rule → Scope → Run (Match Value)} {scope : Scope} {node : NodeId}
    (below : level < 2) :
    parser run scope node (grammarAt level) =
      Parser.chainLeft (parser run scope (0 :: node) (grammarAt (level + 1)))
        ((parser run scope (1 :: node) (operators level)).recast .operation) := by
  obtain rfl | rfl : level = 0 ∨ level = 1 := by omega
  · rfl
  · rfl

/-- From `r'` on stand rounds, which tell what is to be given. -/
def RoundsAhead (level depth : Nat) (rest : Text) (r' : Reader)
    (after : List ((Value → Value → Value) × Value) → Reader → Prop) : Prop :=
  ∃ xs, (∀ x ∈ xs, Round.Ready level x) ∧ (Round.writtenAll xs).byteLength ≤ depth ∧
    r'.remaining = Round.writtenAll xs ++ rest ∧
    ∀ ops r'', (∀ v, Parser.combineLeft v ops = joinedValue v xs) →
      r'.Passes (Round.writtenAll xs) r'' → after ops r''

/-- The chain of a level reads a first operand and all rounds behind it, and joins them from the
left. -/
theorem readsAt_of_spine (below : level < 2) (h : Spine level e s) : ReadsAt level e s := by
  obtain ⟨first, head, xs, rfl, rfl, hfirst, hxs⟩ := h
  intro depth node r rest short ahead follows
  rw [Text.byteLength_append] at short
  rw [List.append_assoc] at ahead
  rw [parser_grammarAt below]
  apply Yields.of_onBoundary
  intro hr
  refine yields_chainLeft (RoundsAhead level depth rest) ?_ fun r' after walk rounds => ?_
  · refine (hfirst depth (0 :: node) r _ (by omega) ahead (follows_rounds hxs follows)).mono
      (fun v r₁ _ operand => ?_) fun _ => False.elim
    refine ⟨fun ops r₂ => (∀ v, Parser.combineLeft v ops = joinedValue v xs) ∧
      r₁.Passes (Round.writtenAll xs) r₂, ⟨xs, hxs, by omega, operand.2.remaining_eq ahead,
      fun _ _ gives passes => ⟨gives, passes⟩⟩, fun ops r₂ behind => ⟨?_, ?_⟩⟩
    · rw [behind.1, operand.1, value_joined]
    · exact operand.2.trans behind.2
  · obtain ⟨xs, ready, short, ahead, enough⟩ := rounds
    apply yields_recast
    cases xs with
    | nil =>
      have follows' : Follows level r'.remaining := by rwa [ahead]
      refine (yields_noOperator follows' below).mono (fun _ _ _ => False.elim) fun _ _ => ?_
      exact enough [] r' (fun _ => rfl) (.refl r')
    | cons x xs =>
      obtain ⟨⟨rfl, begins, reads⟩, ready⟩ := List.forall_mem_cons.mp ready
      have here : r'.remaining =
          x.op.char :: (x.blank.text ++ (x.text ++ (Round.writtenAll xs ++ rest))) := by
        rw [ahead]
        simp [Round.writtenAll, Round.written]
      have long : (Round.writtenAll (x :: xs)).byteLength = x.op.char.utf8Size +
          (x.blank.text.byteLength + (x.text.byteLength + (Round.writtenAll xs).byteLength)) := by
        simp [Round.writtenAll, Round.written, Text.byteLength, Text.byteLength_append]
      have positive := x.op.char.utf8Size_pos
      refine (yields_operator (walk.onBoundary hr) x.op x.blank here (begins.stops _)).mono
        (fun b r₁ walk₁ operator => ?_) fun _ => False.elim
      have there := operator.2.remaining_eq here
      refine (reads depth (0 :: node) r₁ _ (by omega) there (follows_rounds ready follows)).mono
        (fun a r₂ walk₂ operand => ⟨fun same => ?_, ?_⟩) fun _ => False.elim
      · have passed := (operator.2.trans operand.2).offset
        rw [same, List.cons_append, Text.byteLength] at passed
        omega
      · refine ⟨fun ops r₃ => (∀ v, Parser.combineLeft v ops = joinedValue v xs) ∧
          r₂.Passes (Round.writtenAll xs) r₃, ⟨xs, ready, by omega, operand.2.remaining_eq there,
          fun _ _ gives passes => ⟨gives, passes⟩⟩, fun ops r₃ behind => ?_⟩
        refine enough _ r₃ (fun v => ?_) ?_
        · rw [Parser.combineLeft, behind.1, operator.1, operand.1]
          rfl
        · exact (operator.2.trans operand.2).trans behind.2

/-! ## Numbers and brackets -/

theorem readsAt_number (n : Numeral) (blank : Blank) :
    ReadsAt 2 (.number n) (n.text ++ blank.text) := by
  intro depth node r rest _ ahead follows
  rw [List.append_assoc] at ahead
  apply Yields.of_onBoundary
  intro hr
  apply yields_choice
  exact yields_choiceFrom_cons (yields_numeral hr n blank ahead follows)

/-- What is read at the lowest level can be read in brackets at the highest. -/
theorem readsAt_brackets (h : ReadsAt 0 e s) (begins : Begins s) (opened closed : Blank) :
    ReadsAt 2 e ('(' :: (opened.text ++ s) ++ ')' :: closed.text) := by
  intro depth node r rest short ahead follows
  have opening : r.remaining = '(' :: (opened.text ++ (s ++ (')' :: (closed.text ++ rest)))) := by
    rw [ahead]
    simp
  obtain ⟨depth, rfl, inner⟩ : ∃ less, depth = less + 1 ∧ s.byteLength ≤ less := by
    simp only [List.cons_append, Text.byteLength, Text.byteLength_append] at short
    have := '('.utf8Size_pos
    exact ⟨depth - 1, by omega, by omega⟩
  apply Yields.of_onBoundary
  intro hr
  have noDigit : r.remaining.Stops Unicode.isAsciiDigit := by
    rw [opening]
    exact Text.stops_cons (by decide) fun _ => by decide
  apply yields_choice
  apply yields_choiceFrom_cons
  refine (yields_noNumeral hr noDigit).mono (fun _ _ _ => False.elim) fun _ _ => ?_
  apply yields_choiceFrom_cons
  apply yields_between
  refine (yields_this hr (by decide) opened opening (begins.stops _)).mono
    (fun _ r₁ walk₁ left => ?_) fun _ => False.elim
  have content := left.2.remaining_eq opening
  have closing : Follows 0 (')' :: (closed.text ++ rest)) :=
    fun c hc => .inl (Option.some.inj hc).symm
  have available : ∀ store, inExpr.stores store → ¬ store.isAvailable exprNode = true →
      Refuses (fun _ => False) r₁ := fun _ built gone => absurd built gone
  refine (yields_reference (h depth (0 :: exprNode) r₁ _ inner content closing) available).mono
    (fun v r₂ walk₂ middle => ?_) fun _ => False.elim
  have behind := middle.2.remaining_eq content
  refine (yields_this ((walk₁.trans walk₂).onBoundary hr) (by decide) closed behind
    follows.stops).mono (fun _ r₃ _ right => ⟨middle.1, ?_⟩) fun _ => False.elim
  have passes := (left.2.trans middle.2).trans right.2
  rwa [List.cons_append] at passes

/-! ## What is written is read -/

theorem readsAt_lower {level' : Nat} (le : level ≤ level') (top : level' ≤ 2)
    (h : ReadsAt level' e s) : ReadsAt level e s := by
  induction le with
  | refl => exact h
  | step le ih => exact ih (by omega) (readsAt_of_spine (by omega) (spine_of_readsAt h))

/-- By induction on how the expression is written. Of a chain it is told how it goes on from the
left; as a whole it is read then too. -/
theorem Writes.reads (h : Writes i e s) :
    i ≤ 2 ∧ ReadsAt i e s ∧ (i < 2 → Spine i e s) := by
  induction h with
  | number n blank => exact ⟨Nat.le_refl 2, readsAt_number n blank, fun h => absurd h (by decide)⟩
  | @binary i j left right s t op blank looser tighter hl hr ihl ihr =>
    have below : op.level < 2 := by cases op <;> decide
    have operand := readsAt_lower tighter ihr.1 ihr.2.1
    have chain : Spine op.level left s := by
      rcases Nat.lt_or_eq_of_le looser with loose | same
      · exact spine_of_readsAt (readsAt_lower loose ihl.1 ihl.2.1)
      · rw [same]
        exact ihl.2.2 (by omega)
    have spine := chain.append blank hr.begins operand
    exact ⟨Nat.le_of_lt below, readsAt_of_spine below spine, fun _ => spine⟩
  | brackets opened closed h ih =>
    have inner := readsAt_lower (Nat.zero_le _) ih.1 ih.2.1
    exact ⟨Nat.le_refl 2, readsAt_brackets inner h.begins opened closed,
      fun h => absurd h (by decide)⟩

/-- Around the rule: it has not been dropped. -/
def aroundExpr : Conditions where
  halts _ := False
  stores store := store.dropped.contains exprNode = false
  emit _ h := h

/-- Each bracket takes a byte of the text, so a depth of as many bytes is enough for the rules
entered. -/
theorem yields_expr {depth : Nat} {r : Reader} (h : Writes i e s) (short : s.byteLength ≤ depth)
    (ahead : r.remaining = s) :
    aroundExpr.Yields (parser (enter depth) [] exprNode (.recursive "expr" sum)).run r
      (fun v r' => v = e.value ∧ r.Passes s r') fun _ => False := by
  have content : r.remaining = s ++ [] := by rw [ahead, List.append_nil]
  obtain ⟨top, reads, -⟩ := h.reads
  have inside := readsAt_lower (Nat.zero_le i) top reads depth (0 :: exprNode) r [] short content
    nofun
  have halts : inExpr.halts = aroundExpr.halts := rfl
  refine yields_deferred halts (fun store kept built => ?_) (fun store kept => ?_)
    (fun store available => ?_) inside
  · exact Bool.and_eq_true_iff.mpr ⟨built, by rw [kept]; rfl⟩
  · refine Bool.and_eq_true_iff.mpr ⟨?_, (Bool.not_eq_true' _).mpr kept⟩
    exact List.contains_iff_mem.mpr List.mem_cons_self
  · exact (Bool.not_eq_true' _).mp (Bool.and_eq_true_iff.mp available).2

theorem yields_arithmetic {depth : Nat} (h : Writes i e s) (lead : Blank)
    (short : s.byteLength ≤ depth) :
    aroundExpr.Yields (arithmetic.parserWithin depth []).run (Reader.start (lead.text ++ s))
      (fun v r' => v = e.value ∧ (Reader.start (lead.text ++ s)).Passes (lead.text ++ s) r')
      fun _ => False := by
  have hr := Reader.onBoundary_start (lead.text ++ s)
  have ahead := Reader.remaining_start (lead.text ++ s)
  have stops : s.Stops Unicode.isWhiteSpace := by
    have := h.begins.stops []
    rwa [List.append_nil] at this
  apply yields_fst
  apply yields_recast
  apply yields_recast
  apply yields_andThen
  apply yields_snd
  apply yields_recast
  apply yields_recast
  apply yields_andThen
  apply yields_recast
  refine (yields_run hr ahead lead.white stops (stops.whole rfl _)).mono (fun _ r₁ _ white => ?_)
    fun _ => False.elim
  refine (yields_expr h short (white.2.remaining_eq ahead)).mono (fun v r₂ _ expression => ?_)
    fun _ => False.elim
  have passes := white.2.trans expression.2
  apply yields_recast
  refine yields_endOfInput (fun _ => ⟨expression.1, passes⟩) fun more => absurd ?_ more
  have offset := passes.offset
  have same : r₂.input = lead.text ++ s := congrArg Reader.input passes.stands
  rw [Reader.atEnd, same, offset, decide_eq_true_eq]
  exact Nat.le_of_eq (Nat.zero_add _).symm

theorem byteLength_le_depthFor (lead : Blank) (s : Text) :
    s.byteLength ≤ arithmetic.depthFor (Reader.start (lead.text ++ s)).bytesLeft := by
  have all : (Reader.start (lead.text ++ s)).bytesLeft = lead.text.byteLength + s.byteLength :=
    Text.byteLength_append lead.text s
  have one : arithmetic.recursiveRules = 1 := rfl
  rw [depthFor, all, one]
  omega

/-- What is written is read, to the end. -/
theorem parse_arithmetic (h : Writes i e s) (lead : Blank) :
    ∃ m t, (arithmetic.toParser []).parse (lead.text ++ s) = .ok m t ∧
      m.span = ⟨Position.start, t.reader.position⟩ ∧ m.value = e.value ∧
      (Reader.start (lead.text ++ s)).Passes (lead.text ++ s) t.reader := by
  have ends := yields_arithmetic h lead (byteLength_le_depthFor lead s)
    (Reader.onBoundary_start (lead.text ++ s)) Store.empty rfl
  obtain ⟨m, t, matched, -, found⟩ := ends.exists_ok (fun _ => id) fun _ _ failed => failed.2
  exact ⟨m, t, matched, found⟩

/-- A text writes no two expressions. -/
theorem Writes.unique {j : Nat} {e' : Expression} (h : Writes i e s) (h' : Writes j e' s) :
    e = e' := by
  obtain ⟨m, t, matched, -, value, -⟩ := parse_arithmetic h .none
  obtain ⟨m', t', matched', -, value', -⟩ := parse_arithmetic h' .none
  obtain ⟨rfl, -⟩ := Outcome.ok.inj (matched.symm.trans matched')
  exact Expression.value_injective (value.symm.trans value')

/-- What is written is read as it is, and to the end. -/
theorem written_read (h : Writes i e s) (lead : Blank) :
    ∃ m t, (arithmetic.toParser []).parse (lead.text ++ s) = .ok m t ∧ m.value = e.value ∧
      m.span = ⟨Position.start, t.reader.position⟩ ∧
      t.reader.offset = (lead.text ++ s).byteLength := by
  obtain ⟨m, t, matched, span, value, passes⟩ := parse_arithmetic h lead
  refine ⟨m, t, matched, value, span, ?_⟩
  rw [passes.offset]
  exact Nat.zero_add _

def Numeral.ofDigit (c : Char) (digit : Unicode.isAsciiDigit c = true) : Numeral :=
  ⟨[c], List.cons_ne_nil c [], by simpa using digit⟩

def bracketed : Expression :=
  .binary .minus
    (.binary .times (.number (.ofDigit '2' rfl))
      (.binary .plus (.number (.ofDigit '1' rfl)) (.number (.ofDigit '3' rfl))))
    (.number (.ofDigit '4' rfl))

theorem bracketed_written : Writes 0 bracketed "2*(1 +\r\n3)-4".toList := by
  have sum := Writes.binary .plus ⟨['\r', '\n'], List.all_eq_true.mp rfl⟩ (by decide) (by decide)
    (.number (.ofDigit '1' rfl) ⟨[' '], List.all_eq_true.mp rfl⟩)
    (.number (.ofDigit '3' rfl) .none)
  have product := Writes.binary .times .none (by decide) (by decide)
    (.number (.ofDigit '2' rfl) .none) (.brackets .none .none sum)
  exact .binary .minus .none (by decide) (by decide) product (.number (.ofDigit '4' rfl) .none)

theorem bracketed_read :
    Writes 0 bracketed "2*(1 +\r\n3)-4".toList ∧
      ∃ m t, (arithmetic.toParser []).parse " 2*(1 +\r\n3)-4".toList = .ok m t ∧
        m.value = bracketed.value ∧ m.span = ⟨Position.start, t.reader.position⟩ ∧
        t.reader.offset = 13 :=
  ⟨bracketed_written, written_read bracketed_written ⟨[' '], List.all_eq_true.mp rfl⟩⟩

end RecursiveDescent.Arithmetic
