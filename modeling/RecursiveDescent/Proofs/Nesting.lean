import RecursiveDescent.Proofs.RulesBuilt
import RecursiveDescent.Proofs.Tokens

/-!
# A letter in brackets

The rule of this module is the letter `x`, or itself between round brackets. It accepts a text that
begins with a letter in as many closing as opening brackets and refuses every other: a run of it
ends for all texts, however deep it gets, and what fails inside undoes all that is around.
-/
namespace RecursiveDescent.Nesting

open Grammar Conditions

/-- The labels are those of the rule and of its characters. -/
structure Labels where
  rule : String
  letter : String
  opening : String
  closing : String

def body (l : Labels) : Grammar :=
  .either (.codePoint l.letter 'x')
    (.between (.codePoint l.opening '(') (.reference l.rule) (.codePoint l.closing ')'))

def nested (l : Labels) : Grammar :=
  .recursive l.rule (body l)

def written (n : Nat) : Text :=
  List.replicate n '(' ++ 'x' :: List.replicate n ')'

theorem written_succ (n : Nat) : written (n + 1) = '(' :: (written n ++ [')']) := by
  rw [written, written, List.replicate_succ, List.replicate_succ', List.cons_append,
    List.append_assoc, List.cons_append]

/-- Each pair of brackets is two bytes around one letter. -/
theorem byteLength_written (n : Nat) : (written n).byteLength = 2 * n + 1 := by
  induction n with
  | zero => rfl
  | succ n ih =>
    rw [written_succ, Text.byteLength, Text.byteLength_append, ih]
    show 1 + (2 * n + 1 + 1) = _
    omega

variable {rest : Text} {c : Char}

theorem written_prefix_letter {n : Nat} (h : written n <+: 'x' :: rest) : n = 0 := by
  cases n with
  | zero => rfl
  | succ n =>
    rw [written_succ, List.cons_prefix_cons] at h
    exact absurd h.1 (by decide)

/-- What begins with a bracket has the letter behind it, and the other bracket behind that. -/
theorem written_prefix_bracket {n : Nat} (h : written n <+: '(' :: rest) :
    ∃ k, n = k + 1 ∧ written k ++ [')'] <+: rest := by
  cases n with
  | zero => exact absurd (List.cons_prefix_cons.mp h).1 (by decide)
  | succ k =>
    rw [written_succ, List.cons_prefix_cons] at h
    exact ⟨k, rfl, h.2⟩

/-- What begins with neither has none of these texts in front. -/
theorem not_written_ahead {t : Text} (noLetter : ∀ rest, t ≠ 'x' :: rest)
    (noBracket : ∀ rest, t ≠ '(' :: rest) (n : Nat) : ¬ written n <+: t := by
  rintro ⟨rest, rfl⟩
  cases n with
  | zero => exact noLetter _ rfl
  | succ n =>
    rw [written_succ] at noBracket
    exact noBracket _ rfl

/-- A text begins with the letter in one number of brackets only. -/
theorem written_unique {n k : Nat} {t : Text} (hn : written n <+: t) (hk : written k <+: t) :
    k = n := by
  induction n generalizing k t with
  | zero =>
    obtain ⟨rest, rfl⟩ := hn
    exact written_prefix_letter hk
  | succ n ih =>
    obtain ⟨rest, rfl⟩ := hn
    rw [written_succ, List.cons_append] at hk
    obtain ⟨k, rfl, inner⟩ := written_prefix_bracket hk
    rw [List.append_assoc] at inner
    rw [ih (List.prefix_append _ _) ((List.prefix_append _ _).trans inner)]

/-! ## The parser of the rule -/

def rule (l : Labels) (node : NodeId) : Rule :=
  ⟨l.rule, node, body l⟩

/-- Within the rule: it is built, once, and no run is cut short. -/
def inside (node : NodeId) : Conditions where
  halts _ := False
  stores store := store.built = [node] ∧ store.dropped = []
  emit _ h := h

/-- The run takes the letter in its brackets, or fails where there is no such thing. -/
def Accepts (node : NodeId) (run : Run (Match Value)) (r : Reader) : Prop :=
  (inside node).Yields run r (fun v r' => v = .char 'x' ∧ ∃ n, r.Passes (written n) r')
    fun _ => ∀ n, ¬ written n <+: r.remaining

variable {l : Labels} {node : NodeId} {r : Reader}

theorem isAvailable_of_inside {store : Store} (h : (inside node).stores store) :
    store.isAvailable node = true := by
  rw [Store.isAvailable, Store.isBuilt, h.1, h.2]
  simp

/-- A character is ahead, and is taken, or another thing is. -/
theorem yields_char {C : Conditions} (hr : r.OnBoundary) (label : String) (noBreak : c ≠ '\r')
    (noNewline : c ≠ '\n') {good : Char → Reader → Prop} {bad : Failure → Prop}
    (taken : ∀ r', r.remaining = c :: r'.remaining → r.Passes [c] r' → good c r')
    (refused : (∀ rest, r.remaining ≠ c :: rest) → ∀ f, bad f) :
    C.Yields (Parser.codePoint label c).run r good bad := by
  by_cases ahead : ∃ rest, r.remaining = c :: rest
  · obtain ⟨rest, ahead⟩ := ahead
    refine (yields_known hr ahead noBreak).mono ?_ fun _ => id
    rintro _ r' _ ⟨rfl, passes⟩
    exact taken r' passes.ahead passes
  · have other : ∀ rest, r.remaining ≠ c :: rest := fun rest same => ahead ⟨rest, same⟩
    refine (yields_unknown fun peek => ?_).mono (fun _ _ _ => False.elim)
      fun f _ => refused other f
    rcases Reader.prefix_of_peek? peek with ⟨rest, same⟩ | ⟨same, -⟩
    · exact other rest same.symm
    · exact noNewline same

/-- Within the rule a reference runs its body again. -/
theorem parser_reference (run : Rule → Scope → Run (Match Value)) (below : NodeId) :
    parser run [rule l node] below (.reference l.rule) =
      Parser.reference node l.rule (run (rule l node) []) := by
  have found : ([rule l node].dropWhile fun other => other.label != l.rule) = [rule l node] := by
    simp [rule]
  rw [parser, found]
  rfl

/-- The body accepts what it should if the rule does behind an opening bracket. -/
theorem accepts_body {run : Rule → Scope → Run (Match Value)} (inner : ∀ r₁ : Reader,
    r.remaining = '(' :: r₁.remaining → Accepts node (run (rule l node) []) r₁) :
    Accepts node (parser run [rule l node] (0 :: node) (body l)).run r := by
  apply Yields.of_onBoundary
  intro hr
  apply yields_choice
  apply yields_choiceFrom_cons
  apply yields_recast
  refine yields_char hr l.letter (by decide) (by decide)
    (fun r' _ passes => ⟨rfl, 0, passes⟩) fun noLetter _ => ?_
  apply yields_choiceFrom_cons
  apply yields_between
  apply yields_recast
  refine yields_char hr l.opening (by decide) (by decide) (fun r₁ opened passes => ?_)
    fun noBracket _ => ?_
  · rw [parser_reference]
    refine (yields_reference (inner r₁ opened)
      fun _ built gone => absurd (isAvailable_of_inside built) gone).mono ?_ ?_
    · rintro v r₂ - ⟨value, n, middle⟩
      apply yields_recast
      apply Yields.of_onBoundary
      intro hr₂
      refine yields_char hr₂ l.closing (by decide) (by decide) (fun r₃ _ behind => ?_)
        fun unclosed _ => yields_choiceFrom_nil fun k begins => ?_
      · refine ⟨value, n + 1, ?_⟩
        rw [written_succ]
        exact (passes.trans middle).trans behind
      · -- Only the number of brackets that were read inside could be closed.
        rw [opened] at begins
        obtain ⟨k, rfl, within⟩ := written_prefix_bracket begins
        rw [middle.ahead] at within
        have leads := (List.prefix_append _ _).trans within
        obtain rfl := written_unique (List.prefix_append _ _) leads
        obtain ⟨rest, closed⟩ := (List.prefix_append_right_inj _).mp within
        exact unclosed rest closed.symm
    · intro f none
      refine yields_choiceFrom_nil fun n begins => ?_
      rw [opened] at begins
      obtain ⟨k, rfl, within⟩ := written_prefix_bracket begins
      exact none k ((List.prefix_append _ _).trans within)
  · exact yields_choiceFrom_nil (not_written_ahead noLetter noBracket)

/-- Each bracket that is opened takes a byte, so a depth above the bytes ahead is enough. -/
theorem accepts_enter (l : Labels) (node : NodeId) (depth : Nat) (r : Reader)
    (enough : r.remaining.byteLength < depth) : Accepts node (enter depth (rule l node) []) r := by
  induction depth generalizing r with
  | zero => exact absurd enough (Nat.not_lt_zero _)
  | succ depth ih =>
    refine accepts_body fun r₁ opened => ih r₁ ?_
    rw [opened, Text.byteLength] at enough
    have one : '('.utf8Size = 1 := rfl
    omega

/-! ## Whole runs -/

/-- The store when the rule, and nothing else, was built, and the log says so once. -/
def BuiltOnce (node : NodeId) (store : Store) : Prop :=
  store.built = [node] ∧ store.announced = [node]

theorem nested_storeBlind (l : Labels) : (nested l).StoreBlind := by
  have leaf : ∀ label c, (Grammar.codePoint label c).StoreBlind := fun _ _ => .leaf nofun rfl
  have inner : (Grammar.reference l.rule).StoreBlind := .leaf nofun rfl
  refine .unary nofun rfl (.binary nofun rfl (leaf _ _) (.node nofun ?_))
  simp only [parts, List.forall_mem_cons]
  exact ⟨leaf _ _, inner, leaf _ _, List.forall_mem_nil _⟩

/-- A run enters the body with the rule built, and deep enough. -/
theorem parse_eq (l : Labels) (node : NodeId) (input : Text) :
    ((nested l).toParser node).parse input =
      (parser (enter (input.byteLength + 2)) [rule l node] (0 :: node) (body l)).run
        ⟨Reader.start input, Store.empty.afterBuild .recursive node l.rule⟩ := by
  have depth : (nested l).depthFor (Reader.start input).bytesLeft = input.byteLength + 2 := by
    have all : (Reader.start input).bytesLeft = input.byteLength := rfl
    have one : (nested l).recursiveRules = 1 := rfl
    rw [depthFor, all, one, Nat.one_mul]
  show ((nested l).parserWithin ((nested l).depthFor (Reader.start input).bytesLeft) node).run
    ⟨Reader.start input, .empty⟩ = _
  rw [depth]
  exact Parser.deferred_run .recursive node l.rule _ _

/-- What is built is announced. -/
theorem builtOnce_of_built (l : Labels) (node : NodeId) (input : Text)
    (h : (((nested l).toParser node).parse input).state.store.built = [node]) :
    BuiltOnce node (((nested l).toParser node).parse input).state.store := by
  obtain ⟨-, new, builds, -⟩ :=
    (nested_storeBlind l).grows_toParser node ⟨Reader.start input, .empty⟩
  have built : (((nested l).toParser node).parse input).state.store.built = new ++ [] :=
    builds.built
  have announced := builds.announced
  rw [h, List.append_nil] at built
  rw [← built] at announced
  exact ⟨h, announced⟩

/-- The run takes the letter in `n` pairs of brackets, and these are all that it could take. -/
structure Takes (input : Text) (n : Nat) (m : Match Value) (t : State) : Prop where
  begins : written n <+: input
  only : ∀ k, written k <+: input → k = n
  value : m.value = .char 'x'
  span : m.span = ⟨Position.start, t.reader.position⟩
  bytes : m.span.byteLength = 2 * n + 1

/-- A parse takes the nested brackets that lead the input, or fails where there are none. -/
theorem parse_nested (l : Labels) (node : NodeId) (input : Text) :
    (∃ m t n, ((nested l).toParser node).parse input = .ok m t ∧ Takes input n m t ∧
      BuiltOnce node t.store) ∨
    (∀ n, ¬ written n <+: input) ∧ ∃ f t, ((nested l).toParser node).parse input = .failed f t ∧
      t.reader = Reader.start input ∧ BuiltOnce node t.store := by
  have ahead := Reader.remaining_start input
  have accepts : Accepts node (parser (enter (input.byteLength + 2)) [rule l node] (0 :: node)
      (body l)).run (Reader.start input) := by
    refine accepts_body fun r₁ opened => accepts_enter l node _ r₁ ?_
    rw [← ahead, opened, Text.byteLength]
    omega
  have ends := accepts (Reader.onBoundary_start input)
    (Store.empty.afterBuild .recursive node l.rule) ⟨rfl, rfl⟩
  have once := builtOnce_of_built l node input
  rw [parse_eq] at once ⊢
  rw [Run.Ends] at ends
  generalize (parser (enter (input.byteLength + 2)) [rule l node] (0 :: node) (body l)).run
    ⟨Reader.start input, Store.empty.afterBuild .recursive node l.rule⟩ = o at ends once ⊢
  cases o with
  | ok m t =>
    obtain ⟨⟨-, built, -⟩, span, value, n, passes⟩ := ends
    have begins : written n <+: input := by
      rw [← ahead, passes.ahead]
      exact List.prefix_append _ _
    have bytes : m.span.byteLength = 2 * n + 1 := by
      have offset := passes.offset
      rw [byteLength_written] at offset
      rw [span, Span.byteLength]
      show t.reader.offset - 0 = _
      rw [offset]
      show 0 + (2 * n + 1) - 0 = _
      omega
    have only : ∀ k, written k <+: input → k = n := fun k => written_unique begins
    exact .inl ⟨m, t, n, rfl, ⟨begins, only, value, span, bytes⟩, once built⟩
  | failed f t =>
    obtain ⟨⟨reader, built, -⟩, none⟩ := ends
    rw [ahead] at none
    exact .inr ⟨none, f, t, rfl, reader, once built⟩
  | halted cause t => exact ends.elim

/-- The rule accepts just the texts that begin with the letter in as many closing as opening
brackets, and takes these. It refuses all others where it began. Either way it is built once. -/
theorem nested_accepts (l : Labels) (node : NodeId) (input : Text) :
    ((∃ m t, ((nested l).toParser node).parse input = .ok m t) ↔ ∃ n, written n <+: input) ∧
    (∀ m t, ((nested l).toParser node).parse input = .ok m t →
      ∃ n, Takes input n m t ∧ BuiltOnce node t.store) ∧
    ((∀ n, ¬ written n <+: input) → ∃ f t, ((nested l).toParser node).parse input = .failed f t ∧
      t.reader = Reader.start input ∧ BuiltOnce node t.store) := by
  rcases parse_nested l node input with ⟨m, t, n, matched, takes, once⟩ | ⟨none, f, t, failed, back⟩
  · refine ⟨⟨fun _ => ⟨n, takes.begins⟩, fun _ => ⟨m, t, matched⟩⟩, ?_, fun none => ?_⟩
    · intro m' t' matched'
      obtain ⟨rfl, rfl⟩ := Outcome.ok.inj (matched.symm.trans matched')
      exact ⟨n, takes, once⟩
    · exact absurd takes.begins (none n)
  · refine ⟨⟨?_, fun ⟨n, begins⟩ => absurd begins (none n)⟩, ?_, fun _ => ⟨f, t, failed, back⟩⟩
    · rintro ⟨m, t', matched⟩
      cases failed.symm.trans matched
    · intro m t' matched
      cases failed.symm.trans matched

/-- Two pairs of brackets with something behind, and two of which one is not closed. -/
theorem nested_accepts_two_pairs :
    (∃ m t, ((nested ⟨"parens", "x", "(", ")"⟩).toParser []).parse
        ['(', '(', 'x', ')', ')', ')', '!'] = .ok m t ∧
      m.value = .char 'x' ∧ m.span.byteLength = 5 ∧ BuiltOnce [] t.store) ∧
    ∃ f t, ((nested ⟨"parens", "x", "(", ")"⟩).toParser []).parse ['(', '(', 'x', ')'] =
        .failed f t ∧
      t.reader = Reader.start ['(', '(', 'x', ')'] ∧ BuiltOnce [] t.store := by
  constructor
  · obtain ⟨accepted, taken, -⟩ := nested_accepts ⟨"parens", "x", "(", ")"⟩ []
      ['(', '(', 'x', ')', ')', ')', '!']
    obtain ⟨m, t, matched⟩ := accepted.mpr ⟨2, by decide⟩
    obtain ⟨n, takes, once⟩ := taken m t matched
    have two : 2 = n := takes.only 2 (by decide)
    refine ⟨m, t, matched, takes.value, ?_, once⟩
    rw [takes.bytes, ← two]
  · have none : ∀ n, ¬ written n <+: ['(', '(', 'x', ')'] := by
      intro n begins
      have short := begins.length_le
      simp only [written, List.length_append, List.length_replicate, List.length_cons,
        List.length_nil] at short
      obtain rfl | rfl : n = 0 ∨ n = 1 := by omega
      · exact absurd begins (by decide)
      · exact absurd begins (by decide)
    exact (nested_accepts ⟨"parens", "x", "(", ")"⟩ [] ['(', '(', 'x', ')']).2.2 none

end RecursiveDescent.Nesting
