import RecursiveDescent.Parser.InOrder
import RecursiveDescent.Proofs.OrderedChoice

/-!
# Parsers in sequence

A list of parsers is run in turn, and nothing is done around them. A sequence of them ends as that
does, and so does every way to join them two by two, and so do three of which one stands between
the others. They differ in what they tell of the values, and in the levels around the root of a
failure, which is that of the first parser to fail.
-/
namespace RecursiveDescent

variable {α β γ : Type} {S : Setting}

namespace Parser

/-- The parsers one after the other, with nothing around them. -/
def inTurn : List (Parser α) → Run (List α)
  | [] => return []
  | p :: ps => do
    let m ← p.run
    return m.value :: (← inTurn ps)

variable {ps qs : List (Parser α)} {s t : State} {as : List α} {f : Failure}

/-- Parsers one after the other may be taken in groups. -/
theorem inTurn_append (ps qs : List (Parser α)) :
    inTurn (ps ++ qs) = do let as ← inTurn ps; return as ++ (← inTurn qs) := by
  induction ps with
  | nil => simp only [inTurn, List.nil_append, pure_bind, bind_pure]
  | cons p ps ih =>
    simp only [inTurn, List.cons_append, ih, bind_assoc, pure_bind]

theorem inTurn_of_ok (abide : ∀ p ∈ ps, p.Abides S) (hs : S.Holds s)
    (ran : inTurn ps s = .ok as t) : S.Holds t ∧ t.reader.input = s.reader.input := by
  induction ps generalizing s as with
  | nil =>
    cases ran
    exact ⟨hs, rfl⟩
  | cons p ps ih =>
    rw [List.forall_mem_cons] at abide
    obtain ⟨m, u, first, ran⟩ := Run.bind_eq_ok_iff.mp ran
    obtain ⟨bs, v, later, ran⟩ := Run.bind_eq_ok_iff.mp ran
    cases ran
    obtain ⟨hu, input, -⟩ := abide.1.of_ok hs first
    obtain ⟨ht, input'⟩ := ih abide.2 hu later
    exact ⟨ht, input'.trans input⟩

/-- What fails is the first of the parsers to do so. -/
theorem exists_first_failed (failed : inTurn ps s = .failed f t) :
    ∃ before p after as u, ps = before ++ p :: after ∧ inTurn before s = .ok as u ∧
      p.run u = .failed f t := by
  induction ps generalizing s with
  | nil => cases failed
  | cons p ps ih =>
    rcases Run.bind_eq_failed_iff.mp failed with first | ⟨m, u, taken, failed⟩
    · exact ⟨[], p, ps, [], s, rfl, rfl, first⟩
    · rcases Run.bind_eq_failed_iff.mp failed with later | ⟨_, _, _, never⟩
      · obtain ⟨before, q, after, bs, v, rfl, before_taken, refused⟩ := ih later
        refine ⟨p :: before, q, after, m.value :: bs, v, rfl, ?_, refused⟩
        rw [inTurn, Run.bind_of_ok taken, Run.bind_of_ok before_taken]
        rfl
      · cases never

end Parser

/-- The second outcome is the first as one match: its value tells what was given, and its span is
all that was taken. A failure undoes all of it and has the same root. -/
inductive Outcome.InOneMatch (start : Reader) (told : List α → γ → Prop) :
    Outcome (List α) → Outcome (Match γ) → Prop
  | ok {as : List α} {c : γ} {t : State} : told as c →
    InOneMatch start told (.ok as t) (.ok ⟨c, ⟨start.position, t.reader.position⟩⟩ t)
  | failed {f g : Failure} {t : State} : g.root = f.root →
    InOneMatch start told (.failed f t) (.failed g ⟨start, t.store⟩)
  | halted {cause : Halt} {t : State} :
    InOneMatch start told (.halted cause t) (.halted cause t)

namespace Outcome.InOneMatch

variable {start : Reader} {told : List α → β → Prop} {plain : Outcome (List α)}
  {run : Run (Match β)} {s : State}

theorem imp {told' : List α → β → Prop} {o : Outcome (Match β)}
    (h : plain.InOneMatch start told o) (weaker : ∀ as b, told as b → told' as b) :
    plain.InOneMatch start told' o := by
  cases h with
  | ok tells => exact .ok (weaker _ _ tells)
  | failed root => exact .failed root
  | halted => exact .halted

theorem enclosing (h : plain.InOneMatch start told (run s))
    (inText : start.offset ≤ start.input.byteLength) (message : String) :
    plain.InOneMatch start told (run.enclosing start.position message s) := by
  generalize ran : run s = o at h
  cases h with
  | ok tells =>
    rw [Run.enclosing_of_ok ran]
    exact .ok tells
  | failed root =>
    rw [Run.enclosing_of_failed ran rfl inText]
    exact .failed ((Failure.root_enclose ..).trans root)
  | halted =>
    rw [Run.enclosing_of_halted ran]
    exact .halted

theorem map (h : plain.InOneMatch start told (run s)) {told' : List α → γ → Prop} (f : β → γ)
    (tells' : ∀ as b, told as b → told' as (f b)) :
    plain.InOneMatch start told' ((run >>= fun m => pure (m.map f)) s) := by
  generalize ran : run s = o at h
  cases h with
  | ok tells =>
    rw [Run.bind_of_ok ran]
    exact .ok (tells' _ _ tells)
  | failed root =>
    rw [Run.bind_of_failed ran]
    exact .failed root
  | halted =>
    rw [Run.bind_of_halted ran]
    exact .halted

/-- Of two matches with the same values each is the other but for levels. -/
theorem same {told' : List α → β → Prop} {o o' : Outcome (Match β)}
    (h : plain.InOneMatch start told o) (h' : plain.InOneMatch start told' o')
    (agree : ∀ as b c, told as b → told' as c → b = c) : o.SameButLevels True o' := by
  cases h with
  | ok tells =>
    cases h' with
    | ok tells' =>
      obtain rfl := agree _ _ _ tells tells'
      exact .ok
  | failed root =>
    cases h' with
    | failed root' => exact .failed fun _ => root.trans root'.symm
  | halted =>
    cases h' with
    | halted => exact .halted

end Outcome.InOneMatch

/-- From the states of the setting the parser does what the parsers do in turn. -/
def Parser.DoesInTurn (S : Setting) (ps : List (Parser α)) (told : List α → γ → Prop)
    (p : Parser γ) : Prop :=
  ∀ s, S.Holds s → (inTurn ps s).InOneMatch s.reader told (p.run s)

namespace Parser

variable {ps qs : List (Parser α)} {s : State}

/-! ## Two by two -/

theorem Abides.doesInTurn {p : Parser α} (h : p.Abides S) :
    p.DoesInTurn S [p] fun as a => as = [a] := by
  intro s hs
  rw [inTurn]
  cases ran : p.run s with
  | ok m t =>
    obtain ⟨a, span⟩ := m
    obtain ⟨-, -, rfl⟩ := h.of_ok hs ran
    rw [Run.bind_of_ok ran]
    exact .ok rfl
  | failed f t =>
    have stays : t = ⟨s.reader, t.store⟩ := by rw [← h.of_failed hs ran]
    rw [Run.bind_of_failed ran, stays]
    exact .failed rfl
  | halted cause t =>
    rw [Run.bind_of_halted ran]
    exact .halted

/-- Two parsers that do what lists of parsers do, do in sequence what both lists do. -/
theorem DoesInTurn.andThen {p : Parser β} {q : Parser γ} {told : List α → β → Prop}
    {told' : List α → γ → Prop} (hp : p.DoesInTurn S ps told) (hq : q.DoesInTurn S qs told')
    (abide : ∀ p ∈ ps, p.Abides S) :
    (andThen p q).DoesInTurn S (ps ++ qs) fun as v =>
      ∃ bs cs, as = bs ++ cs ∧ told bs v.1 ∧ told' cs v.2 := by
  intro s hs
  have inText := S.inText hs.reader
  have first := (hp s hs).enclosing inText "Left of Then failed"
  rw [inTurn_append]
  change Outcome.InOneMatch _ _ _ ((p.run.enclosing s.reader.position _ >>= _) s)
  generalize left : p.run.enclosing s.reader.position _ s = o at first
  generalize plain : inTurn ps s = o' at first
  cases first with
  | failed root =>
    rw [Run.bind_of_failed plain, Run.bind_of_failed left]
    exact .failed root
  | halted =>
    rw [Run.bind_of_halted plain, Run.bind_of_halted left]
    exact .halted
  | @ok bs b t tells =>
    obtain ⟨ht, input⟩ := inTurn_of_ok abide hs plain
    have second := hq t ht
    rw [Run.bind_of_ok plain, Run.bind_of_ok left]
    generalize right : q.run t = o at second
    generalize plain' : inTurn qs t = o' at second
    cases second with
    | failed root =>
      rw [Run.bind_of_failed plain',
        Run.bind_of_failed (Run.enclosing_of_failed right input inText _)]
      exact .failed ((Failure.root_enclose ..).trans root)
    | halted =>
      rw [Run.bind_of_halted plain', Run.bind_of_halted (Run.enclosing_of_halted right _ _)]
      exact .halted
    | @ok cs c u tells' =>
      rw [Run.bind_of_ok plain', Run.bind_of_ok (Run.enclosing_of_ok right _ _)]
      exact .ok ⟨bs, cs, rfl, tells, tells'⟩

/-- All three parts are run, and the middle one is told. -/
theorem doesInTurn_between {p q r : Parser α} (hp : p.Abides S) (hq : q.Abides S)
    (hr : r.Abides S) :
    (between p q r).DoesInTurn S [p, q, r] fun as b => ∃ a c, as = [a, b, c] := by
  have opened := hp.doesInTurn.andThen hq.doesInTurn (List.forall_mem_singleton.mpr hp)
  have content : (snd (Parser.andThen p q)).DoesInTurn S [p, q] fun as b => ∃ a, as = [a, b] := by
    intro s hs
    refine ((opened s hs).enclosing (S.inText hs.reader) _).map Prod.snd ?_
    rintro as ⟨a, b⟩ ⟨_, _, rfl, rfl, rfl⟩
    exact ⟨a, rfl⟩
  have closed := content.andThen hr.doesInTurn (by simp [hp, hq])
  intro s hs
  have inText := S.inText hs.reader
  refine Outcome.InOneMatch.enclosing ?_ inText _
  refine ((closed s hs).enclosing inText _).map Prod.fst ?_
  rintro as ⟨b, c⟩ ⟨_, _, rfl, ⟨a, rfl⟩, rfl⟩
  exact ⟨a, c, rfl⟩

/-! ## All at once -/

theorem inOrderFrom_cons (label : String) (start : Position) (last : Option α) (p : Parser α)
    (ps : List (Parser α)) :
    inOrderFrom label start last (p :: ps) = (do
      let m ← p.run.enclosing start inOrderFailed
      inOrderFrom label start (some m.value) ps) := by
  cases last <;> rfl

/-- The parsers left do what they do in turn, with the value of the last, or the one before it. -/
theorem inOrderFrom_inOneMatch {start : Reader} (abide : ∀ p ∈ ps, p.Abides S) (hs : S.Holds s)
    (inText : start.offset ≤ start.input.byteLength) (input : s.reader.input = start.input)
    (label : String) (last : Option α) (some_last : last = none → ps ≠ []) :
    (inTurn ps s).InOneMatch start (fun as a => as.getLast?.or last = some a)
      (inOrderFrom label start.position last ps s) := by
  induction ps generalizing s last with
  | nil =>
    cases last with
    | none => exact absurd rfl (some_last rfl)
    | some a => exact .ok rfl
  | cons p ps ih =>
    rw [List.forall_mem_cons] at abide
    rw [inTurn, inOrderFrom_cons]
    cases ran : p.run s with
    | failed f t =>
      have stays := abide.1.of_failed hs ran
      rw [Run.bind_of_failed ran,
        Run.bind_of_failed (Run.enclosing_of_failed ran (stays ▸ input) inText _)]
      exact .failed (Failure.root_enclose ..)
    | halted cause t =>
      rw [Run.bind_of_halted ran, Run.bind_of_halted (Run.enclosing_of_halted ran _ _)]
      exact .halted
    | ok m t =>
      obtain ⟨ht, input', -⟩ := abide.1.of_ok hs ran
      have later := ih abide.2 ht (input'.trans input) (some m.value) nofun
      rw [Run.bind_of_ok ran, Run.bind_of_ok (Run.enclosing_of_ok ran _ _)]
      generalize plain : inTurn ps t = o at later
      generalize inOrderFrom label start.position (some m.value) ps t = o' at later ⊢
      cases later with
      | ok tells =>
        rw [Run.bind_of_ok plain]
        refine .ok ?_
        rw [List.getLast?_cons, Option.some_or, ← tells]
        cases List.getLast? _ <;> rfl
      | failed root =>
        rw [Run.bind_of_failed plain]
        exact .failed root
      | halted =>
        rw [Run.bind_of_halted plain]
        exact .halted

/-- Of the parsers in order the last one is told. -/
theorem doesInTurn_inOrder (abide : ∀ p ∈ ps, p.Abides S) (ne : ps ≠ []) (label : String) :
    (inOrder label ps).DoesInTurn S ps fun as a => as.getLast? = some a := by
  intro s hs
  have all := inOrderFrom_inOneMatch abide hs (S.inText hs.reader) rfl label none fun _ => ne
  simp only [Option.or_none] at all
  exact all

end Parser

/-- A way to join parsers two by two, with the nested pair of their values. -/
inductive Bracketing (α : Type) : Type → Type 1
  | one (p : Parser α) : Bracketing α α
  | join {β γ : Type} (left : Bracketing α β) (right : Bracketing α γ) : Bracketing α (β × γ)

namespace Bracketing

def toParser {α : Type} : {β : Type} → Bracketing α β → Parser β
  | _, one p => p
  | _, join left right => .andThen left.toParser right.toParser

def parsers {α : Type} : {β : Type} → Bracketing α β → List (Parser α)
  | _, one p => [p]
  | _, join left right => left.parsers ++ right.parsers

def components {α : Type} : {β : Type} → Bracketing α β → β → List α
  | _, one _, a => [a]
  | _, join left right, (b, c) => left.components b ++ right.components c

def last {α : Type} : {β : Type} → Bracketing α β → β → α
  | _, one _, a => a
  | _, join _ right, (_, c) => right.last c

theorem getLast?_components (b : Bracketing α β) (v : β) :
    (b.components v).getLast? = some (b.last v) := by
  induction b with
  | one p => rfl
  | join left right _ ih =>
    obtain ⟨b, c⟩ := v
    rw [components, List.getLast?_append, ih, Option.some_or, last]

/-- However a sequence is put in brackets, it does what its parsers do one after the other. -/
theorem doesInTurn (b : Bracketing α β) (abide : ∀ p ∈ b.parsers, p.Abides S) :
    b.toParser.DoesInTurn S b.parsers fun as v => as = b.components v := by
  induction b with
  | one p => exact (abide p (List.mem_singleton_self p)).doesInTurn
  | join left right ihl ihr =>
    rw [parsers, List.forall_mem_append] at abide
    have joined := (ihl abide.1).andThen (ihr abide.2) abide.1
    refine fun s hs => (joined s hs).imp ?_
    rintro _ v ⟨_, _, rfl, rfl, rfl⟩
    rfl

end Bracketing

namespace Parser

/-- Where the first of the parsers to fail does so, all that was taken is undone. -/
theorem DoesInTurn.of_failed {p : Parser γ} {told : List α → γ → Prop}
    {ps : List (Parser α)} (h : p.DoesInTurn S ps told) {s t : State} (hs : S.Holds s)
    {g : Failure} (failed : p.run s = .failed g t) :
    t.reader = s.reader ∧ ∃ before q after as f u v, ps = before ++ q :: after ∧
      inTurn before s = .ok as u ∧ q.run u = .failed f v ∧ g.root = f.root := by
  have ends := h s hs
  rw [failed] at ends
  generalize plain : inTurn ps s = o at ends
  cases ends with
  | failed root =>
    obtain ⟨before, q, after, as, u, split, taken, refused⟩ := exists_first_failed plain
    exact ⟨rfl, before, q, after, as, _, u, _, split, taken, refused, root⟩

/-- A sequence of parsers ends as they do in turn, with the last value and the span of them all. So
does each way to join them two by two, whose nested pair ends with that value, and of three parsers
so does the second between the others, which gives the second value. Failures are all back at the
start, with the root of the first parser to fail. -/
theorem sequences_agree {ps : List (Parser α)} (ne : ps ≠ []) (abide : ∀ p ∈ ps, p.Abides S)
    {s : State} (hs : S.Holds s) (label : String) :
    let sequence := inOrder label ps
    (inTurn ps s).InOneMatch s.reader (fun as a => as.getLast? = some a) (sequence.run s) ∧
    (∀ {β : Type} (b : Bracketing α β), b.parsers = ps →
      ((b.toParser.recast b.last).run s).SameButLevels True (sequence.run s)) ∧
    (∀ p q r, ps = [p, q, r] →
      (inTurn ps s).InOneMatch s.reader (fun as b => as[1]? = some b) ((between p q r).run s) ∧
      (((between p q r).recast fun _ => ()).run s).SameButLevels True
        ((sequence.recast fun _ => ()).run s)) ∧
    ∀ g t, sequence.run s = .failed g t → t.reader = s.reader ∧
      ∃ before p after as f u v, ps = before ++ p :: after ∧ inTurn before s = .ok as u ∧
        p.run u = .failed f v ∧ g.root = f.root := by
  intro sequence
  have inSequence := doesInTurn_inOrder abide ne label
  refine ⟨inSequence s hs, ?_, ?_, fun g t failed => inSequence.of_failed hs failed⟩
  · rintro β b rfl
    have joined : (inTurn b.parsers s).InOneMatch s.reader (fun as a => as.getLast? = some a)
        ((b.toParser.recast b.last).run s) := by
      refine (b.doesInTurn abide s hs).map b.last ?_
      rintro _ v rfl
      exact b.getLast?_components v
    refine joined.same (inSequence s hs) fun as a a' ends ends' => ?_
    exact Option.some.inj (ends.symm.trans ends')
  · rintro p q r rfl
    rw [List.forall_mem_cons, List.forall_mem_cons, List.forall_mem_singleton] at abide
    have enclosed := doesInTurn_between abide.1 abide.2.1 abide.2.2 s hs
    refine ⟨enclosed.imp ?_, ?_⟩
    · rintro _ b ⟨a, c, rfl⟩
      rfl
    · have unit : (inTurn [p, q, r] s).InOneMatch s.reader (fun _ _ => True)
          ((sequence.recast fun _ => ()).run s) :=
        (inSequence s hs).map _ fun _ _ _ => trivial
      have unit' : (inTurn [p, q, r] s).InOneMatch s.reader (fun _ _ => True)
          (((between p q r).recast fun _ => ()).run s) :=
        enclosed.map _ fun _ _ _ => trivial
      exact unit'.same unit fun _ _ _ _ _ => rfl

/-- Two words and a comma between them, and what becomes of it where a digit is asked for. -/
theorem sequences_agree_words :
    let word := (Grammar.takeWhile "word" Char.isAlpha).toParser []
    let comma := (Grammar.codePoint "," ',').toParser []
    let digit := (Grammar.satisfy "digit" Unicode.isAsciiDigit).toParser []
    let s : State := ⟨Reader.startAt ['é', 'a', ',', 'b'] ⟨2, 1, 2⟩, .empty⟩
    let nested := fun p : Parser Value => Bracketing.join (.one word) (.join (.one comma) (.one p))
    Setting.undropped.Holds s ∧ (∀ p ∈ [word, comma, word], p.Abides .undropped) ∧
      (∀ p ∈ [word, comma, digit], p.Abides .undropped) ∧
      (∃ t, ((nested word).toParser.recast (nested word).last).run s =
          .ok ⟨.text ['b'], ⟨⟨2, 1, 2⟩, ⟨5, 1, 5⟩⟩⟩ t ∧
        ((between word comma word).recast fun _ => ()).run s =
          .ok ⟨(), ⟨⟨2, 1, 2⟩, ⟨5, 1, 5⟩⟩⟩ t) ∧
      ∃ g h t, (inOrder "list" [word, comma, digit]).run s = .failed g t ∧
        ((nested digit).toParser.recast (nested digit).last).run s = .failed h t ∧
        t.reader = s.reader ∧ h.root = g.root := by
  intro word comma digit s nested
  have boundary : s.reader.OnBoundary := by decide
  have hs : Setting.undropped.Holds s := ⟨boundary, rfl⟩
  have leaf : ∀ g : Grammar, g.Plain → (g.toParser []).Abides .undropped := fun g plain =>
    (plain.dependable []).abides
  have hword : word.Abides .undropped := leaf _ (.leaf nofun rfl)
  have hcomma : comma.Abides .undropped := leaf _ (.leaf nofun rfl)
  have hdigit : digit.Abides .undropped := leaf _ (.leaf nofun rfl)
  have words : ∀ p ∈ [word, comma, word], p.Abides .undropped := by simp [hword, hcomma]
  have digits : ∀ p ∈ [word, comma, digit], p.Abides .undropped := by
    simp [hword, hcomma, hdigit]
  refine ⟨hs, words, digits, ?_, ?_⟩
  · obtain ⟨-, joined, enclosed, -⟩ := sequences_agree (List.cons_ne_nil _ _) words hs "list"
    have last := joined (nested word) rfl
    have unit := (enclosed word comma word rfl).2
    obtain ⟨t, ran⟩ : ∃ t, (inOrder "list" [word, comma, word]).run s =
        .ok ⟨.text ['b'], ⟨⟨2, 1, 2⟩, ⟨5, 1, 5⟩⟩⟩ t := ⟨_, rfl⟩
    rw [Parser.run_recast (inOrder _ _), ran] at unit
    rw [ran] at last
    generalize ((nested word).toParser.recast (nested word).last).run s = o at last
    generalize ((between word comma word).recast fun _ => ()).run s = o' at unit
    cases last
    cases unit
    exact ⟨t, rfl, rfl⟩
  · obtain ⟨-, joined, -, undone⟩ := sequences_agree (List.cons_ne_nil _ _) digits hs "list"
    have last := joined (nested digit) rfl
    obtain ⟨g, t, failed⟩ : ∃ g t, (inOrder "list" [word, comma, digit]).run s = .failed g t :=
      ⟨_, _, rfl⟩
    have back := (undone g t failed).1
    rw [failed] at last
    generalize ((nested digit).toParser.recast (nested digit).last).run s = o at last
    cases last with
    | failed roots => exact ⟨g, _, t, failed, rfl, back, roots trivial⟩

end Parser

end RecursiveDescent
