import RecursiveDescent.Proofs.Governed
import RecursiveDescent.Proofs.LineTracking

/-!
# Safety

No run ends with a fault. Wherever its parsers leave the reader, and whatever they report of that,
it stays on a boundary of its text. What is cut out of the text on the way without a check, for the
line of a failure and for the text it found, fits into the text from wherever the reader stands.
-/
namespace RecursiveDescent

namespace Text

def CutsAt (t : Text) (a : Nat) : Prop :=
  ∃ s : Text, s <+: t ∧ s.byteLength = a

variable {s t u : Text} {a b : Nat}

theorem prefix_of_byteLength_le (hs : s <+: t) (hu : u <+: t)
    (shorter : s.byteLength ≤ u.byteLength) : s <+: u := by
  rcases List.prefix_or_prefix_of_prefix hs hu with within | ⟨rest, rfl⟩
  · exact within
  · cases rest with
    | nil => simp
    | cons c rest =>
      have := byteLength_pos (List.cons_ne_nil c rest)
      rw [byteLength_append] at shorter
      omega

/-- Between two boundaries in order there is a text. -/
theorem CutsAt.isSome_slice? (ha : t.CutsAt a) (hb : t.CutsAt b) (ordered : a ≤ b) :
    (t.slice? a b).isSome := by
  obtain ⟨s, hs, rfl⟩ := ha
  obtain ⟨u, hu, rfl⟩ := hb
  obtain ⟨inner, rfl⟩ := prefix_of_byteLength_le hs hu ordered
  obtain ⟨rest, rfl⟩ := hu
  rw [slice?_append, Option.isSome_some]

theorem cutsAt_zero (t : Text) : t.CutsAt 0 :=
  ⟨[], List.nil_prefix, rfl⟩

theorem cutsAt_byteLength (t : Text) : t.CutsAt t.byteLength :=
  ⟨t, List.prefix_rfl, rfl⟩

theorem exists_front_of_mem_lineEnds {start e : Nat} (h : e ∈ lineEnds start t) :
    ∃ s : Text, s <+: t ∧ start + s.byteLength = e := by
  fun_induction lineEnds start t with
  | case1 => cases h
  | case2 start rest ih =>
    rcases List.mem_cons.mp h with rfl | h
    · exact ⟨['\r', '\n'], List.prefix_append _ rest, rfl⟩
    · obtain ⟨s, hs, rfl⟩ := ih h
      refine ⟨'\r' :: '\n' :: s, (List.prefix_append_right_inj ['\r', '\n']).mpr hs, ?_⟩
      show start + (1 + (1 + _)) = _
      omega
  | case3 start c rest _ hc ih =>
    have hb : byteLength [c] = 1 := by
      rw [byteLength, utf8Size_of_isLineBreak hc]
      rfl
    rcases List.mem_cons.mp h with rfl | h
    · exact ⟨[c], List.prefix_append [c] rest, by rw [hb]⟩
    · obtain ⟨s, hs, rfl⟩ := ih h
      refine ⟨c :: s, (List.prefix_cons_inj c).mpr hs, ?_⟩
      rw [byteLength, utf8Size_of_isLineBreak hc, Nat.add_assoc]
  | case4 start c rest _ _ ih =>
    obtain ⟨s, hs, rfl⟩ := ih h
    exact ⟨c :: s, (List.prefix_cons_inj c).mpr hs, by rw [byteLength, Nat.add_assoc]⟩

/-- Every line start is a boundary of the text. -/
theorem cutsAt_of_mem_lineStarts (h : a ∈ t.lineStarts) : t.CutsAt a := by
  cases t with
  | nil => cases h
  | cons c t =>
    rcases List.mem_cons.mp h with rfl | h
    · exact cutsAt_zero _
    · obtain ⟨s, hs, rfl⟩ := exists_front_of_mem_lineEnds h
      exact ⟨s, hs, (Nat.zero_add _).symm⟩

theorem lineEnds_ascending (start : Nat) (t : Text) : (lineEnds start t).Pairwise (· < ·) := by
  fun_induction lineEnds start t with
  | case1 => exact .nil
  | case2 _ _ ih => exact .cons (fun _ he => (le_of_mem_lineEnds he).1) ih
  | case3 _ _ _ _ _ ih => exact .cons (fun _ he => (le_of_mem_lineEnds he).1) ih
  | case4 _ _ _ _ _ ih => exact ih

/-- Each line starts behind the one before. -/
theorem lineStarts_ascending (t : Text) : t.lineStarts.Pairwise (· < ·) := by
  cases t with
  | nil => exact .nil
  | cons c t => exact .cons (fun _ he => (le_of_mem_lineEnds he).1) (lineEnds_ascending 0 _)

end Text

namespace Reader

variable {r : Reader}

theorem lt_of_lineIndex? {i : Nat} (h : r.lineIndex? = some i) :
    i < r.input.lineStarts.length := by
  have fewer := (List.takeWhile_prefix (p := (· ≤ r.offset)) (l := r.input.lineStarts)).length_le
  rw [lineIndex?] at h
  split at h
  · cases h
  · cases h
    omega

/-- A line begins on a boundary, not behind where it ends, which is on a boundary too. -/
theorem isSome_slice?_lineBounds {i : Nat} (h : i < r.input.lineStarts.length) :
    (r.input.slice? (r.lineBounds i).1 (r.lineBounds i).2).isSome := by
  have first : (r.lineBounds i).1 = r.input.lineStarts[i] := by
    rw [lineBounds, List.getElem?_eq_getElem h, Option.getD_some]
  have begins := Text.cutsAt_of_mem_lineStarts (List.getElem_mem h)
  rw [first]
  by_cases next : i + 1 < r.input.lineStarts.length
  · have last : (r.lineBounds i).2 = r.input.lineStarts[i + 1] := by
      rw [lineBounds, List.getElem?_eq_getElem next, Option.getD_some]
    have ascending := r.input.lineStarts_ascending
    have ordered := List.pairwise_iff_getElem.mp ascending i (i + 1) h next (Nat.lt_succ_self i)
    rw [last]
    exact begins.isSome_slice? (Text.cutsAt_of_mem_lineStarts (List.getElem_mem next))
      (Nat.le_of_lt ordered)
  · have none : r.input.lineStarts[i + 1]? = none := List.getElem?_eq_none (by omega)
    have last : (r.lineBounds i).2 = r.input.byteLength := by
      rw [lineBounds, none, Option.getD_none]
    obtain ⟨s, ⟨rest, hrest⟩, hs⟩ := begins
    have inside : r.input.lineStarts[i] ≤ r.input.byteLength := by
      rw [← hs, ← hrest, Text.byteLength_append]
      omega
    rw [last]
    exact Text.CutsAt.isSome_slice? ⟨s, ⟨rest, hrest⟩, hs⟩ r.input.cutsAt_byteLength inside

/-- What is cut out of the text without a check: the line around the reader, what follows the rest
of the line, and the first characters ahead. -/
structure CutsFit (r : Reader) : Prop where
  line : ∀ i, r.lineIndex? = some i → i < r.input.lineStarts.length ∧
    (r.input.slice? (r.lineBounds i).1 (r.lineBounds i).2).isSome
  behindLine : r.remaining.slice? (Text.byteLength (r.remaining.takeWhile (!isLineBreak ·)))
    r.remaining.byteLength = some (r.remaining.dropWhile (!isLineBreak ·))
  leading : ∀ n, r.remaining.slice? 0 (Text.byteLength (r.remaining.take n)) =
    some (r.remaining.take n)

/-- What is cut around the reader lies on boundaries, wherever the reader stands. -/
theorem cutsFit (r : Reader) : r.CutsFit where
  line i h := ⟨lt_of_lineIndex? h, isSome_slice?_lineBounds (lt_of_lineIndex? h)⟩
  behindLine := by
    have sliced := Text.slice?_append (r.remaining.takeWhile (!isLineBreak ·))
      (r.remaining.dropWhile (!isLineBreak ·)) []
    rwa [List.append_nil, List.takeWhile_append_dropWhile] at sliced
  leading n := by
    have sliced := Text.slice?_append [] (r.remaining.take n) (r.remaining.drop n)
    rwa [List.nil_append, List.take_append_drop] at sliced

/-- On a boundary, or past the end and moved back to it. -/
theorem onBoundary_startAt {input : Text} {p : Position}
    (h : (input.dropBytes? p.offset).isSome ∨ input.byteLength ≤ p.offset) :
    (startAt input p).OnBoundary := by
  rcases h with cuts | past
  · have inside : p.offset ≤ input.byteLength := OnBoundary.offset_le (r := ⟨input, p⟩) cuts
    show (input.dropBytes? (min p.offset input.byteLength)).isSome
    rwa [Nat.min_eq_left inside]
  · refine onBoundary_of_before (List.append_nil input).symm ?_
    exact Nat.min_eq_right past

end Reader

/-- Begun on a boundary of the text, a run stays in its text and on boundaries, and has no fault. -/
def Parser.Safe {α : Type} (p : Parser α) : Prop :=
  ∀ s, s.reader.OnBoundary →
    match p.run s with
    | .ok _ t | .failed _ t => t.reader.input = s.reader.input ∧ t.reader.OnBoundary
    | .halted cause _ => cause = .exhausted

/-- Readers go from boundary to boundary, in whatever direction. -/
def Discipline.onBoundary : Discipline where
  start := Reader.OnBoundary
  path r r' := r'.input = r.input ∧ r'.OnBoundary
  lost r r' := r'.input = r.input ∧ r'.OnBoundary
  exactSpans := False
  raised _ _ := True
  halts cause := cause = .exhausted
  path_refl hr := ⟨rfl, hr⟩
  path_trans hp hp' := ⟨hp'.1.trans hp.1, hp'.2⟩
  start_of_path _ hp := hp.2
  lost_refl hr := ⟨rfl, hr⟩
  undo := by
    intro r r' r'' hr hp hl
    rw [hr.rewind (hl.1.trans hp.1)]
  take n hr := by
    have moved := Reader.moves_take hr n
    generalize Reader.take _ n = result at moved ⊢
    cases moved with
    | onward walk _ => exact ⟨walk.input, walk.onBoundary hr⟩
    | nowhere => trivial
  takeBytes n hr := by
    have moved := Reader.moves_takeBytes hr n
    generalize Reader.takeBytes _ n = result at moved ⊢
    cases moved with
    | onward walk _ => exact ⟨walk.input, walk.onBoundary hr⟩
    | nowhere => trivial
  raised_here _ _ _ _ := trivial
  raised_refused _ _ _ _ _ := trivial
  raised_enclose _ _ _ _ := trivial
  raised_restated _ _ _ _ _ _ := trivial
  halts_exhausted := rfl

instance (P : Grammar → Prop) : Discipline.onBoundary.AdmitsLiterals P :=
  ⟨fun _ _ _ => trivial, fun _ _ _ => trivial⟩

namespace Parser

open Discipline

variable {α : Type} {p : Parser α}

/-- A safe leaf keeps the discipline of boundaries, whether it goes back or not. -/
theorem Safe.governs (h : p.Safe) : onBoundary.Governs p.run := by
  intro s hs
  have safe := h s hs
  rw [Run.Ends]
  cases hrun : p.run s with
  | ok m t => rw [hrun] at safe; exact ⟨safe, False.elim⟩
  | failed f t => rw [hrun] at safe; exact ⟨safe, trivial⟩
  | halted cause t => rwa [hrun] at safe

theorem safe_of_governs (h : onBoundary.Governs p.run) : p.Safe := by
  intro s hs
  have ends := h s hs
  rw [Run.Ends] at ends
  cases hrun : p.run s with
  | ok m t => rw [hrun] at ends; exact ends.1
  | failed f t => rw [hrun] at ends; exact ends.1
  | halted cause t => rwa [hrun] at ends

theorem safe_leaky (label : String) (count : Nat) : (leaky label count : Parser α).Safe := by
  apply safe_of_governs
  intro s hs
  simp only [leaky, Run.ends_bind]
  apply ends_take hs
  · exact fun text span t taken => ⟨taken.1, trivial⟩
  · exact fun _ => ⟨onBoundary.lost_refl hs, trivial⟩

/-- What a parser reports as its span has no part in where the reader goes. -/
theorem safe_handmade (label : String) (count : Nat) (reported : ReportedSpan) :
    (handmade label count reported).Safe := by
  apply safe_of_governs
  intro s hs
  simp only [handmade, Run.ends_bind]
  apply ends_take hs
  · exact fun text span t taken => ⟨taken.1, False.elim⟩
  · exact fun _ => ⟨onBoundary.lost_refl hs, trivial⟩

end Parser

namespace Grammar

/-- Leaves that are parsers of one's own are safe; nothing else is asked of them. -/
def Safe : Grammar → Prop :=
  Everywhere fun g => ∀ p, g = .custom p → p.Safe

/-- Safe leaves make safe grammars, in whichever way they are run. -/
theorem Safe.parsers {g : Grammar} (hg : g.Safe) (node : NodeId) :
    (∀ depth, (g.parserWithin depth node).Safe) ∧ (g.toParser node).Safe ∧
      ∀ kind label probe, (Deferred.mk kind label g probe).handle.Safe := by
  have leaves : ∀ p, (∀ q, Grammar.custom p = .custom q → q.Safe) →
      Discipline.onBoundary.Governs p.run := fun p h => (h p rfl).governs
  obtain ⟨within, whole, byHandle⟩ := Discipline.governs_parsers leaves hg node
  exact ⟨fun depth => Parser.safe_of_governs (within depth), Parser.safe_of_governs whole,
    fun kind label probe => Parser.safe_of_governs (byHandle kind label probe)⟩

theorem leaky_safe (label : String) (count : Nat) : (leaky label count).Safe :=
  .leaf (by rintro p ⟨⟩; exact Parser.safe_leaky label count) rfl

theorem handmade_safe (label : String) (count : Nat) (reported : ReportedSpan) :
    (handmade label count reported).Safe := by
  refine .leaf ?_ rfl
  rintro p ⟨⟩
  exact Parser.safe_of_governs
    (Discipline.governs_recast _ (Parser.safe_handmade label count reported).governs)

/-- From every position that a reader can be started at, no run over a safe grammar has a fault, and
each ends on a boundary of the text if it ends. Parsers that leak, and those that report an empty or
a reversed span, are safe leaves. From a boundary every movement, each of those that a longer one is
made of too, passes a text that is ahead. The other cuts made without a check fit anywhere. -/
theorem safe_everywhere :
    (∀ label count, (leaky label count).Safe) ∧
    (∀ label count reported, (handmade label count reported).Safe) ∧
    (∀ g : Grammar, g.Safe → ∀ node,
      (∀ depth, (g.parserWithin depth node).Safe) ∧ (g.toParser node).Safe ∧
        ∀ kind label probe, (Deferred.mk kind label g probe).handle.Safe) ∧
    (∀ (input : Text) (p : Position),
      (input.dropBytes? p.offset).isSome ∨ input.byteLength ≤ p.offset →
        (Reader.startAt input p).OnBoundary) ∧
    (∀ r : Reader, r.OnBoundary → ∀ n, r.Moves (r.take n) ∧ r.Moves (r.takeBytes n)) ∧
    ∀ r : Reader, r.CutsFit :=
  ⟨leaky_safe, handmade_safe, fun _ hg node => hg.parsers node,
    fun _ _ start => Reader.onBoundary_startAt start,
    fun _ hr n => ⟨Reader.moves_take hr n, Reader.moves_takeBytes hr n⟩, Reader.cutsFit⟩

def careless : Grammar :=
  .many1 (.either
    (.inOrder "reversed" [.handmade "reversed" 1 .reversed, .leaky "leak" 1])
    (.filter "not empty" Value.isNonempty (.handmade "empty" 1 .empty)))

theorem careless_safe : careless.Safe := by
  have reversed := handmade_safe "reversed" 1 .reversed
  have leak := leaky_safe "leak" 1
  refine .unary nofun rfl (.binary nofun rfl (.node nofun ?_) (.unary nofun rfl ?_))
  · simp only [parts, List.forall_mem_cons]
    exact ⟨reversed, leak, List.forall_mem_nil _⟩
  · exact handmade_safe "empty" 1 .empty

theorem careless_safe_everywhere :
    careless.Safe ∧ (Text.dropBytes? 2 ['é', '\r', '\n']).isSome ∧
      Text.byteLength ['é', '\r', '\n'] ≤ 9 ∧
      (∃ m t, (careless.toParser []).run ⟨Reader.startAt ['é', '\r', '\n'] ⟨2, 1, 2⟩, .empty⟩ =
        .ok m t ∧ t.reader.OnBoundary) ∧
      ∃ f t, (careless.toParser []).run ⟨Reader.startAt ['é', '\r', '\n'] ⟨9, 1, 2⟩, .empty⟩ =
        .failed f t ∧ t.reader.OnBoundary := by
  have inside : (Text.dropBytes? 2 ['é', '\r', '\n']).isSome := by decide
  have past : Text.byteLength ['é', '\r', '\n'] ≤ 9 := by decide
  have safe := (safe_everywhere.2.2.1 careless careless_safe []).2.1
  have start := safe_everywhere.2.2.2.1 ['é', '\r', '\n']
  obtain ⟨m, t, matched⟩ : ∃ m t, (careless.toParser []).run
      ⟨Reader.startAt ['é', '\r', '\n'] ⟨2, 1, 2⟩, .empty⟩ = .ok m t := ⟨_, _, rfl⟩
  obtain ⟨f, u, failed⟩ : ∃ f u, (careless.toParser []).run
      ⟨Reader.startAt ['é', '\r', '\n'] ⟨9, 1, 2⟩, .empty⟩ = .failed f u := ⟨_, _, rfl⟩
  have ends := safe ⟨Reader.startAt ['é', '\r', '\n'] ⟨2, 1, 2⟩, .empty⟩
    (start ⟨2, 1, 2⟩ (.inl inside))
  have endsPast := safe ⟨Reader.startAt ['é', '\r', '\n'] ⟨9, 1, 2⟩, .empty⟩
    (start ⟨9, 1, 2⟩ (.inr past))
  rw [matched] at ends
  rw [failed] at endsPast
  exact ⟨careless_safe, inside, past, ⟨m, t, matched, ends.2⟩, ⟨f, u, failed, endsPast.2⟩⟩

end Grammar

end RecursiveDescent
