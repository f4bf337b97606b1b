import RecursiveDescent.Proofs.Lines
import RecursiveDescent.Proofs.Safety

/-!
# The lines of a text

`InLines` says how a text falls into lines without mention of offsets: each line but the last is
ended by one line break. The line starts are where these lines begin, so that to cut the text there
gives back each line with its break, and a reader finds the line it is in, wherever it stands in it.
-/
namespace RecursiveDescent

/-- A line and the break that ends it, which is empty for the last line of a text. -/
structure EndedLine where
  line : Text
  lineBreak : Text
deriving DecidableEq

def EndedLine.whole (l : EndedLine) : Text :=
  l.line ++ l.lineBreak

namespace Text

/-- One line break, in front of `rest`, which does not continue it. -/
inductive BreaksLine : Text → Text → Prop
  | pair {rest : Text} : BreaksLine ['\r', '\n'] rest
  | newline {rest : Text} : BreaksLine ['\n'] rest
  | carriageReturn {rest : Text} : rest.head? ≠ some '\n' → BreaksLine ['\r'] rest

inductive InLines : Text → List EndedLine → Prop
  | last {line : Text} : line.Unbroken → InLines line [⟨line, []⟩]
  | more {line lineBreak rest : Text} {lines : List EndedLine} : line.Unbroken →
    BreaksLine lineBreak rest → InLines rest lines →
    InLines (line ++ (lineBreak ++ rest)) (⟨line, lineBreak⟩ :: lines)

def beginnings (start : Nat) : List EndedLine → List Nat
  | [] => []
  | l :: lines => start :: beginnings (start + l.whole.byteLength) lines

/-- What stands in the text between each of the offsets and the next one, or the end. -/
def cutAt (t : Text) : List Nat → List (Option Text)
  | [] => []
  | [a] => [t.slice? a t.byteLength]
  | a :: b :: offsets => t.slice? a b :: cutAt t (b :: offsets)

/-- The last of the offsets that is not behind `o` has the index `i`. -/
def LastUpTo (offsets : List Nat) (o i : Nat) : Prop :=
  (∃ a, offsets[i]? = some a ∧ a ≤ o) ∧ ∀ j b, i < j → offsets[j]? = some b → o < b

variable {t rest lineBreak : Text} {lines : List EndedLine}

/-! ## Lines and their breaks -/

theorem BreaksLine.isLineBreak (h : BreaksLine lineBreak rest) :
    ∀ c ∈ lineBreak, isLineBreak c = true := by
  cases h <;> simp [RecursiveDescent.isLineBreak]

theorem BreaksLine.length_lt (h : BreaksLine lineBreak rest) :
    rest.length < (lineBreak ++ rest).length := by
  cases h <;> simp only [List.length_append, List.length_cons, List.length_nil] <;> omega

theorem BreaksLine.lineEnds (h : BreaksLine lineBreak rest) (start : Nat) :
    lineEnds start (lineBreak ++ rest) =
      (start + lineBreak.byteLength) :: lineEnds (start + lineBreak.byteLength) rest := by
  cases h with
  | pair => rfl
  | newline =>
    have whole : ¬ SplitsBreak ['\n'] rest := by simp [SplitsBreak]
    exact lineEnds_cons whole start
  | carriageReturn goesOn =>
    have whole : ¬ SplitsBreak ['\r'] rest := fun split => goesOn split.2
    exact lineEnds_cons whole start

theorem exists_breaksLine {c : Char} (hc : RecursiveDescent.isLineBreak c = true) (rest : Text) :
    ∃ lineBreak behind : Text, c :: rest = lineBreak ++ behind ∧ BreaksLine lineBreak behind := by
  rcases (by simpa [RecursiveDescent.isLineBreak] using hc : c = '\r' ∨ c = '\n') with rfl | rfl
  · by_cases paired : rest.head? = some '\n'
    · obtain ⟨behind, rfl⟩ := List.head?_eq_some_iff.mp paired
      exact ⟨['\r', '\n'], behind, rfl, .pair⟩
    · exact ⟨['\r'], rest, rfl, .carriageReturn paired⟩
  · exact ⟨['\n'], rest, rfl, .newline⟩

/-- Every text is made of lines, each but the last with one line break behind it. -/
theorem exists_inLines (t : Text) : ∃ lines, t.InLines lines := by
  obtain ⟨line, after, rfl, unbroken, first⟩ := exists_firstLine t
  cases after with
  | nil => exact ⟨_, by simpa using InLines.last unbroken⟩
  | cons c rest =>
    obtain ⟨lineBreak, behind, heq, breaks⟩ := exists_breaksLine (first c rfl) rest
    have shorter := breaks.length_lt
    obtain ⟨lines, hlines⟩ := exists_inLines behind
    exact ⟨_, by rw [heq]; exact .more unbroken breaks hlines⟩
termination_by t.length
decreasing_by simp_all; omega

namespace InLines

theorem flatMap_whole (h : t.InLines lines) : lines.flatMap EndedLine.whole = t := by
  induction h with
  | last => simp [EndedLine.whole]
  | more _ _ _ ih => simp [EndedLine.whole, ih]

theorem of_mem (h : t.InLines lines) :
    ∀ l ∈ lines, l.line.Unbroken ∧ ∀ c ∈ l.lineBreak, isLineBreak c = true := by
  induction h with
  | last unbroken => simpa using unbroken
  | more unbroken breaks _ ih => exact List.forall_mem_cons.mpr ⟨⟨unbroken, breaks.isLineBreak⟩, ih⟩

/-! ## Where lines begin -/

/-- The lines begin at the start and behind each line end. -/
theorem beginnings_eq (h : t.InLines lines) (start : Nat) :
    beginnings start lines = start :: lineEnds start t := by
  induction h generalizing start with
  | @last line unbroken =>
    have none := lineEnds_unbroken unbroken start []
    rw [List.append_nil] at none
    rw [none]
    rfl
  | @more line lineBreak rest lines unbroken breaks _ ih =>
    rw [lineEnds_unbroken unbroken, breaks.lineEnds, beginnings, ih, EndedLine.whole,
      byteLength_append, Nat.add_assoc]

/-- The table of line starts tells where the lines begin. -/
theorem lineStarts_eq (h : t.InLines lines) (nonempty : t ≠ []) :
    t.lineStarts = beginnings 0 lines := by
  rw [h.beginnings_eq]
  cases t with
  | nil => exact absurd rfl nonempty
  | cons c t => rfl

/-- The lines of what stands behind `before`, cut out of the whole. -/
theorem cutAt_beginnings (h : t.InLines lines) (before : Text) :
    (before ++ t).cutAt (beginnings before.byteLength lines) =
      lines.map fun l => some l.whole := by
  induction h generalizing before with
  | @last line unbroken =>
    have sliced := slice?_append before line []
    rw [List.append_nil] at sliced
    simp [beginnings, cutAt, EndedLine.whole, sliced]
  | @more line lineBreak rest lines unbroken breaks hrest ih =>
    have sliced := slice?_append before (line ++ lineBreak) rest
    have behind := ih (before ++ (line ++ lineBreak))
    have regroup : before ++ (line ++ (lineBreak ++ rest)) =
        before ++ (line ++ lineBreak) ++ rest := by simp
    rw [byteLength_append] at sliced behind
    rw [regroup, beginnings, List.map_cons, EndedLine.whole, ← behind, ← sliced,
      hrest.beginnings_eq, cutAt]

/-- The line starts cut the text into its lines. -/
theorem cutAt_lineStarts (h : t.InLines lines) (nonempty : t ≠ []) :
    t.cutAt t.lineStarts = lines.map fun l => some l.whole := by
  rw [h.lineStarts_eq nonempty]
  exact h.cutAt_beginnings []

end InLines

theorem lineStarts_eq_nil_iff : t.lineStarts = [] ↔ t = [] := by
  cases t <;> simp [lineStarts]

theorem head?_lineStarts (nonempty : t ≠ []) : t.lineStarts.head? = some 0 := by
  cases t with
  | nil => exact absurd rfl nonempty
  | cons c t => rfl

/-! ## Finding a line -/

theorem getElem?_cutAt {offsets : List Nat} {i a : Nat} (h : offsets[i]? = some a) :
    (t.cutAt offsets)[i]? = some (t.slice? a (offsets[i + 1]?.getD t.byteLength)) := by
  fun_induction cutAt t offsets generalizing i with
  | case1 => simp at h
  | case2 b =>
    cases i with
    | zero =>
      obtain rfl : b = a := by simpa using h
      rfl
    | succ i => simp at h
  | case3 b c offsets ih =>
    cases i with
    | zero =>
      obtain rfl : b = a := by simpa using h
      rfl
    | succ i => simpa using ih h

/-- Of ascending offsets, those that are not behind `o` come first. -/
theorem lt_length_takeWhile_iff {offsets : List Nat} (ascending : offsets.Pairwise (· < ·))
    (o : Nat) {j a : Nat} (h : offsets[j]? = some a) :
    j < (offsets.takeWhile (· ≤ o)).length ↔ a ≤ o := by
  induction ascending generalizing j with
  | nil => simp at h
  | @cons first offsets later _ ih =>
    by_cases passed : first ≤ o
    · rw [List.takeWhile_cons_of_pos (by simpa using passed), List.length_cons]
      cases j with
      | zero =>
        obtain rfl : first = a := by simpa using h
        simp [passed]
      | succ j => rw [Nat.add_lt_add_iff_right, ih (by simpa using h)]
    · rw [List.takeWhile_cons_of_neg (by simpa using passed)]
      have behind : first ≤ a := by
        rcases List.mem_cons.mp (List.mem_of_getElem? h) with rfl | among
        · exact Nat.le_refl _
        · exact Nat.le_of_lt (later a among)
      simp only [List.length_nil, Nat.not_lt_zero, false_iff]
      omega

end Text

namespace Reader

variable {r : Reader}

/-- The index of a line is that of the last line start up to the reader. -/
theorem lineIndex?_eq_some_iff {i : Nat} :
    r.lineIndex? = some i ↔ Text.LastUpTo r.input.lineStarts r.offset i := by
  have passed {j a : Nat} (h : r.input.lineStarts[j]? = some a) :=
    Text.lt_length_takeWhile_iff r.input.lineStarts_ascending r.offset h
  have fewer := (List.takeWhile_prefix (p := (· ≤ r.offset)) (l := r.input.lineStarts)).length_le
  have counted : r.lineIndex? = some i ↔
      (r.input.lineStarts.takeWhile (· ≤ r.offset)).length = i + 1 := by
    rw [lineIndex?]
    split <;> rename_i heq <;> simp [heq]
  rw [counted]
  generalize (r.input.lineStarts.takeWhile (· ≤ r.offset)).length = n at passed fewer ⊢
  constructor
  · rintro rfl
    have here := List.getElem?_eq_getElem fewer
    refine ⟨⟨_, here, (passed here).mp (Nat.lt_succ_self i)⟩, fun j b hj hb => ?_⟩
    refine Nat.lt_of_not_le fun reached => ?_
    have := (passed hb).mpr reached
    omega
  · rintro ⟨⟨a, here, reached⟩, later⟩
    have within := (passed here).mpr reached
    by_cases next : i + 1 < r.input.lineStarts.length
    · have there := List.getElem?_eq_getElem next
      have behind := later _ _ (Nat.lt_succ_self i) there
      have := mt (passed there).mp (Nat.not_le.mpr behind)
      omega
    · omega

theorem exists_lineIndex? (nonempty : r.input ≠ []) : ∃ i, r.lineIndex? = some i := by
  have first : r.input.lineStarts[0]? = some 0 := by
    rw [← List.head?_eq_getElem?, Text.head?_lineStarts nonempty]
  have passed := (Text.lt_length_takeWhile_iff r.input.lineStarts_ascending r.offset first).mpr
    (Nat.zero_le _)
  rw [lineIndex?]
  split
  · omega
  · exact ⟨_, rfl⟩

/-- The line that is found is the one of that index, without its break. -/
theorem exists_line_of_lineIndex? {lines : List EndedLine} (h : r.input.InLines lines)
    (nonempty : r.input ≠ []) {i : Nat} (found : r.lineIndex? = some i) :
    ∃ l, lines[i]? = some l ∧ r.currentLine = l.line := by
  obtain ⟨⟨a, first, -⟩, -⟩ := lineIndex?_eq_some_iff.mp found
  have cut := Text.getElem?_cutAt (t := r.input) first
  rw [h.cutAt_lineStarts nonempty, List.getElem?_map] at cut
  obtain ⟨l, hl, sliced⟩ := Option.map_eq_some_iff.mp cut
  obtain ⟨unbroken, broken⟩ := h.of_mem l (List.mem_of_getElem? hl)
  refine ⟨l, hl, ?_⟩
  simp only [currentLine, found, lineBounds, first, Option.getD_some, ← sliced]
  exact Text.trimLineBreaks_append unbroken broken

end Reader

namespace Text

/-- The line starts of a text cut it into its lines, each with its break. A reader that stands
anywhere in it, between the halves of a line break or inside a code point too, finds the index of
its line, and the line without its break. -/
theorem lineStarts_cut_lines (t : Text) :
    (t.lineStarts = [] ↔ t = []) ∧
      (t ≠ [] → t.lineStarts.head? = some 0 ∧ t.lineStarts.Pairwise (· < ·) ∧
        ∃ lines, t.InLines lines ∧ lines.flatMap EndedLine.whole = t ∧
          t.cutAt t.lineStarts = lines.map (fun l => some l.whole) ∧
          ∀ p : Position,
            (∀ i, (Reader.mk t p).lineIndex? = some i ↔ LastUpTo t.lineStarts p.offset i) ∧
              ∃ i l, (Reader.mk t p).lineIndex? = some i ∧ lines[i]? = some l ∧
                (Reader.mk t p).currentLine = l.line) := by
  refine ⟨lineStarts_eq_nil_iff, fun nonempty => ?_⟩
  obtain ⟨lines, h⟩ := exists_inLines t
  refine ⟨head?_lineStarts nonempty, t.lineStarts_ascending, lines, h, h.flatMap_whole,
    h.cutAt_lineStarts nonempty, fun p => ⟨fun i => Reader.lineIndex?_eq_some_iff, ?_⟩⟩
  obtain ⟨i, found⟩ := Reader.exists_lineIndex? (r := ⟨t, p⟩) nonempty
  obtain ⟨l, hl, line⟩ := Reader.exists_line_of_lineIndex? h nonempty found
  exact ⟨i, l, found, hl, line⟩

/-- Between the halves of a line break, and inside a code point. -/
theorem lineStarts_cut_lines_anywhere :
    let t : Text := ['a', '\r', '\r', '\n', 'é', '\n']
    t ≠ [] ∧ LastUpTo t.lineStarts 5 2 ∧
      ∃ lines l, t.InLines lines ∧ t.cutAt t.lineStarts = lines.map (fun l => some l.whole) ∧
        lines[1]? = some l ∧ (Reader.mk t ⟨3, 2, 1⟩).currentLine = l.line := by
  intro t
  have nonempty : t ≠ [] := by decide
  obtain ⟨-, -, lines, h, -, cuts, finds⟩ := (lineStarts_cut_lines t).2 nonempty
  obtain ⟨i, l, found, hl, line⟩ := (finds ⟨3, 2, 1⟩).2
  have second : (Reader.mk t ⟨3, 2, 1⟩).lineIndex? = some 1 := by decide
  obtain rfl := Option.some.inj (second.symm.trans found)
  exact ⟨nonempty, ((finds ⟨5, 3, 1⟩).1 2).mp (by decide), lines, l, h, cuts, hl, line⟩

end Text

end RecursiveDescent
