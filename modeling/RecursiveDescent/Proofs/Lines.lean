import Mathlib.Data.List.Induction
import RecursiveDescent.Proofs.Walk

/-!
# The line around an offset

A text is cut into lines behind each of its line breaks. `LineAround` says what the line around an
offset is without mention of how it is looked up; `currentLine` finds it.
-/
namespace RecursiveDescent

namespace Text

def Unbroken (t : Text) : Prop :=
  ∀ c ∈ t, ¬ isLineBreak c = true

/-- Between the end of a line break, or of nothing, and the beginning of another, or of nothing,
stands the line; the offset is not before or behind it. -/
structure Line (t : Text) (offset : Nat) (before line after : Text) : Prop where
  text : t = before ++ (line ++ after)
  unbroken : line.Unbroken
  behindBreak : ∀ c, before.getLast? = some c → isLineBreak c = true
  aheadOfBreak : ∀ c, after.head? = some c → isLineBreak c = true
  whole : ¬ SplitsBreak before (line ++ after)
  notBefore : before.byteLength ≤ offset
  notBehind : offset ≤ before.byteLength + line.byteLength

def LineAround (t : Text) (offset : Nat) (line : Text) : Prop :=
  ∃ before after, t.Line offset before line after

theorem unbroken_nil : Unbroken [] :=
  nofun

theorem Unbroken.append {s t : Text} (hs : s.Unbroken) (ht : t.Unbroken) : (s ++ t).Unbroken := by
  intro c hc
  rcases List.mem_append.mp hc with hc | hc
  · exact hs c hc
  · exact ht c hc

theorem Unbroken.not_splitsBreak {s : Text} (hs : s.Unbroken) (t : Text) : ¬ SplitsBreak s t :=
  fun split => hs _ (List.mem_of_getLast? split.1) rfl

/-- The last line of a text. -/
theorem exists_lastLine (s : Text) :
    ∃ before own : Text, s = before ++ own ∧ own.Unbroken ∧
      ∀ c, before.getLast? = some c → isLineBreak c = true := by
  induction s using List.reverseRecOn with
  | nil => exact ⟨[], [], rfl, unbroken_nil, nofun⟩
  | append_singleton s c ih =>
    by_cases hc : isLineBreak c = true
    · refine ⟨s ++ [c], [], (List.append_nil _).symm, unbroken_nil, fun d hd => ?_⟩
      rw [List.getLast?_concat] at hd
      exact Option.some.inj hd ▸ hc
    · obtain ⟨before, own, rfl, unbroken, last⟩ := ih
      refine ⟨before, own ++ [c], List.append_assoc _ _ _, unbroken.append ?_, last⟩
      exact fun d hd => List.mem_singleton.mp hd ▸ hc

/-- The first line of a text. -/
theorem exists_firstLine (t : Text) :
    ∃ own after : Text, t = own ++ after ∧ own.Unbroken ∧
      ∀ c, after.head? = some c → isLineBreak c = true := by
  induction t with
  | nil => exact ⟨[], [], rfl, unbroken_nil, nofun⟩
  | cons c t ih =>
    by_cases hc : isLineBreak c = true
    · refine ⟨[], c :: t, rfl, unbroken_nil, fun d hd => ?_⟩
      exact Option.some.inj hd ▸ hc
    · obtain ⟨own, after, rfl, unbroken, first⟩ := ih
      exact ⟨c :: own, after, rfl, List.forall_mem_cons.mpr ⟨hc, unbroken⟩, first⟩

/-- Around each cut that goes through no line break there is a line, cut in two. -/
theorem exists_line {s t : Text} (whole : ¬ SplitsBreak s t) :
    ∃ before left right after, s = before ++ left ∧ t = right ++ after ∧
      (s ++ t).Line s.byteLength before (left ++ right) after := by
  obtain ⟨before, left, rfl, hleft, last⟩ := exists_lastLine s
  obtain ⟨right, after, rfl, hright, first⟩ := exists_firstLine t
  refine ⟨before, left, right, after, rfl, rfl, ?_⟩
  refine ⟨by simp, hleft.append hright, last, first, ?_, ?_, ?_⟩
  · intro split
    cases left with
    | nil => exact whole (by simpa using split)
    | cons c left =>
      have hc : '\n' = c := by simpa using split.2.symm
      exact hleft c List.mem_cons_self (hc ▸ rfl)
  · rw [byteLength_append]
    omega
  · rw [byteLength_append, byteLength_append]
    omega

/-! ## Where lines begin -/

theorem lineEnds_unbroken {line : Text} (unbroken : line.Unbroken) (start : Nat) (after : Text) :
    lineEnds start (line ++ after) = lineEnds (start + line.byteLength) after := by
  have none : lineEnds start line = [] := by
    induction line generalizing start with
    | nil => rfl
    | cons c line ih =>
      obtain ⟨hc, unbroken⟩ := List.forall_mem_cons.mp unbroken
      have single : Unbroken [c] := fun d hd => List.mem_singleton.mp hd ▸ hc
      rw [lineEnds_cons (single.not_splitsBreak line), if_neg hc, ih unbroken]
  rw [lineEnds_append (unbroken.not_splitsBreak after), none, List.nil_append]

/-- A text that ends with a line break ends where the last of its lines does. -/
theorem getLast?_lineEnds {t : Text} (nonempty : t ≠ [])
    (last : ∀ c, t.getLast? = some c → isLineBreak c = true) (start : Nat) :
    (lineEnds start t).getLast? = some (start + t.byteLength) := by
  obtain ⟨s, c, rfl⟩ : ∃ s c, t = s ++ [c] :=
    ⟨t.dropLast, t.getLast nonempty, (List.dropLast_concat_getLast nonempty).symm⟩
  have hc : isLineBreak c = true := last c List.getLast?_concat
  have one : byteLength [c] = 1 := by
    rw [byteLength, utf8Size_of_isLineBreak hc]
    rfl
  by_cases split : SplitsBreak s [c]
  · obtain ⟨u, rfl⟩ := List.getLast?_eq_some_iff.mp split.1
    obtain rfl : c = '\n' := by simpa using split.2
    have whole : ¬ SplitsBreak u ['\r', '\n'] := fun h => absurd h.2 (by decide)
    rw [List.append_assoc, List.singleton_append, lineEnds_append whole, lineEnds, lineEnds,
      List.getLast?_concat, byteLength_append]
    rfl
  · rw [lineEnds_append split, lineEnds_cons (not_splitsBreak_end [c]), if_pos hc, lineEnds,
      List.getLast?_concat, byteLength_append, one, Nat.add_assoc]

/-- A line break in front. -/
theorem exists_lineBreak {after : Text} (nonempty : after ≠ [])
    (first : ∀ c, after.head? = some c → isLineBreak c = true) :
    ∃ lineBreak rest : Text, after = lineBreak ++ rest ∧
      (∀ c ∈ lineBreak, isLineBreak c = true) ∧
      ∀ start, (lineEnds start after)[0]? = some (start + lineBreak.byteLength) := by
  cases after with
  | nil => exact absurd rfl nonempty
  | cons c rest =>
    have hc : isLineBreak c = true := first c rfl
    by_cases split : SplitsBreak [c] rest
    · obtain ⟨rest, rfl⟩ := List.head?_eq_some_iff.mp split.2
      obtain rfl : c = '\r' := by simpa using split.1
      exact ⟨['\r', '\n'], rest, rfl, List.all_eq_true.mp rfl, fun _ => rfl⟩
    · refine ⟨[c], rest, rfl, fun d hd => List.mem_singleton.mp hd ▸ hc, fun start => ?_⟩
      rw [lineEnds_cons split, if_pos hc, byteLength, utf8Size_of_isLineBreak hc]
      rfl

/-- Of a line with its break just the break is trimmed. -/
theorem trimLineBreaks_append {line lineBreak : Text} (unbroken : line.Unbroken)
    (broken : ∀ c ∈ lineBreak, isLineBreak c = true) :
    trimLineBreaks (line ++ lineBreak) = line := by
  have trailing : ∀ c ∈ lineBreak.reverse, isLineBreak c = true :=
    fun c hc => broken c (List.mem_reverse.mp hc)
  have kept : line.reverse.dropWhile isLineBreak = line.reverse := by
    cases h : line.reverse with
    | nil => rfl
    | cons c rest =>
      have hc := unbroken c (List.mem_reverse.mp (h ▸ List.mem_cons_self))
      rw [List.dropWhile_cons_of_neg hc]
  rw [trimLineBreaks, List.reverse_append, List.dropWhile_append_of_pos trailing, kept,
    List.reverse_reverse]

variable {t before line after : Text} {offset : Nat}

/-- The line starts up to a line, and those behind it. -/
theorem Line.lineStarts (h : t.Line offset before line after) (nonempty : t ≠ []) :
    t.lineStarts = (0 :: lineEnds 0 before) ++
      lineEnds (before.byteLength + line.byteLength) after := by
  have hstarts : t.lineStarts = 0 :: lineEnds 0 t := by
    cases t with
    | nil => exact absurd rfl nonempty
    | cons c t => rfl
  rw [hstarts, h.text, lineEnds_append h.whole, Nat.zero_add, lineEnds_unbroken h.unbroken,
    List.cons_append]

theorem Line.getElem?_lineEnds (h : t.Line offset before line after) :
    (0 :: lineEnds 0 before)[(lineEnds 0 before).length]? = some before.byteLength := by
  have last : (0 :: lineEnds 0 before).getLast? = some before.byteLength := by
    by_cases none : before = []
    · subst none
      rfl
    · rw [List.getLast?_cons, getLast?_lineEnds none h.behindBreak, Option.getD_some, Nat.zero_add]
  rw [← last, List.getLast?_eq_getElem?, List.length_cons, Nat.add_sub_cancel]

end Text

namespace Reader

variable {r : Reader} {before line after : Text}

/-- The reader is on the line of that many line ends before. -/
theorem lineIndex?_eq (h : r.input.Line r.offset before line after) (nonempty : r.input ≠ []) :
    r.lineIndex? = some (Text.lineEnds 0 before).length := by
  have passed : ∀ s ∈ 0 :: Text.lineEnds 0 before, decide (s ≤ r.offset) = true := by
    intro s hs
    rw [decide_eq_true_eq]
    rcases List.mem_cons.mp hs with rfl | hs
    · exact Nat.zero_le _
    · have := (Text.le_of_mem_lineEnds hs).2
      have := h.notBefore
      omega
  have ahead : (Text.lineEnds (before.byteLength + line.byteLength) after).takeWhile
      (· ≤ r.offset) = [] := by
    cases hends : Text.lineEnds (before.byteLength + line.byteLength) after with
    | nil => rfl
    | cons s ends =>
      have := (Text.le_of_mem_lineEnds (hends ▸ List.mem_cons_self)).1
      have := h.notBehind
      rw [List.takeWhile_cons_of_neg]
      rw [decide_eq_true_eq]
      omega
  rw [lineIndex?, h.lineStarts nonempty, List.takeWhile_append_of_pos passed, ahead,
    List.append_nil, List.length_cons]

/-- The line lasts up to its break, if there is one, and to where the break ends. -/
theorem lineBounds_eq (h : r.input.Line r.offset before line after) (nonempty : r.input ≠ []) :
    ∃ lineBreak rest : Text, after = lineBreak ++ rest ∧
      (∀ c ∈ lineBreak, isLineBreak c = true) ∧
      r.lineBounds (Text.lineEnds 0 before).length =
        (before.byteLength, (before ++ (line ++ lineBreak)).byteLength) := by
  have here : (Text.lineEnds 0 before).length < (0 :: Text.lineEnds 0 before).length :=
    Nat.lt_succ_self _
  have first : r.input.lineStarts[(Text.lineEnds 0 before).length]? = some before.byteLength := by
    rw [h.lineStarts nonempty, List.getElem?_append_left here, h.getElem?_lineEnds]
  have next : r.input.lineStarts[(Text.lineEnds 0 before).length + 1]? =
      (Text.lineEnds (before.byteLength + line.byteLength) after)[0]? := by
    rw [h.lineStarts nonempty, ← List.length_cons, List.getElem?_append_right (Nat.le_refl _),
      Nat.sub_self]
  rw [lineBounds, first, next]
  by_cases last : after = []
  · subst last
    refine ⟨[], [], rfl, nofun, ?_⟩
    have htext := congrArg Text.byteLength h.text
    rw [htext]
    rfl
  · obtain ⟨lineBreak, rest, rfl, broken, ends⟩ := Text.exists_lineBreak last h.aheadOfBreak
    refine ⟨lineBreak, rest, rfl, broken, ?_⟩
    rw [ends, Text.byteLength_append, Text.byteLength_append, ← Nat.add_assoc]
    rfl

/-- The line that is shown is the one around the reader, without its break. -/
theorem currentLine_eq (h : r.input.Line r.offset before line after) : r.currentLine = line := by
  by_cases empty : r.input = []
  · have htext := h.text
    rw [empty, eq_comm] at htext
    have nothing : line = [] :=
      (List.append_eq_nil_iff.mp (List.append_eq_nil_iff.mp htext).2).1
    rw [currentLine, lineIndex?, empty, nothing]
    rfl
  · obtain ⟨lineBreak, rest, rfl, broken, bounds⟩ := lineBounds_eq h empty
    have sliced := Text.slice?_append before (line ++ lineBreak) rest
    have hinput : r.input = before ++ (line ++ lineBreak) ++ rest := by
      rw [h.text, List.append_assoc, List.append_assoc]
    rw [← hinput] at sliced
    rw [currentLine, lineIndex?_eq h empty]
    dsimp only
    rw [bounds]
    dsimp only
    rw [sliced, Option.getD_some, Text.trimLineBreaks_append h.unbroken broken]

/-- A reader that is behind whole symbols finds the line around it. -/
theorem lineAround_currentLine {s : Text} (hinput : r.input = s ++ r.remaining)
    (hoffset : r.offset = s.byteLength) (whole : ¬ Text.SplitsBreak s r.remaining) :
    r.input.LineAround r.offset r.currentLine := by
  obtain ⟨before, left, right, after, -, -, h⟩ := Text.exists_line whole
  rw [← hinput, ← hoffset] at h
  rw [currentLine_eq h]
  exact ⟨before, after, h⟩

end Reader

end RecursiveDescent
