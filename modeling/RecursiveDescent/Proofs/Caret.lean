import RecursiveDescent.Proofs.Causes

/-!
# The caret of a level

Each level of a failure shows its line with the number before it, and a caret on the line below. The
caret stands under the character at which the level stands, whatever the number and whichever
characters come before; at the end of the line it stands behind it. The column that places it was
counted on the way, and the line was looked up afterwards; both come from one cut of the text.
-/
namespace RecursiveDescent

/-- The caret is on a second line, below the character of the text at the level's offset, or behind
the first line if there is none or a line break. -/
def Level.PointsInto (l : Level) (input : Text) : Prop :=
  ∃ (first : Text) (i : Nat) (ahead : Text),
    l.caretLines.toList = first ++ '\n' :: (List.replicate i ' ' ++ ['^']) ∧ '\n' ∉ first ∧
      input.dropBytes? l.position.offset = some ahead ∧
      match ahead with
      | c :: _ => if isLineBreak c = true then i = first.length else first[i]? = some c
      | [] => i = first.length

/-! ## The column -/

namespace Position

/-- Behind a line break the column is the first. -/
theorem column_past_lines {before : Text} (nonempty : before ≠ [])
    (last : ∀ c, before.getLast? = some c → isLineBreak c = true) (p : Position) :
    (p.past before).column = 1 := by
  obtain ⟨a, b, rfl, counts⟩ := columnCounts p before
  rw [Text.getLast?_lineEnds nonempty last] at counts
  obtain ⟨stop, column⟩ := counts
  rw [Text.byteLength_append] at stop
  have nothing : b = [] := by
    by_contra some_left
    have := Text.byteLength_pos some_left
    omega
  rw [column, nothing]
  rfl

/-- The column counts the characters of the line so far. -/
theorem column_past_line {before left : Text} (unbroken : left.Unbroken)
    (last : ∀ c, before.getLast? = some c → isLineBreak c = true) {p : Position}
    (first : p.column = 1) : (p.past (before ++ left)).column = 1 + left.length := by
  have inner : ¬ Text.SplitsBreak before left := fun split =>
    unbroken _ (List.mem_of_head? split.2) rfl
  have behind : (p.past before).column = 1 := by
    by_cases none : before = []
    · rw [none]
      exact first
    · exact column_past_lines none last p
  rw [past_append inner, Reader.past_line unbroken, behind]

end Position

/-! ## The lines shown -/

/-- What is ahead of the cut of a line stands there also with a text in front, unless it is no part
of the line. -/
theorem Text.Line.shown_at_cut {t before left right after : Text} {offset : Nat}
    (line : t.Line offset before (left ++ right) after) (front : Text) :
    match right ++ after with
    | c :: _ =>
      if isLineBreak c = true then
        front.length + left.length = (front ++ (left ++ right)).length
      else (front ++ (left ++ right))[front.length + left.length]? = some c
    | [] => front.length + left.length = (front ++ (left ++ right)).length := by
  cases right with
  | cons c right =>
    have other : ¬ isLineBreak c = true :=
      line.unbroken c (List.mem_append_right left List.mem_cons_self)
    simp [other]
  | nil =>
    cases after with
    | cons c after =>
      have lineBreak : isLineBreak c = true := line.aheadOfBreak c rfl
      simp [lineBreak]
    | nil => simp

namespace Level

def gutter (l : Level) : String :=
  s!"{l.position.line}| "

theorem not_mem_gutter (l : Level) : '\n' ∉ l.gutter.toList := by
  intro h
  rw [gutter, String.toList_append, List.mem_append] at h
  rcases h with number | bar
  · have digits : '\n' ∈ Nat.toDigits 10 l.position.line := by simpa using number
    have digit := Nat.isDigit_of_mem_toDigits (by decide) (by decide) digits
    exact absurd digit (by decide)
  · exact absurd bar (by decide)

/-- Under the line there are as many blanks as the gutter is long, and as there are columns before.
-/
theorem toList_caretLines (l : Level) :
    l.caretLines.toList = l.gutter.toList ++ l.lineText.toList ++ '\n' ::
      (List.replicate (l.gutter.length + (l.position.column - 1)) ' ' ++ ['^']) := by
  rw [caretLines, ← gutter]
  simp

/-- Where the line was looked up is where the column was counted. -/
theorem StandsAt.pointsInto {l : Level} {input : Text} {r : Reader} (stands : l.StandsAt r)
    (walk : (Reader.start input).Reaches r) : l.PointsInto input := by
  obtain ⟨walked, ahead, whole, hr⟩ := walk.exists_walked
  obtain ⟨before, left, right, after, rfl, remaining, line⟩ := Text.exists_line whole
  rw [Reader.remaining_start] at ahead
  have hinput : r.input = before ++ left ++ r.remaining := walk.input.trans ahead
  have hoffset : r.offset = (before ++ left).byteLength := by
    rw [hr, Reader.offset, Position.offset_past]
    exact Nat.zero_add _
  have column : l.position.column = 1 + left.length := by
    rw [stands.1, hr]
    have own : left.Unbroken := fun c hc => line.unbroken c (List.mem_append_left right hc)
    exact Position.column_past_line own line.behindBreak rfl
  have text : l.lineText.toList = left ++ right := by
    rw [← hinput, ← hoffset] at line
    rw [stands.2, String.toList_ofList, Reader.currentLine_eq line]
  refine ⟨l.gutter.toList ++ (left ++ right), l.gutter.length + left.length, right ++ after,
    ?_, ?_, ?_, ?_⟩
  · rw [toList_caretLines, text, column, Nat.add_sub_cancel_left]
  · rw [List.mem_append]
    rintro (inGutter | inLine)
    · exact l.not_mem_gutter inGutter
    · exact line.unbroken _ inLine rfl
  · have cut := Reader.dropBytes?_of_before hinput hoffset
    rw [walk.input, remaining] at cut
    rw [stands.1]
    exact cut
  · rw [← String.length_toList]
    exact line.shown_at_cut l.gutter.toList

end Level

/-- The carets in failures of a run from the start of a text are at the characters of that text. -/
def Parser.PointsInto (p : Parser Value) : Prop :=
  ∀ input store f t, p.run ⟨Reader.start input, store⟩ = .failed f t →
    ∀ l ∈ f.levels, l.PointsInto input

/-- Every level of a failure that was raised from the start points into the text. -/
theorem Parser.RaisesFromStart.pointsInto {items : String → Prop} {p : Parser Value}
    (h : p.RaisesFromStart items) : p.PointsInto := by
  intro input store f t failed l hl
  obtain ⟨r, walk, stands⟩ := (h input store f t failed).reached l hl
  exact stands.pointsInto walk

namespace Grammar

variable {g : Grammar}

/-- The carets in the failures of a grammar of parsers that are none of one's own are at the
characters at which it failed, in whichever way it is run. -/
theorem plain_pointsInto (hg : g.Plain) (node : NodeId) :
    (∀ depth, (g.parserWithin depth node).PointsInto) ∧ (g.toParser node).PointsInto ∧
      ∀ kind label probe, (Deferred.mk kind label g probe).handle.PointsInto := by
  obtain ⟨within, whole, deferred⟩ := hg.raisesFromStart node
  exact ⟨fun depth => (within depth).pointsInto, whole.pointsInto,
    fun kind label probe => (deferred kind label probe).pointsInto⟩

def markedDigits : Grammar :=
  .sepBy (.andThen (.codePoint "mark" 'é') digit) (.codePoint "line break" '\n')

theorem markedDigits_plain : markedDigits.Plain :=
  .binary nofun rfl (.binary nofun rfl (.leaf nofun rfl) (.leaf nofun rfl)) (.leaf nofun rfl)

theorem markedDigits_pointsInto :
    markedDigits.Plain ∧ ∃ f t, (markedDigits.toParser []).run
        ⟨Reader.start ['é', '1', '\r', '\n', 'é', 'x', '\n'], .empty⟩ = .failed f t ∧
      (∀ l ∈ f.levels, l.PointsInto ['é', '1', '\r', '\n', 'é', 'x', '\n']) ∧
      f.levels.map (fun l => (l.position, l.caretLines)) =
        [(⟨0, 1, 1⟩, "1| é1\n   ^"), (⟨5, 2, 1⟩, "2| éx\n   ^"),
          (⟨7, 2, 2⟩, "2| éx\n    ^")] := by
  have failure : ((markedDigits.toParser []).run ⟨Reader.start
        ['é', '1', '\r', '\n', 'é', 'x', '\n'], .empty⟩).failure?.map (fun f =>
        f.levels.map fun l => (l.position, l.caretLines)) =
      some [(⟨0, 1, 1⟩, "1| é1\n   ^"), (⟨5, 2, 1⟩, "2| éx\n   ^"),
        (⟨7, 2, 2⟩, "2| éx\n    ^")] := by
    decide +kernel
  obtain ⟨f, t, failed, levels⟩ := Outcome.exists_failed_of_failure? failure
  have points := (plain_pointsInto markedDigits_plain []).2.1 _ _ f t failed
  exact ⟨markedDigits_plain, f, t, failed, points, levels⟩

end Grammar

end RecursiveDescent
