import RecursiveDescent.Text.Span

/-!
# Cutting texts

Where byte offsets cut a text, and where such a cut goes through a line break. The offsets at
which lines begin are a property of the text behind a cut alone, apart from those at or before it.
-/
namespace RecursiveDescent.Text

/-- The cut between the two texts goes through a line break `\r\n`. -/
def SplitsBreak (s t : Text) : Prop :=
  s.getLast? = some '\r' ∧ t.head? = some '\n'

instance (s t : Text) : Decidable (SplitsBreak s t) :=
  inferInstanceAs (Decidable (_ ∧ _))

/-! ## Bytes -/

theorem byteLength_pos {t : Text} (h : t ≠ []) : 0 < t.byteLength := by
  cases t with
  | nil => exact absurd rfl h
  | cons c rest =>
    have hc := c.utf8Size_pos
    simp only [byteLength]
    omega

/-- Dropping goes on behind a leading text. -/
theorem dropBytes?_add (s t : Text) (n : Nat) :
    dropBytes? (s.byteLength + n) (s ++ t) = dropBytes? n t := by
  induction s with
  | nil => simp [byteLength]
  | cons c s ih =>
    have hc := c.utf8Size_pos
    obtain ⟨k, hk⟩ : ∃ k, byteLength (c :: s) + n = k + 1 :=
      ⟨byteLength (c :: s) + n - 1, by simp only [byteLength]; omega⟩
    have hle : c.utf8Size ≤ k + 1 := by rw [← hk]; simp only [byteLength]; omega
    have hsub : k + 1 - c.utf8Size = byteLength s + n := by
      rw [← hk]; simp only [byteLength]; omega
    rw [hk, List.cons_append, dropBytes?, if_pos hle, hsub, ih]

/-- What is dropped from a text is a text in front of as many bytes as were asked for. -/
theorem eq_append_of_dropBytes? {n : Nat} {t rest : Text} (h : dropBytes? n t = some rest) :
    ∃ s : Text, t = s ++ rest ∧ s.byteLength = n := by
  fun_induction dropBytes? n t with
  | case1 t => exact ⟨[], by simpa using h, rfl⟩
  | case2 => cases h
  | case3 n c t hle ih =>
    obtain ⟨s, rfl, hs⟩ := ih h
    exact ⟨c :: s, rfl, by rw [byteLength, hs]; omega⟩
  | case4 => cases h

/-- A text in the middle is cut out by the byte lengths around it. -/
theorem slice?_append (s t u : Text) :
    slice? (s ++ t ++ u) s.byteLength (s ++ t).byteLength = some t := by
  have hle : s.byteLength ≤ (s ++ t).byteLength := by rw [byteLength_append]; omega
  have hsub : (s ++ t).byteLength - s.byteLength = t.byteLength := by
    rw [byteLength_append]; omega
  rw [slice?, if_pos hle, List.append_assoc, dropBytes?_append, Option.bind_some, hsub,
    takeBytes?_append]

/-- A slice stays the same when a text is put in front. -/
theorem slice?_front (front t : Text) (a b : Nat) :
    slice? (front ++ t) (a + front.byteLength) (b + front.byteLength) = slice? t a b := by
  have hsub : b + front.byteLength - (a + front.byteLength) = b - a := by omega
  by_cases hab : a ≤ b
  · rw [slice?, if_pos (by omega), slice?, if_pos hab, hsub, Nat.add_comm a, dropBytes?_add]
  · rw [slice?, if_neg (by omega), slice?, if_neg hab]

/-! ## Symbols -/

theorem firstSymbol?_cons {c : Char} {rest : Text} (whole : ¬ SplitsBreak [c] rest) :
    firstSymbol? (c :: rest) = some ⟨c, c.utf8Size⟩ := by
  rw [firstSymbol?]
  rintro t rfl rfl
  exact whole ⟨rfl, rfl⟩

theorem splitsBreak_cons {c : Char} {s t : Text} (hs : s ≠ []) :
    SplitsBreak (c :: s) t ↔ SplitsBreak s t := by
  rw [SplitsBreak, SplitsBreak, List.getLast?_cons_of_ne_nil hs]

/-- Whether a line break is split behind a text does not hang on what is in front of it. -/
theorem splitsBreak_append {s t u : Text} (ht : t ≠ []) :
    SplitsBreak (s ++ t) u ↔ SplitsBreak t u := by
  rw [SplitsBreak, SplitsBreak, List.getLast?_append, List.getLast?_eq_some_getLast ht,
    Option.some_or]

theorem splitsBreak_pair {s t : Text} : SplitsBreak ('\r' :: '\n' :: s) t ↔ SplitsBreak s t := by
  cases s with
  | nil => exact ⟨fun h => absurd h.1 (by decide), fun h => by cases h.1⟩
  | cons c s => exact splitsBreak_append (s := ['\r', '\n']) (List.cons_ne_nil c s)

theorem SplitsBreak.append {s t : Text} (h : SplitsBreak s t) (u : Text) :
    SplitsBreak s (t ++ u) := by
  refine ⟨h.1, ?_⟩
  rw [List.head?_append, h.2, Option.some_or]

theorem not_splitsBreak_nil (t : Text) : ¬ SplitsBreak [] t := by
  rintro ⟨last, -⟩
  cases last

theorem not_splitsBreak_end (t : Text) : ¬ SplitsBreak t [] := by
  rintro ⟨-, first⟩
  cases first

theorem not_splitsBreak_cons {c : Char} {s t : Text} (head : ¬ SplitsBreak [c] (s ++ t))
    (tail : ¬ SplitsBreak s t) : ¬ SplitsBreak (c :: s) t := by
  cases s with
  | nil => exact head
  | cons d s => rwa [splitsBreak_cons (List.cons_ne_nil d s)]

/-- Induction over the symbols of a text that stands before `rest`, none of them cut through. -/
theorem symbol_induction {rest : Text} {motive : (t : Text) → ¬ SplitsBreak t rest → Prop}
    (nil : ∀ whole, motive [] whole)
    (pair : ∀ t before after, motive t after → motive ('\r' :: '\n' :: t) before)
    (single : ∀ c t before after, ¬ SplitsBreak [c] (t ++ rest) → motive t after →
      motive (c :: t) before)
    (t : Text) (whole : ¬ SplitsBreak t rest) : motive t whole := by
  cases t with
  | nil => exact nil whole
  | cons c t =>
    by_cases split : SplitsBreak [c] (t ++ rest)
    · obtain ⟨hc, ht⟩ := split
      obtain rfl : c = '\r' := by simpa using hc
      cases t with
      | nil => exact absurd ⟨rfl, ht⟩ whole
      | cons d t =>
        obtain rfl : d = '\n' := by simpa using ht
        have after : ¬ SplitsBreak t rest := fun h => whole (splitsBreak_pair.mpr h)
        exact pair t whole after (symbol_induction nil pair single t after)
    · have after : ¬ SplitsBreak t rest := fun h => by
        cases t with
        | nil => cases h.1
        | cons e t => exact whole ((splitsBreak_cons (List.cons_ne_nil e t)).mpr h)
      exact single c t whole after split (symbol_induction nil pair single t after)
termination_by t.length

/-! ## Reading -/

/-- The text as parsers read it, each line break `\r\n` as `\n`. -/
def read : Text → Text
  | '\r' :: '\n' :: rest => '\n' :: read rest
  | c :: rest => c :: read rest
  | [] => []

theorem read_cons {c : Char} {rest : Text} (whole : ¬ SplitsBreak [c] rest) :
    read (c :: rest) = c :: read rest := by
  rw [read]
  rintro t rfl rfl
  exact whole ⟨rfl, rfl⟩

/-- Texts are read apart from each other where no line break is split between them. -/
theorem read_append {s t : Text} (whole : ¬ SplitsBreak s t) :
    read (s ++ t) = read s ++ read t := by
  induction s, whole using symbol_induction with
  | nil => rfl
  | pair s _ _ ih => rw [List.cons_append, List.cons_append, read, read, ih, List.cons_append]
  | single c s _ _ whole ih =>
    rw [List.cons_append, read_cons whole, read_cons fun h => whole (h.append t), ih,
      List.cons_append]

/-- What is read first is the first symbol. -/
theorem head?_read (t : Text) : t.read.head? = t.firstSymbol?.map (·.char) := by
  fun_cases firstSymbol? t with
  | case1 rest => rfl
  | case2 c rest single =>
    rw [read]
    · rfl
    · exact single
  | case3 => rfl

theorem read_eq_nil_iff {t : Text} : t.read = [] ↔ t = [] := by
  fun_cases read t with
  | case1 rest => exact ⟨nofun, nofun⟩
  | case2 c rest _ => exact ⟨nofun, nofun⟩
  | case3 => exact ⟨fun _ => rfl, fun _ => rfl⟩

/-! ## Line starts -/

theorem utf8Size_of_isLineBreak {c : Char} (h : isLineBreak c) : c.utf8Size = 1 := by
  rcases (by simpa [isLineBreak] using h : c = '\r' ∨ c = '\n') with rfl | rfl <;> rfl

theorem lineEnds_cons {c : Char} {rest : Text} (whole : ¬ SplitsBreak [c] rest) (start : Nat) :
    lineEnds start (c :: rest) =
      if isLineBreak c then (start + 1) :: lineEnds (start + 1) rest
      else lineEnds (start + c.utf8Size) rest := by
  rw [lineEnds]
  rintro t rfl rfl
  exact whole ⟨rfl, rfl⟩

theorem le_of_mem_lineEnds {start e : Nat} {t : Text} (h : e ∈ lineEnds start t) :
    start < e ∧ e ≤ start + t.byteLength := by
  fun_induction lineEnds start t with
  | case1 => cases h
  | case2 start rest ih =>
    simp only [byteLength, List.mem_cons] at h ⊢
    have hr : '\r'.utf8Size = 1 := rfl
    have hn : '\n'.utf8Size = 1 := rfl
    rcases h with rfl | h
    · omega
    · have := ih h
      omega
  | case3 start c rest _ hc ih =>
    have := c.utf8Size_pos
    simp only [byteLength, List.mem_cons] at h ⊢
    rcases h with rfl | h
    · omega
    · have := ih h
      omega
  | case4 start c rest _ hc ih =>
    have := c.utf8Size_pos
    have := ih h
    simp only [byteLength]
    omega

/-- The line ends of a whole are those of its two parts, unless a line break is split between them.
-/
theorem lineEnds_append {s t : Text} (whole : ¬ SplitsBreak s t) (start : Nat) :
    lineEnds start (s ++ t) = lineEnds start s ++ lineEnds (start + s.byteLength) t := by
  induction s, whole using symbol_induction generalizing start with
  | nil => simp [lineEnds, byteLength]
  | pair s _ _ ih =>
    have hb : start + byteLength ('\r' :: '\n' :: s) = start + 2 + byteLength s := by
      simp only [byteLength]
      show start + (1 + (1 + _)) = _
      omega
    rw [List.cons_append, List.cons_append, lineEnds, ih, hb, lineEnds, List.cons_append]
  | single c s _ _ whole ih =>
    have inner : ¬ SplitsBreak [c] s := fun h => whole (h.append t)
    rw [List.cons_append, lineEnds_cons whole, lineEnds_cons inner]
    split
    · rename_i hc
      have hb : start + byteLength (c :: s) = start + 1 + byteLength s := by
        rw [byteLength, utf8Size_of_isLineBreak hc]
        omega
      rw [ih, hb, List.cons_append]
    · have hb : start + byteLength (c :: s) = start + c.utf8Size + byteLength s := by
        rw [byteLength]
        omega
      rw [ih, hb]

/-- A line break that is cut through ends where its second half does. -/
theorem lineEnds_cut (s t : Text) (start : Nat) :
    ∃ u : Text, u.byteLength ≤ s.byteLength ∧
      lineEnds start (s ++ t) = lineEnds start u ++ lineEnds (start + s.byteLength) t := by
  by_cases split : SplitsBreak s t
  · obtain ⟨u, rfl⟩ := List.getLast?_eq_some_iff.mp split.1
    obtain ⟨t, rfl⟩ := List.head?_eq_some_iff.mp split.2
    have hb : byteLength (u ++ ['\r']) = byteLength u + 1 := by
      rw [byteLength_append]
      rfl
    have whole : ¬ SplitsBreak u ('\r' :: '\n' :: t) := fun h => absurd h.2 (by simp)
    have last : lineEnds (start + byteLength u + 1) ('\n' :: t) =
        (start + byteLength u + 2) :: lineEnds (start + byteLength u + 2) t := rfl
    refine ⟨u, by omega, ?_⟩
    rw [List.append_assoc, List.singleton_append, lineEnds_append whole, hb, ← Nat.add_assoc, last,
      lineEnds]
  · exact ⟨s, Nat.le_refl _, lineEnds_append split start⟩

/-- Behind a cut the lines end where they would if the text began there. -/
theorem filter_lineEnds_append (s t : Text) (start : Nat) :
    (lineEnds start (s ++ t)).filter (start + s.byteLength < ·) =
      lineEnds (start + s.byteLength) t := by
  obtain ⟨u, hu, hcut⟩ := lineEnds_cut s t start
  have before : (lineEnds start u).filter (start + s.byteLength < ·) = [] := by
    rw [List.filter_eq_nil_iff]
    intro e he
    have := (le_of_mem_lineEnds he).2
    simp only [decide_eq_true_eq]
    omega
  have behind : (lineEnds (start + s.byteLength) t).filter (start + s.byteLength < ·) =
      lineEnds (start + s.byteLength) t := by
    rw [List.filter_eq_self]
    intro e he
    exact decide_eq_true (le_of_mem_lineEnds he).1
  rw [hcut, List.filter_append, before, behind, List.nil_append]

/-- The line starts behind a cut. -/
theorem filter_lineStarts_append (s t : Text) :
    (lineStarts (s ++ t)).filter (s.byteLength < ·) = lineEnds s.byteLength t := by
  have h := filter_lineEnds_append s t 0
  rw [Nat.zero_add] at h
  rw [← h]
  cases s ++ t with
  | nil => rfl
  | cons c u => rw [lineStarts, List.filter_cons_of_neg (by simp)]

end RecursiveDescent.Text
