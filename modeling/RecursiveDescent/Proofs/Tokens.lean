import RecursiveDescent.Proofs.Yielding

/-!
# Tokens of a known text

Where the text ahead is known, a token is taken exactly: the run of characters up to one that is
refused, and the white space behind the token up to what is none.
-/
namespace RecursiveDescent

namespace Text

/-- The text does not begin with an accepted symbol. -/
def Stops (accepts : Char → Bool) (t : Text) : Prop :=
  ∀ s, t.firstSymbol? = some s → ¬ accepts s.char = true

variable {accepts : Char → Bool} {t rest : Text} {c : Char}

theorem stops_nil : Stops accepts [] :=
  nofun

theorem stops_cons (refused : ¬ accepts c = true) (pair : c = '\r' → ¬ accepts '\n' = true) :
    Stops accepts (c :: rest) := by
  intro s hs
  by_cases split : SplitsBreak [c] rest
  · obtain ⟨rest, rfl⟩ := List.head?_eq_some_iff.mp split.2
    obtain rfl : c = '\r' := by simpa using split.1
    obtain rfl := Option.some.inj hs
    exact pair rfl
  · rw [firstSymbol?_cons split] at hs
    obtain rfl := Option.some.inj hs
    exact refused

/-- In front of what is no white space no line break is cut. -/
theorem Stops.whole (h : rest.Stops accepts) (newline : accepts '\n' = true) (t : Text) :
    ¬ SplitsBreak t rest := by
  rintro ⟨-, head⟩
  obtain ⟨rest, rfl⟩ := List.head?_eq_some_iff.mp head
  have single : ¬ SplitsBreak ['\n'] rest := fun split => absurd split.1 (by decide)
  exact h _ (firstSymbol?_cons single) newline

/-- A run of accepted characters lasts up to a symbol that is refused. -/
theorem runLength_append (all : ∀ c ∈ t, accepts c = true) (stops : rest.Stops accepts)
    (whole : ¬ SplitsBreak t rest) : (t ++ rest).runLength accepts = t.byteLength := by
  induction t, whole using symbol_induction with
  | nil =>
    have none : runLength accepts rest = 0 := by
      fun_cases runLength accepts rest with
      | case1 rest accepted => exact absurd accepted (stops ⟨'\n', 2⟩ rfl)
      | case2 => rfl
      | case3 c rest single accepted =>
        have first : firstSymbol? (c :: rest) = some ⟨c, c.utf8Size⟩ := by
          rw [firstSymbol?]
          exact single
        exact absurd accepted (stops _ first)
      | case4 => rfl
      | case5 => rfl
    rw [List.nil_append, none]
    rfl
  | pair t _ _ ih =>
    have newline := all '\n' (by simp)
    have inner := ih fun c hc => all c (by simp [hc])
    rw [List.cons_append, List.cons_append, runLength, if_pos newline, inner]
    show _ = 1 + (1 + _)
    omega
  | single c t _ _ single ih =>
    have inner := ih fun d hd => all d (List.mem_cons_of_mem c hd)
    rw [List.cons_append, runLength, if_pos (all c List.mem_cons_self), inner, byteLength]
    rintro u rfl hu
    exact single ⟨rfl, by rw [hu]; rfl⟩

end Text

namespace Reader

variable {r r' : Reader} {t rest : Text} {c : Char}

theorem Passes.remaining_eq (h : r.Passes t r') (ahead : r.remaining = t ++ rest) :
    r'.remaining = rest :=
  List.append_cancel_left (h.ahead.symm.trans ahead)

theorem peek?_cons (ahead : r.remaining = c :: rest) (noBreak : c ≠ '\r') : r.peek? = some c := by
  have whole : ¬ Text.SplitsBreak [c] rest := fun split => noBreak (by simpa using split.1)
  rw [peek?, ahead, Text.firstSymbol?_cons whole, Option.map_some]

end Reader

namespace Conditions

variable {α : Type} {C : Conditions} {r : Reader} {bad : Failure → Prop}
variable {t blank rest : Text} {c : Char}

/-- The character that is ahead is taken, if it is no line break. -/
theorem yields_known {label : String} (hr : r.OnBoundary) (ahead : r.remaining = c :: rest)
    (noBreak : c ≠ '\r') :
    C.Yields (Parser.codePoint label c).run r (fun d r' => d = c ∧ r.Passes [c] r') bad := by
  have whole : ¬ Text.SplitsBreak [c] rest := fun split => noBreak (by simpa using split.1)
  refine yields_codePoint label c (fun r' _ step => ⟨rfl, ?_⟩) fun refused => ?_
  · obtain rfl := Option.some.inj ((Reader.step?_single ahead whole).symm.trans step)
    have one : r.remaining = [c] ++ rest := ahead
    exact Reader.passes_past hr one whole
  · exact absurd (Reader.peek?_cons ahead noBreak) refused

theorem yields_unknown {label : String} (other : r.peek? ≠ some c) :
    C.Yields (Parser.codePoint label c).run r (fun _ _ => False) fun _ => True :=
  yields_codePoint label c (fun _ same _ => absurd same other) fun _ _ _ _ => trivial

/-- A run of accepted characters is taken up to what stops it. -/
theorem yields_run {label : String} {accepts : Char → Bool} (hr : r.OnBoundary)
    (ahead : r.remaining = t ++ rest) (all : ∀ c ∈ t, accepts c = true)
    (stops : rest.Stops accepts) (whole : ¬ Text.SplitsBreak t rest) :
    C.Yields (Parser.takeWhile label accepts).run r (fun u r' => u = t ∧ r.Passes t r') bad := by
  refine yields_takeWhile label accepts fun walked rest' ahead' _ length => ?_
  rw [ahead, Text.runLength_append all stops whole] at length
  obtain ⟨rfl, rfl⟩ := Text.append_inj_of_byteLength (ahead'.symm.trans ahead) length
  exact ⟨rfl, Reader.passes_past hr ahead whole⟩

/-- A lexeme takes the white space behind the token too. -/
theorem yields_token {p : Parser α} {is : α → Prop} (hr : r.OnBoundary)
    (ahead : r.remaining = t ++ (blank ++ rest))
    (white : ∀ c ∈ blank, Unicode.isWhiteSpace c = true)
    (stops : rest.Stops Unicode.isWhiteSpace)
    (h : C.Yields p.run r (fun a r' => is a ∧ r.Passes t r') bad) :
    C.Yields (Parser.lexeme p).run r (fun a r' => is a ∧ r.Passes (t ++ blank) r') bad := by
  apply yields_lexeme
  refine h.mono (fun a r' walk token walked rest' ahead' _ length => ⟨token.1, ?_⟩) fun _ => id
  have behind := token.2.remaining_eq ahead
  have whole := stops.whole rfl blank
  rw [behind, Text.runLength_append white stops whole] at length
  obtain ⟨rfl, rfl⟩ := Text.append_inj_of_byteLength (ahead'.symm.trans behind) length
  exact token.2.trans (Reader.passes_past (walk.onBoundary hr) behind whole)

end Conditions

end RecursiveDescent
