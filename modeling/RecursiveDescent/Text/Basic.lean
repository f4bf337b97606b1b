/-!
# Text measured in UTF-8 bytes

Texts are lists of code points, and offsets into them count the bytes of their UTF-8 form. A cut
at an offset inside a code point, or past the end, has no answer.
-/
namespace RecursiveDescent

abbrev Text := List Char

namespace Text

/-- Bytes of the UTF-8 form. -/
def byteLength : Text → Nat
  | [] => 0
  | c :: rest => c.utf8Size + byteLength rest

/-- What follows the first `n` bytes. -/
def dropBytes? : Nat → Text → Option Text
  | 0, t => some t
  | _ + 1, [] => none
  | n + 1, c :: rest =>
    if c.utf8Size ≤ n + 1 then dropBytes? (n + 1 - c.utf8Size) rest else none

/-- The first `n` bytes. -/
def takeBytes? : Nat → Text → Option Text
  | 0, _ => some []
  | _ + 1, [] => none
  | n + 1, c :: rest =>
    if c.utf8Size ≤ n + 1 then (takeBytes? (n + 1 - c.utf8Size) rest).map (c :: ·) else none

/-- The bytes from offset `a` up to offset `b`. -/
def slice? (t : Text) (a b : Nat) : Option Text :=
  if a ≤ b then (dropBytes? a t).bind (takeBytes? (b - a)) else none

theorem byteLength_append (s t : Text) :
    byteLength (s ++ t) = byteLength s + byteLength t := by
  induction s with
  | nil => simp [byteLength]
  | cons c s ih => simp [byteLength, ih, Nat.add_assoc]

theorem dropBytes?_zero (t : Text) : dropBytes? 0 t = some t := by
  cases t <;> rfl

theorem takeBytes?_zero (t : Text) : takeBytes? 0 t = some [] := by
  cases t <;> rfl

/-- Dropping exactly a leading text leaves the rest. -/
theorem dropBytes?_append (s t : Text) : dropBytes? (byteLength s) (s ++ t) = some t := by
  induction s with
  | nil => exact dropBytes?_zero t
  | cons c s ih =>
    have hc := c.utf8Size_pos
    obtain ⟨n, hn⟩ : ∃ n, byteLength (c :: s) = n + 1 :=
      ⟨byteLength (c :: s) - 1, by simp only [byteLength]; omega⟩
    have hle : c.utf8Size ≤ n + 1 := by rw [← hn]; simp only [byteLength]; omega
    have hsub : n + 1 - c.utf8Size = byteLength s := by rw [← hn]; simp only [byteLength]; omega
    rw [hn, List.cons_append, dropBytes?, if_pos hle, hsub, ih]

theorem takeBytes?_append (s t : Text) : takeBytes? (byteLength s) (s ++ t) = some s := by
  induction s with
  | nil => exact takeBytes?_zero t
  | cons c s ih =>
    have hc := c.utf8Size_pos
    obtain ⟨n, hn⟩ : ∃ n, byteLength (c :: s) = n + 1 :=
      ⟨byteLength (c :: s) - 1, by simp only [byteLength]; omega⟩
    have hle : c.utf8Size ≤ n + 1 := by rw [← hn]; simp only [byteLength]; omega
    have hsub : n + 1 - c.utf8Size = byteLength s := by rw [← hn]; simp only [byteLength]; omega
    rw [hn, List.cons_append, takeBytes?, if_pos hle, hsub, ih, Option.map_some]

example : dropBytes? 2 ['é', 'x'] = some ['x'] ∧ dropBytes? 1 ['é', 'x'] = none := by decide

example : slice? ['a', '中', 'b'] 1 4 = some ['中'] ∧ slice? ['a'] 1 0 = none := by decide

end Text

end RecursiveDescent
