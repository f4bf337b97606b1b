/-!
# Sets of characters

A property of characters is kept as the ascending list of the code points at which membership
changes, the first one entering the set.
-/
namespace RecursiveDescent.Unicode

structure CharSet where
  changes : List Nat

namespace CharSet

/-- A character is in the set when an odd number of changes lies at or before it. -/
def mem (s : CharSet) (c : Char) : Bool :=
  (s.changes.takeWhile (· ≤ c.toNat)).length % 2 == 1

example : (CharSet.mk [0x30, 0x3A]).mem '0' ∧ (CharSet.mk [0x30, 0x3A]).mem '9' := by decide

example : ¬ (CharSet.mk [0x30, 0x3A]).mem '/' ∧ ¬ (CharSet.mk [0x30, 0x3A]).mem ':' := by decide

end CharSet

end RecursiveDescent.Unicode
