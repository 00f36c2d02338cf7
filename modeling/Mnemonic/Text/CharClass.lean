/-
Classes of characters given by ranges of code points. A class is data:
a list of closed ranges, looked up one by one, so that membership
evaluates and a class can be read off its table.
-/
namespace Mnemonic.Text

/-- A class of characters, as closed ranges of code points. -/
structure CharClass where
  ranges : List (Nat × Nat)

namespace CharClass

/-- Whether some range of the class covers the character. -/
def contains (k : CharClass) (c : Char) : Bool :=
  k.ranges.any fun r => decide (r.1 ≤ c.toNat) && decide (c.toNat ≤ r.2)

/-- How many code points the class covers, if its ranges are apart. -/
def size (k : CharClass) : Nat :=
  k.ranges.foldl (fun n r => n + (r.2 + 1 - r.1)) 0

/-- A class contains a character exactly if one of its ranges does. -/
theorem contains_iff {k : CharClass} {c : Char} :
    k.contains c = true ↔ ∃ r ∈ k.ranges, r.1 ≤ c.toNat ∧ c.toNat ≤ r.2 := by
  simp [contains]

end CharClass

end Mnemonic.Text
