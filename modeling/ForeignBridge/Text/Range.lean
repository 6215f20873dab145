/-! # Ranges of characters

A character property beyond ASCII is given as an ascending table of code ranges, both ends included.
Membership is a plain scan, so that a statement about a table is a statement about its ranges. -/

namespace ForeignBridge.Text

/-- Code ranges with both ends included. -/
abbrev Ranges := List (Nat × Nat)

/-- The code of `c` lies in one of the ranges. -/
def Ranges.holds (ranges : Ranges) (c : Char) : Bool :=
  ranges.any fun r => r.1 ≤ c.toNat && c.toNat ≤ r.2

theorem Ranges.holds_iff {ranges : Ranges} {c : Char} :
    ranges.holds c = true ↔ ∃ r ∈ ranges, r.1 ≤ c.toNat ∧ c.toNat ≤ r.2 := by
  simp [Ranges.holds]

end ForeignBridge.Text
