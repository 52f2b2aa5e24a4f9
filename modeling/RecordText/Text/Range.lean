/-!
# Character ranges

A character class beyond the first 128 code points is given by a table of
closed code point ranges. This module decides membership in such a table.
-/

namespace RecordText.Text

/-- A table of closed code point ranges, in increasing order. -/
abbrev RangeTable := List (Nat × Nat)

/-- Whether some range of the table holds the code point of `c`. -/
def RangeTable.covers (table : RangeTable) (c : Char) : Bool :=
  table.any fun range => range.1 ≤ c.toNat && c.toNat ≤ range.2

theorem RangeTable.covers_iff (table : RangeTable) (c : Char) :
    table.covers c = true ↔ ∃ range ∈ table, range.1 ≤ c.toNat ∧ c.toNat ≤ range.2 := by
  simp [RangeTable.covers]

end RecordText.Text
