/-! Membership in a table of code point ranges, the form in which character properties are kept. -/
namespace MultiCluster.Text

/-- Closed intervals of code points. -/
abbrev Ranges := List (Nat × Nat)

def Ranges.contains (table : Ranges) (c : Char) : Bool :=
  table.any fun r => decide (r.1 ≤ c.toNat) && decide (c.toNat ≤ r.2)

end MultiCluster.Text
