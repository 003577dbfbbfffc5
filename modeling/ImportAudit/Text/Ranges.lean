/-!
# Tables of code point ranges

A character class beyond ASCII is a table of closed ranges of code points, in increasing order.
-/

namespace ImportAudit.Text

def inRanges (table : Array (Nat × Nat)) (n : Nat) : Bool :=
  table.any fun r => decide (r.1 ≤ n) && decide (n ≤ r.2)

end ImportAudit.Text
