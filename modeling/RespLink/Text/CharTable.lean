/-!
# Tables of characters

A property of characters is given as a list of ranges of code points, both ends included, in
ascending order.
-/

namespace RespLink

abbrev CharTable := List (Nat × Nat)

/-- the ranges are ascending, so the search stops at the first one that ends at or after `n` -/
def CharTable.holds : CharTable → Nat → Bool
  | [], _ => false
  | (first, last) :: rest, n => if n ≤ last then decide (first ≤ n) else holds rest n

def CharTable.has (table : CharTable) (c : Char) : Bool := table.holds c.toNat

end RespLink
