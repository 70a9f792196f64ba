/-!
Sets of characters as sorted tables of code ranges.
-/

namespace CallStudy

/-- Ranges of codes, both ends included, in ascending order. -/
abbrev RangeTable := Array (Nat × Nat)

namespace RangeTable

/-- Whether `code` lies in a range with an index from `low` on and below `high`. -/
def search (ranges : RangeTable) (code : Nat) : Nat → Nat → Nat → Bool
  | 0, _, _ => false
  | steps + 1, low, high =>
    if low < high then
      let middle := (low + high) / 2
      let range := ranges[middle]?.getD (0, 0)
      if code < range.1 then search ranges code steps low middle
      else if range.2 < code then search ranges code steps (middle + 1) high
      else true
    else false

/-- Whether a character is in the set; halving twenty times exhausts any such table. -/
def covers (ranges : RangeTable) (c : Char) : Bool := search ranges c.toNat 20 0 ranges.size

end RangeTable
end CallStudy
