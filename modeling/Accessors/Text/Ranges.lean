/-!
Membership in a table of character ranges that are sorted and do not overlap, by halving the table.
-/

namespace Accessors.Text

/-- Looks between two places of the table. The counter bounds the number of halvings. -/
def inRangesBetween (table : Array (Nat × Nat)) (n : Nat) : Nat → Nat → Nat → Bool
  | 0, _, _ => false
  | steps + 1, low, high =>
      if low < high then
        let middle := (low + high) / 2
        match table[middle]? with
        | none => false
        | some (first, last) =>
            if n < first then inRangesBetween table n steps low middle
            else if last < n then inRangesBetween table n steps (middle + 1) high
            else true
      else false

/-- Whether `n` lies in one of the ranges. -/
def inRanges (table : Array (Nat × Nat)) (n : Nat) : Bool :=
  inRangesBetween table n (table.size.log2 + 2) 0 table.size

end Accessors.Text
