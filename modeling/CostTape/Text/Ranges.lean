/-! Sets of characters given by ascending ranges of code points. -/

namespace CostTape.Text

/-- Ascending, disjoint, inclusive ranges. -/
abbrev CodeRanges := Array (Nat × Nat)

namespace CodeRanges

private def containsBetween (ranges : CodeRanges) (code : Nat) :
    Nat → Nat → Nat → Bool
  | 0, _, _ => false
  | steps + 1, low, high =>
      if low < high then
        let middle := (low + high) / 2
        match ranges[middle]? with
        | none => false
        | some (first, last) =>
            if code < first then containsBetween ranges code steps low middle
            else if last < code then
              containsBetween ranges code steps (middle + 1) high
            else true
      else
        false

/-- Membership by halving; the search never needs more steps than there are
ranges. -/
def contains (ranges : CodeRanges) (char : Char) : Bool :=
  containsBetween ranges char.toNat (ranges.size + 1) 0 ranges.size

end CodeRanges

end CostTape.Text
