/-
Sets of characters, given as closed ranges of code points.
-/

namespace StreamTable
namespace Text

/-- Whether a code point lies in one of the ranges, both ends included. -/
def inRanges (ranges : Array (Nat × Nat)) (n : Nat) : Bool :=
  ranges.any fun r => r.1 ≤ n && n ≤ r.2

end Text
end StreamTable
