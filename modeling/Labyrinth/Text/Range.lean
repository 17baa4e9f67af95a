/-!
# Ranges of code points

Sets of characters are given by the first and last code point of each range of them.
`inRanges_append` says that sets given one after the other are joined.
-/

namespace Labyrinth.Text

/-- Whether a code point lies in one of some ranges. -/
def inRanges (ranges : List (Nat × Nat)) (n : Nat) : Bool :=
  ranges.any (fun r => r.1 ≤ n && n ≤ r.2)

theorem inRanges_append (r s : List (Nat × Nat)) (n : Nat) :
    inRanges (r ++ s) n = (inRanges r n || inRanges s n) := List.any_append

end Labyrinth.Text
