/-!
Tables of code points as closed ranges.
-/

namespace DocFilter.Text

/-- The code point lies in one of the closed ranges. -/
def inRanges (ranges : List (Nat × Nat)) (code : Nat) : Bool :=
  ranges.any fun (first, last) => first ≤ code && code ≤ last

end DocFilter.Text
