/-!
# Tables of character ranges

A property of characters that a standard gives by listing code points is kept as a table of
strided ranges.

## Main definitions

* `RangeTable`: ranges `(first, last, stride)` of code points
* `RangeTable.contains`: membership of a character
-/

namespace GoOutline.Text

/-- Ranges of code points: `(first, last, stride)` stands for `first`, `first + stride`, … up to
`last`. -/
abbrev RangeTable := List (Nat × Nat × Nat)

namespace RangeTable

/-- A code point belongs to one strided range. -/
def rangeContains (code : Nat) : Nat × Nat × Nat → Bool
  | (first, last, stride) => first ≤ code && code ≤ last && (code - first) % stride == 0

/-- A character belongs to some range of the table. -/
def contains (table : RangeTable) (c : Char) : Bool :=
  table.any (rangeContains c.toNat)

end RangeTable

end GoOutline.Text
