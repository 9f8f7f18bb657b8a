/-!
# Positions in a source

A point is a row and a column, both counted from zero, with columns in bytes. A span runs from a
point to the point just past its end. What is reported to a reader is a `Location`, which counts
from one.

## Main definitions

* `Point`, `Span`: where a piece of source stands
* `Point.advance`: the point after a character
* `bytePosition`: the row and column, counted from one, of an offset into bytes
* `Location`: a span as reported
-/

namespace GoOutline.Text

/-- A row and a column, counted from zero; the column counts bytes. -/
structure Point where
  row : Nat
  column : Nat
  deriving DecidableEq, Repr, Inhabited

/-- From a point up to the point just past the end. -/
structure Span where
  start : Point
  stop : Point
  deriving DecidableEq, Repr, Inhabited

namespace Point

/-- The first point of a source. -/
def origin : Point := ⟨0, 0⟩

/-- Points in reading order. -/
def before (p q : Point) : Prop := p.row < q.row ∨ (p.row = q.row ∧ p.column ≤ q.column)

/-- Points are ordered as they are met in the text. -/
instance : LE Point := ⟨before⟩

instance (p q : Point) : Decidable (p ≤ q) :=
  inferInstanceAs (Decidable (p.row < q.row ∨ (p.row = q.row ∧ p.column ≤ q.column)))

/-- The point after a character of the given number of bytes that stands at `p`. -/
def advance (p : Point) (c : Char) (width : Nat) : Point :=
  if c = '\n' then ⟨p.row + 1, 0⟩ else ⟨p.row, p.column + width⟩

end Point

/-- The line feed, as a byte. -/
def newlineByte : UInt8 := 10

/-- The line and the column, both counted from one, of an offset into a byte sequence: the line is
one more than the line feeds before the offset, the column one more than the bytes since the last of
them. An offset past the end stands at the end. -/
def bytePosition (source : List UInt8) (offset : Nat) : Nat × Nat :=
  let before := source.take offset
  (before.count newlineByte + 1, (before.reverse.takeWhile (· != newlineByte)).length + 1)

/-- A span as it is reported: lines and columns from one, the end just past the last byte. -/
structure Location where
  startLine : Nat
  startColumn : Nat
  endLine : Nat
  endColumn : Nat
  deriving DecidableEq, Repr, Inhabited

/-- The reported form of a span. -/
def Location.ofSpan (s : Span) : Location where
  startLine := s.start.row + 1
  startColumn := s.start.column + 1
  endLine := s.stop.row + 1
  endColumn := s.stop.column + 1

end GoOutline.Text
