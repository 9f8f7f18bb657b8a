import GoOutline.Text.Position
import Mathlib.Data.Prod.Lex

/-!
# The order of positions

Points are ordered as they are met in the text. A reported position is a pair of a line and a
column; such pairs are compared lexicographically, and reporting keeps the order of points.

## Main definitions

* `Point.reported`: a point as a pair of a line and a column, both counted from one
* `Location.start`, `Location.stop`: the two ends of a location
* `Location.IsWithin`, `Location.IsApart`: a location inside another, and two that do not overlap

## Main results

* `Point.reported_le_reported_iff`: reporting keeps the order
-/

namespace GoOutline.Text

namespace Point

theorem le_iff {p q : Point} : p ≤ q ↔ p.row < q.row ∨ p.row = q.row ∧ p.column ≤ q.column :=
  Iff.rfl

instance : Preorder Point where
  le_refl p := le_iff.2 (.inr ⟨rfl, Nat.le_refl _⟩)
  le_trans p q r hpq hqr := by
    rw [le_iff] at hpq hqr ⊢
    omega

theorem row_le_row {p q : Point} (h : p ≤ q) : p.row ≤ q.row := by
  rw [le_iff] at h
  omega

/-- A character leads on in the text. -/
theorem le_advance (p : Point) (c : Char) (width : Nat) : p ≤ p.advance c width := by
  unfold advance
  split
  · exact .inl (Nat.lt_succ_self p.row)
  · exact .inr ⟨rfl, Nat.le_add_right ..⟩

/-- The line and the column of a point, both counted from one. Such pairs are ordered by their
lines, and by their columns on one line. -/
def reported (p : Point) : ℕ ×ₗ ℕ := toLex (p.row + 1, p.column + 1)

/-- Reporting points keeps their order. -/
theorem reported_le_reported_iff {p q : Point} : p.reported ≤ q.reported ↔ p ≤ q := by
  rw [reported, reported, Prod.Lex.toLex_le_toLex, le_iff]
  simp only [Nat.add_lt_add_iff_right, Nat.add_right_cancel_iff, Nat.add_le_add_iff_right]

end Point

namespace Location

/-- Where a location starts: its line and its column. -/
def start (l : Location) : ℕ ×ₗ ℕ := toLex (l.startLine, l.startColumn)

/-- Where a location ends. -/
def stop (l : Location) : ℕ ×ₗ ℕ := toLex (l.endLine, l.endColumn)

/-- One location lies inside another. -/
def IsWithin (l outer : Location) : Prop := outer.start ≤ l.start ∧ l.stop ≤ outer.stop

/-- Two locations do not overlap: one of them ends before the other starts. -/
def IsApart (l m : Location) : Prop := l.stop ≤ m.start ∨ m.stop ≤ l.start

theorem IsApart.symm {l m : Location} (h : l.IsApart m) : m.IsApart l := Or.symm h

end Location

end GoOutline.Text
