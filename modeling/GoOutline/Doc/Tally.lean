/-!
# Documentation coverage

A running count of declared symbols and of those with documentation.

## Main definitions

* `Tally`: the counts
* `Tally.record`: one more symbol
* `percentage`: the share of one count in another, as a percentage
-/

namespace GoOutline.Doc

/-- Declared symbols and documented ones. -/
structure Tally where
  documented : Nat := 0
  total : Nat := 0
  deriving DecidableEq, Repr, Inhabited

/-- The share of `part` in `whole` as a percentage, zero of nothing. -/
def percentage (part whole : Nat) : Float :=
  if whole = 0 then 0.0 else part.toFloat / whole.toFloat * 100.0

namespace Tally

/-- Counts one symbol with its documentation. -/
def record (t : Tally) (doc : Option String) : Tally where
  documented := if doc.isSome then t.documented + 1 else t.documented
  total := t.total + 1

/-- The documented share as a percentage. -/
def coverage (t : Tally) : Float := percentage t.documented t.total

end Tally

end GoOutline.Doc
