import GoOutline.Decimal.Binary
import GoOutline.Decimal.Digits

/-!
# Doubles to a fixed number of places

The exact value of a double is rounded to a number of decimal places; a tie goes to the even
neighbour.

## Main definitions

* `roundDiv`: a quotient rounded to the nearest integer, ties to even
* `fixedPlaces`: the text of a double with a number of decimal places
-/

namespace GoOutline.Decimal

/-- The quotient rounded to the nearest natural number, a tie to the even one. -/
def roundDiv (n d : Nat) : Nat :=
  let below := n / d
  let rest := n % d
  if 2 * rest < d || (2 * rest == d && below % 2 == 0) then below else below + 1

/-- The text of a double rounded to a number of places. -/
def fixedPlaces (places : Nat) (x : Float) : List Char :=
  let sign := if Binary.isNegative x then ['-'] else []
  match Binary.ofFloat? x with
  | none => if x.isNaN then "NaN".toList else sign ++ "inf".toList
  | some b =>
    let (n, d) := b.fraction
    let scaled := roundDiv (n * Nat.pow 10 places) d
    let back := Decimal.digits (scaled % Nat.pow 10 places)
    sign ++ Decimal.digits (scaled / Nat.pow 10 places) ++
      (if places = 0 then [] else '.' :: (List.replicate (places - back.length) '0' ++ back))

end GoOutline.Decimal
