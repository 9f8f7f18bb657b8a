import GoOutline.Decimal.Binary
import GoOutline.Decimal.Digits

/-!
# Shortest decimals of doubles

The decimal text of a double has the fewest digits that still read back as the same double, and of
those the digits nearest to it. The candidates on a decimal grid are the two neighbours of the
value, and they read back when they lie in the interval of numbers that round to the double.

## Main definitions

* `Scientific`: digits and a power of ten
* `Scientific.shortest`: the shortest form of a magnitude
* `FloatFormat`: the decisions of a written form, and `FloatFormat.render`
-/

namespace GoOutline.Decimal

/-- The number `digits * 10 ^ exponent`. -/
structure Scientific where
  digits : Nat
  exponent : Int
  deriving DecidableEq, Repr, Inhabited

namespace Scientific

/-- `n / d` scaled by a power of ten, as a numerator and a denominator. -/
def timesTenTo (n d : Nat) (e : Int) : Nat × Nat :=
  if e < 0 then (n, d * Nat.pow 10 e.natAbs) else (n * Nat.pow 10 e.natAbs, d)

/-- The exponent of the leading decimal digit of a positive fraction. -/
def leadingExponent (n d : Nat) : Int :=
  if d ≤ n then (Decimal.length (n / d) : Int) - 1
  else
    let k := Decimal.length (d / n)
    if d ≤ n * Nat.pow 10 (k - 1) then -((k : Int) - 1) else -(k : Int)

/-- The candidates with a number of digits for the magnitude `b`, nearer first: the neighbours of
the value on the grid of that many digits. -/
def candidates (b : Binary) (count : Nat) : List Scientific :=
  let (n, d) := b.fraction
  let exponent := leadingExponent n d - ((count : Int) - 1)
  let (n, d) := timesTenTo n d (-exponent)
  let below := n / d
  let rest := n % d
  let nearerBelow := 2 * rest < d || (2 * rest == d && below % 2 == 0)
  let low : Scientific := ⟨below, exponent⟩
  let high : Scientific := ⟨below + 1, exponent⟩
  if nearerBelow then [low, high] else [high, low]

/-- The candidate rounds to the magnitude: it lies between the midpoints to the neighbouring
doubles, the midpoints included when the mantissa is even. -/
def readsBack (b : Binary) (s : Scientific) : Bool :=
  let (n, d) := timesTenTo s.digits 1 s.exponent
  let quarter := b.exponent - 2
  let (lowN, lowD) := Binary.scaled (4 * b.mantissa - if b.isBoundary then 1 else 2) quarter
  let (highN, highD) := Binary.scaled (4 * b.mantissa + 2) quarter
  if b.mantissa % 2 == 0 then lowN * d ≤ n * lowD && n * highD ≤ highN * d
  else lowN * d < n * lowD && n * highD < highN * d

/-- Moves trailing zeros of the digits into the exponent. -/
def normalize : Nat → Scientific → Scientific
  | 0, s => s
  | fuel + 1, s =>
    if s.digits % 10 = 0 && s.digits ≠ 0 then normalize fuel ⟨s.digits / 10, s.exponent + 1⟩ else s

/-- The first candidate that reads back, from a number of digits on. -/
def search (b : Binary) (count : Nat) : Nat → Scientific
  | 0 => ((candidates b count).head?).getD ⟨0, 0⟩
  | fuel + 1 =>
    match (candidates b count).find? (readsBack b) with
    | some s => s
    | none => search b (count + 1) fuel

/-- The shortest decimal that reads back as the magnitude. -/
def shortest (b : Binary) : Scientific :=
  if b.mantissa = 0 then ⟨0, 0⟩ else normalize 20 (search b 1 16)

end Scientific

/-- How a double is written. -/
structure FloatFormat where
  /-- The least exponent of the leading digit that is written without an exponent mark. -/
  plainFrom : Int
  /-- The least exponent of the leading digit, above that range, that is written with a mark. -/
  plainBelow : Int
  /-- What stands between the digits and a positive exponent. -/
  positiveMark : String
  /-- What stands between the digits and the magnitude of a negative exponent. -/
  negativeMark : String
  /-- What is written for numbers that are not finite. -/
  notFinite : String

namespace FloatFormat

/-- The digits with a point after the first `whole` of them. A missing part is written as a
zero. -/
def pointed (ds : List Char) (whole : Nat) : List Char :=
  let front := ds.take whole ++ List.replicate (whole - ds.length) '0'
  let back := ds.drop whole
  front ++ '.' :: (if back.isEmpty then ['0'] else back)

/-- A decimal in the format. -/
def renderScientific (f : FloatFormat) (s : Scientific) : List Char :=
  let ds := Decimal.digits s.digits
  let lead := s.exponent + (ds.length : Int) - 1
  if f.plainFrom ≤ lead && lead < f.plainBelow then
    if lead < 0 then "0.".toList ++ List.replicate (lead.natAbs - 1) '0' ++ ds
    else pointed ds (lead.toNat + 1)
  else
    let mantissa := if ds.length = 1 then ds else ds.take 1 ++ '.' :: ds.drop 1
    let mark := if lead < 0 then f.negativeMark else f.positiveMark
    mantissa ++ mark.toList ++ Decimal.digits lead.natAbs

/-- The text of a double in the format. -/
def render (f : FloatFormat) (x : Float) : List Char :=
  match Binary.ofFloat? x with
  | none => f.notFinite.toList
  | some b =>
    let sign := if Binary.isNegative x then ['-'] else []
    sign ++ f.renderScientific (Scientific.shortest b)

end FloatFormat

end GoOutline.Decimal
