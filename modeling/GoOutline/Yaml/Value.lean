import GoOutline.Decimal.Shortest
import GoOutline.Text.Quoted
import GoOutline.Yaml.Basic

/-!
# What plain texts stand for

A plain text may stand for nothing, a truth value or a number. Any other text stands for itself.

## Main definitions

* `Yaml.Value`, `Yaml.Value.ofPlain`: the value of a plain text
* `Yaml.Node.description`: what a node is, as said in messages
-/

namespace GoOutline.Yaml

/-- What a text stands for. -/
inductive Value where
  | null
  | bool (b : Bool)
  | int (i : Int)
  | float (x : Float)
  | text (s : String)
  deriving Repr, Inhabited

namespace Value

/-- The plain texts for nothing. -/
def isNull (s : String) : Bool := ["", "null", "Null", "NULL", "~"].contains s

/-- The truth value that a plain text stands for. -/
def bool? (s : String) : Option Bool :=
  if ["true", "True", "TRUE"].contains s then some true
  else if ["false", "False", "FALSE"].contains s then some false
  else none

/-- The value of a digit in bases up to sixteen. -/
def digit? (base : Nat) (c : Char) : Option Nat :=
  let d :=
    if '0' ≤ c && c ≤ '9' then c.toNat - 48
    else if 'a' ≤ c && c ≤ 'f' then c.toNat - 87
    else if 'A' ≤ c && c ≤ 'F' then c.toNat - 55
    else base
  if d < base then some d else none

/-- The number that digits spell in a base. -/
def natural? (base : Nat) (digits : List Char) : Option Nat :=
  if digits.isEmpty then none
  else digits.foldlM (fun n c => (digit? base c).map (base * n + ·)) 0

/-- Digits with zeros in front of them, which do not spell a number. -/
def isPadded : List Char → Bool
  | '0' :: d :: rest => (d :: rest).all Char.isDigit
  | _ => false

/-- The number that a text without sign spells, in any of the four bases. -/
def magnitude? : List Char → Option Nat
  | '0' :: 'x' :: digits => natural? 16 digits
  | '0' :: 'o' :: digits => natural? 8 digits
  | '0' :: 'b' :: digits => natural? 2 digits
  | digits => if isPadded digits then none else natural? 10 digits

/-- The integer that a plain text spells. -/
def int? : List Char → Option Int
  | '+' :: rest => (magnitude? rest).map Int.ofNat
  | '-' :: rest => (magnitude? rest).map fun n => -Int.ofNat n
  | rest => (magnitude? rest).map Int.ofNat

/-- The power of ten behind the mark of an exponent. -/
def exponent? : List Char → Option Int
  | '+' :: rest => (natural? 10 rest).map Int.ofNat
  | '-' :: rest => (natural? 10 rest).map fun n => -Int.ofNat n
  | rest => (natural? 10 rest).map Int.ofNat

/-- The double of a decimal with a power of ten. -/
def scaled (digits : Nat) (e : Int) : Float :=
  if e < 0 then Float.ofScientific digits true e.natAbs
  else Float.ofScientific digits false e.natAbs

/-- The double that a decimal without sign spells. -/
def decimal? (s : List Char) : Option Float := do
  let whole := s.takeWhile Char.isDigit
  let rest := s.dropWhile Char.isDigit
  let (fraction, rest) :=
    match rest with
    | '.' :: rest => (rest.takeWhile Char.isDigit, rest.dropWhile Char.isDigit)
    | rest => ([], rest)
  let digits ← natural? 10 (whole ++ fraction)
  let e ←
    match rest with
    | [] => some 0
    | c :: rest => if c == 'e' || c == 'E' then exponent? rest else none
  let x := scaled digits (e - fraction.length)
  if x.isInf then none else some x

/-- The double that a plain text spells. -/
def float? (s : List Char) : Option Float :=
  let text := String.ofList s
  if [".inf", ".Inf", ".INF", "+.inf", "+.Inf", "+.INF"].contains text then some (1.0 / 0.0)
  else if ["-.inf", "-.Inf", "-.INF"].contains text then some (-1.0 / 0.0)
  else if [".nan", ".NaN", ".NAN"].contains text then some (0.0 / 0.0)
  else
    match s with
    | '+' :: rest => decimal? rest
    | '-' :: rest => (decimal? rest).map (-·)
    | rest => decimal? rest

/-- A sign followed by padded digits. -/
def isPaddedNumber : List Char → Bool
  | '+' :: rest => isPadded rest
  | '-' :: rest => isPadded rest
  | rest => isPadded rest

/-- The value of a plain text. -/
def ofPlain (s : String) : Value :=
  if isNull s then .null
  else
    match bool? s with
    | some b => .bool b
    | none =>
      match int? s.toList with
      | some i => .int i
      | none =>
        if isPaddedNumber s.toList then .text s
        else
          match float? s.toList with
          | some x => .float x
          | none => .text s

/-- Doubles are written with all their digits and always with a point. -/
def floatFormat : Decimal.FloatFormat where
  plainFrom := -400
  plainBelow := 400
  positiveMark := "e"
  negativeMark := "e-"
  notFinite := ""

/-- The text of a double. -/
def floatText (x : Float) : String :=
  if x.isNaN then "NaN"
  else if x.isInf then (if x < 0.0 then "-inf" else "inf")
  else String.ofList (floatFormat.render x)

/-- The largest integer that is not said to need more than 64 bits. -/
def maxInteger : Int := 18446744073709551615

/-- The smallest integer that is not said to need more than 64 bits. -/
def minInteger : Int := -9223372036854775808

/-- A value as said in messages. Integers beyond 64 bits are said to be so. -/
def description : Value → String
  | .null => "unit value"
  | .bool b => "boolean \x60" ++ (if b then "true" else "false") ++ "\x60"
  | .int i =>
    let size :=
      if maxInteger < i then " as u128" else if i < minInteger then " as i128" else ""
    "integer \x60" ++ toString i ++ "\x60" ++ size
  | .float x => "floating point \x60" ++ floatText x ++ "\x60"
  | .text s => "string " ++ Text.Quoted.quote s

end Value

namespace Node

/-- The value of a scalar. -/
def value? : Node → Option Value
  | .scalar _ true text => some (.ofPlain text)
  | .scalar _ false text => some (.text text)
  | _ => none

/-- A node as said in messages. -/
def description (n : Node) : String :=
  match n, n.value? with
  | _, some v => v.description
  | .sequence .., none => "sequence"
  | _, none => "map"

end Node

end GoOutline.Yaml
