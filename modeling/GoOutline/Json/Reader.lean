import GoOutline.Json.Basic
import GoOutline.Decimal.Digits

/-!
# Reading JSON text

A value is read off the front of a text, with blanks allowed around every token. An integer that
fits 64 bits stays an integer; any other number becomes a double, worked out from its leading
digits and a power of ten. The members of an object are put in key order, and of several with one
key the last counts.

## Main definitions

* `Json.Reader.number?`, `Json.Reader.string?`: the leaves
* `Json.Reader.value?`: a value at the front of a text
* `Json.parse?`: a text that is one value
-/

namespace GoOutline.Json

namespace Reader

/-- The blanks between tokens. -/
def isBlank (c : Char) : Bool := c == ' ' || c == '\n' || c == '\t' || c == '\r'

/-- The text from its first token on. -/
def skipBlanks (cs : List Char) : List Char := cs.dropWhile isBlank

/-! ## Numbers -/

/-- The largest significand that is kept exactly. -/
def maxSignificand : Nat := Nat.pow 2 64 - 1

/-- Adds the digits at the front of a text to a significand as long as it fits 64 bits; also says
how many were added. -/
def significand (sig : Nat) : List Char → Nat × Nat × List Char
  | [] => (sig, 0, [])
  | c :: rest =>
    if Decimal.isDigit c && 10 * sig + Decimal.digitValue c ≤ maxSignificand then
      let (s, k, r) := significand (10 * sig + Decimal.digitValue c) rest
      (s, k + 1, r)
    else (sig, 0, c :: rest)

/-- Steps over the digits at the front of a text and counts them. -/
def skipDigits (cs : List Char) : Nat × List Char :=
  ((cs.takeWhile Decimal.isDigit).length, cs.dropWhile Decimal.isDigit)

/-- The largest power of ten that a double is scaled by in one step. -/
def maxPower : Nat := 308

/-- A double times or divided by a power of ten, taken in steps when the power is too small for one.
Nothing when the result is too large. -/
def scale : Nat → Float → Int → Option Float
  | 0, x, _ => some x
  | steps + 1, x, e =>
    if e.natAbs ≤ maxPower then
      let power := Float.ofScientific 1 false e.natAbs
      if e < 0 then some (x / power)
      else if (x * power).isInf then none else some (x * power)
    else if x == 0.0 then some x
    else if e < 0 then scale steps (x / Float.ofScientific 1 false maxPower) (e + maxPower)
    else none

/-- The double of a sign, a significand and a power of ten. -/
def floatOf (negative : Bool) (sig : Nat) (e : Int) : Option Number :=
  (scale 8 sig.toFloat e).map fun x => .float (if negative then -x else x)

/-- The exponent that the digits at the front of a text spell behind a sign. -/
def exponentDigits? (negative : Bool) (cs : List Char) : Option (Int × List Char) :=
  let ds := cs.takeWhile Decimal.isDigit
  if ds.isEmpty then none
  else
    let e : Int := Decimal.value ds
    some (if negative then -e else e, cs.dropWhile Decimal.isDigit)

/-- The exponent after its mark, and the text after it. -/
def exponent? : List Char → Option (Int × List Char)
  | '+' :: rest => exponentDigits? false rest
  | '-' :: rest => exponentDigits? true rest
  | rest => exponentDigits? false rest

/-- The rest of a number with a power of ten gathered so far: perhaps an exponent. -/
def withExponent (negative : Bool) (sig : Nat) (e : Int) (cs : List Char) :
    Option (Number × List Char) :=
  match cs with
  | c :: rest =>
    if c == 'e' || c == 'E' then do
      let (more, rest) ← exponent? rest
      let x ← floatOf negative sig (e + more)
      return (x, rest)
    else (floatOf negative sig e).map (·, c :: rest)
  | [] => (floatOf negative sig e).map (·, [])

/-- The rest of a number after its point. -/
def withFraction (negative : Bool) (sig : Nat) (e : Int) (cs : List Char) :
    Option (Number × List Char) :=
  let (sig, k, cs) := significand sig cs
  let (skipped, cs) := skipDigits cs
  if k + skipped = 0 then none else withExponent negative sig (e - k) cs

/-- An integer with its sign: a double when it does not fit 64 bits, or is zero with a minus. -/
def integer (negative : Bool) (sig : Nat) : Number :=
  if !negative then .int sig
  else if sig = 0 || sig > Nat.pow 2 63 then .float (-sig.toFloat)
  else .int (-(sig : Int))

/-- The rest of a number after its whole part, of which `skipped` digits did not fit. -/
def afterWhole (negative : Bool) (sig skipped : Nat) : List Char → Option (Number × List Char)
  | '.' :: rest => withFraction negative sig skipped rest
  | c :: rest =>
    if c == 'e' || c == 'E' || skipped > 0 then withExponent negative sig skipped (c :: rest)
    else some (integer negative sig, c :: rest)
  | [] =>
    if skipped > 0 then withExponent negative sig skipped []
    else some (integer negative sig, [])

/-- A number without its sign. -/
def unsigned? (negative : Bool) (cs : List Char) : Option (Number × List Char) :=
  let (sig, k, rest) := significand 0 cs
  let (skipped, rest) := skipDigits rest
  -- there must be a digit, and no other one behind a zero in front
  if k = 0 || (cs.head? == some '0' && k + skipped > 1) then none
  else afterWhole negative sig skipped rest

/-- A number at the front of a text. -/
def number? : List Char → Option (Number × List Char)
  | '-' :: rest => unsigned? true rest
  | cs => unsigned? false cs

/-! ## Strings -/

/-- The value of a hexadecimal digit. -/
def hexValue? (c : Char) : Option Nat :=
  if Decimal.isDigit c then some (c.toNat - 48)
  else if 'a' ≤ c && c ≤ 'f' then some (c.toNat - 87)
  else if 'A' ≤ c && c ≤ 'F' then some (c.toNat - 55)
  else none

/-- The number that four hexadecimal digits spell. -/
def hexCode? (a b c d : Char) : Option Nat := do
  return ((← hexValue? a) * 16 + (← hexValue? b)) * 256 + (← hexValue? c) * 16 + (← hexValue? d)

/-- The character after a backslash, for the escapes of one letter. -/
def simpleEscape? (c : Char) : Option Char :=
  if c = '"' then some '"'
  else if c = '\\' then some '\\'
  else if c = '/' then some '/'
  else if c = 'b' then some (Char.ofNat 8)
  else if c = 'f' then some (Char.ofNat 12)
  else if c = 'n' then some '\n'
  else if c = 'r' then some '\r'
  else if c = 't' then some '\t'
  else none

/-- The characters of a string after its opening quote, and the text after its closing one. -/
def string? : List Char → Option (List Char × List Char)
  | [] => none
  | '"' :: rest => some ([], rest)
  | '\\' :: 'u' :: a :: b :: c :: d :: rest =>
    match hexCode? a b c d with
    | none => none
    | some code =>
      if 0xD800 ≤ code && code < 0xDC00 then
        match rest with
        -- the first half of a pair of surrogates needs the second one behind it
        | '\\' :: 'u' :: e :: f :: g :: h :: rest =>
          match hexCode? e f g h with
          | none => none
          | some low =>
            if 0xDC00 ≤ low && low < 0xE000 then
              let full := 0x10000 + (code - 0xD800) * 0x400 + (low - 0xDC00)
              (string? rest).map fun (s, r) => (Char.ofNat full :: s, r)
            else none
        | _ => none
      else if 0xDC00 ≤ code && code < 0xE000 then none
      else (string? rest).map fun (s, r) => (Char.ofNat code :: s, r)
  | '\\' :: e :: rest =>
    match simpleEscape? e with
    | none => none
    | some c => (string? rest).map fun (s, r) => (c :: s, r)
  | c :: rest =>
    if c.toNat < 32 || c == '\\' then none
    else (string? rest).map fun (s, r) => (c :: s, r)

/-! ## Values -/

mutual

/-- A value at the front of a text and the text after it, nested at most `depth` deep. -/
def value? : Nat → List Char → Option (Json × List Char)
  | 0, _ => none
  | depth + 1, cs =>
    match skipBlanks cs with
    | 'n' :: 'u' :: 'l' :: 'l' :: rest => some (.null, rest)
    | 't' :: 'r' :: 'u' :: 'e' :: rest => some (.bool true, rest)
    | 'f' :: 'a' :: 'l' :: 's' :: 'e' :: rest => some (.bool false, rest)
    | '"' :: rest => (string? rest).map fun (s, r) => (.string (String.ofList s), r)
    | '[' :: rest =>
      match skipBlanks rest with
      | ']' :: rest => some (.array [], rest)
      | _ => (items? depth rest).map fun (vs, r) => (.array vs, r)
    | '{' :: rest =>
      match skipBlanks rest with
      | '}' :: rest => some (.object [], rest)
      | _ => (members? depth rest).map fun (ms, r) => (.object (sortMembers ms), r)
    | rest => (number? rest).map fun (n, r) => (.number n, r)

/-- The items of an array up to its closing bracket. -/
def items? : Nat → List Char → Option (List Json × List Char)
  | 0, _ => none
  | depth + 1, cs =>
    match value? depth cs with
    | none => none
    | some (v, rest) =>
      match skipBlanks rest with
      | ',' :: rest => (items? depth rest).map fun (vs, r) => (v :: vs, r)
      | ']' :: rest => some ([v], rest)
      | _ => none

/-- The members of an object up to its closing brace. -/
def members? : Nat → List Char → Option (List (String × Json) × List Char)
  | 0, _ => none
  | depth + 1, cs =>
    match skipBlanks cs with
    | '"' :: rest =>
      match string? rest with
      | none => none
      | some (key, rest) =>
        match skipBlanks rest with
        | ':' :: rest =>
          match value? depth rest with
          | none => none
          | some (v, rest) =>
            match skipBlanks rest with
            | ',' :: rest =>
              (members? depth rest).map fun (ms, r) => ((String.ofList key, v) :: ms, r)
            | '}' :: rest => some ([(String.ofList key, v)], rest)
            | _ => none
        | _ => none
    | _ => none

end

end Reader

/-- The value of a text that is one value, with blanks around it. -/
def parse? (text : String) : Option Json :=
  let cs := text.toList
  match Reader.value? (cs.length + 1) cs with
  | some (v, rest) => if (Reader.skipBlanks rest).isEmpty then some v else none
  | none => none

end GoOutline.Json
