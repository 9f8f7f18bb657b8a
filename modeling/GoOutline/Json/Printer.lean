import GoOutline.Json.Basic
import GoOutline.Decimal.Shortest

/-!
# JSON text

Values are written in one of two layouts: on a single line without blanks, or with every member and
item on a line of its own, indented by two spaces a level.

## Main definitions

* `Json.Text.escapeChar`, `Json.Text.quoted`: strings
* `Json.Text.floatFormat`: doubles
* `Json.chars`, `Json.render`: whole values
-/

namespace GoOutline.Json

namespace Text

/-- The digits of a hexadecimal escape. -/
def hexDigit (d : Nat) : Char := if d < 10 then Char.ofNat (48 + d) else Char.ofNat (87 + d)

/-- A character inside a string literal. Quotes, backslashes and control characters are escaped. -/
def escapeChar (c : Char) : List Char :=
  if c = '"' then ['\\', '"']
  else if c = '\\' then ['\\', '\\']
  else if c = '\n' then ['\\', 'n']
  else if c = '\r' then ['\\', 'r']
  else if c = '\t' then ['\\', 't']
  else if c.toNat = 8 then ['\\', 'b']
  else if c.toNat = 12 then ['\\', 'f']
  else if c.toNat < 32 then
    ['\\', 'u', '0', '0', hexDigit (c.toNat / 16), hexDigit (c.toNat % 16)]
  else [c]

/-- A string literal. -/
def quoted (s : String) : List Char := '"' :: (s.toList.flatMap escapeChar ++ ['"'])

/-- Doubles always have a point or an exponent; the exponent has its sign, and is used from
`1e+16` up and below `1e-5`. -/
def floatFormat : Decimal.FloatFormat where
  plainFrom := -5
  plainBelow := 16
  positiveMark := "e+"
  negativeMark := "e-"
  notFinite := "null"

/-- A number. -/
def numeral : Number → List Char
  | .int i => if i < 0 then '-' :: Decimal.digits i.natAbs else Decimal.digits i.natAbs
  | .float x => floatFormat.render x

/-- The break before an item at a depth: a new line with indentation, when the layout has them. -/
def lineBreak (indented : Bool) (depth : Nat) : List Char :=
  if indented then '\n' :: List.replicate (2 * depth) ' ' else []

/-- What stands between a key and its value. -/
def colon (indented : Bool) : List Char := if indented then [':', ' '] else [':']

end Text

open Text

mutual

/-- The text of a value at a depth of nesting. -/
def chars (indented : Bool) (depth : Nat) : Json → List Char
  | .null => "null".toList
  | .bool b => if b then "true".toList else "false".toList
  | .number n => numeral n
  | .string s => quoted s
  | .array [] => ['[', ']']
  | .array (item :: items) =>
    '[' :: (lineBreak indented (depth + 1) ++ chars indented (depth + 1) item ++
      moreItems indented depth items)
  | .object [] => ['{', '}']
  | .object (member :: members) =>
    '{' :: (lineBreak indented (depth + 1) ++ memberChars indented (depth + 1) member ++
      moreMembers indented depth members)

/-- The items of an array after its first, and its closing bracket. -/
def moreItems (indented : Bool) (depth : Nat) : List Json → List Char
  | [] => lineBreak indented depth ++ [']']
  | item :: items =>
    ',' :: (lineBreak indented (depth + 1) ++ chars indented (depth + 1) item ++
      moreItems indented depth items)

/-- A member of an object. -/
def memberChars (indented : Bool) (depth : Nat) : String × Json → List Char
  | (key, value) => quoted key ++ colon indented ++ chars indented depth value

/-- The members of an object after its first, and its closing brace. -/
def moreMembers (indented : Bool) (depth : Nat) : List (String × Json) → List Char
  | [] => lineBreak indented depth ++ ['}']
  | member :: members =>
    ',' :: (lineBreak indented (depth + 1) ++ memberChars indented (depth + 1) member ++
      moreMembers indented depth members)

end

/-- The text of a value, on one line or indented. -/
def render (indented : Bool) (v : Json) : String := String.ofList (v.chars indented 0)

end GoOutline.Json
