import GoOutline.Text.Printable

/-!
# Quoted texts

How a text is quoted in a message: in double quotes, with everything escaped that could not be told
apart from its surroundings or could not be seen.

## Main definitions

* `Quoted.escapeChar`: a character between quotes
* `Quoted.quote`, `Quoted.quotePath`: a quoted text or path
-/

namespace GoOutline.Text.Quoted

/-- The hexadecimal digits of a number, most significant first. -/
def hexDigits (n : Nat) : List Char := Nat.toDigits 16 n

/-- A character by its code point. -/
def codeEscape (c : Char) : List Char :=
  ['\\', 'u', '{'] ++ hexDigits c.toNat ++ ['}']

/-- A character between quotes. -/
def escapeChar (c : Char) : List Char :=
  if c = '\x00' then ['\\', '0']
  else if c = '\t' then ['\\', 't']
  else if c = '\r' then ['\\', 'r']
  else if c = '\n' then ['\\', 'n']
  else if c = '"' then ['\\', '"']
  else if c = '\\' then ['\\', '\\']
  else if Printable.isExtending c || !Printable.isPrintable c then codeEscape c
  else [c]

/-- The text in quotes. -/
def quote (s : String) : String := String.ofList ('"' :: (s.toList.flatMap escapeChar ++ ['"']))

/-- A character of a path between quotes: apostrophes are escaped as well. -/
def escapePathChar (c : Char) : List Char := if c = '\'' then ['\\', '\''] else escapeChar c

/-- The path in quotes. -/
def quotePath (s : String) : String :=
  String.ofList ('"' :: (s.toList.flatMap escapePathChar ++ ['"']))

end GoOutline.Text.Quoted
