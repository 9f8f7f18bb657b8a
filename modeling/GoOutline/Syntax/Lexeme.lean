import GoOutline.Text.Identifier
import GoOutline.Syntax.Kind

/-!
# Lexemes

Words, literals and operators, measured at the front of a text: each function says how many
characters the longest lexeme of its class takes there, or that none starts there.

## Main definitions

* `Lexeme.word`: an identifier or keyword
* `Lexeme.number?`: a numeric literal and its kind
* `Lexeme.string?`, `Lexeme.rune?`: string and rune literals
* `Lexeme.binaryOperator?`, `Lexeme.assignmentOperator?`: operators after an operand
* `Lexeme.canStart`: some token of the language starts with the character
-/

namespace GoOutline.Syntax.Lexeme

open GoOutline.Text

/-- The identifier or keyword at the front of a text, empty when none starts there. -/
def word : List Char → List Char
  | c :: rest => if Identifier.isStart c then c :: rest.takeWhile Identifier.isContinue else []
  | [] => []

/-! ## Numbers -/

/-- A decimal digit. -/
def isDecimal (c : Char) : Bool := '0' ≤ c && c ≤ '9'

/-- An octal digit. -/
def isOctal (c : Char) : Bool := '0' ≤ c && c ≤ '7'

/-- A binary digit. -/
def isBinary (c : Char) : Bool := c == '0' || c == '1'

/-- A hexadecimal digit. -/
def isHex (c : Char) : Bool := isDecimal c || ('a' ≤ c && c ≤ 'f') || ('A' ≤ c && c ≤ 'F')

/-- The length of more digits, each with at most one underscore before it. -/
def moreDigits (digit : Char → Bool) : List Char → Nat
  | '_' :: d :: rest => if digit d then 2 + moreDigits digit rest else 0
  | d :: rest => if digit d then 1 + moreDigits digit rest else 0
  | [] => 0

/-- The length of a digit and more digits. -/
def digits? (digit : Char → Bool) : List Char → Option Nat
  | d :: rest => if digit d then some (1 + moreDigits digit rest) else none
  | [] => none

/-- The length of digits with perhaps an underscore in front. -/
def paddedDigits? (digit : Char → Bool) : List Char → Option Nat
  | '_' :: rest => (digits? digit rest).map (1 + ·)
  | text => digits? digit text

/-- The length of an exponent whose mark is one of two letters. -/
def exponent? (lower upper : Char) : List Char → Option Nat
  | c :: rest =>
    if c == lower || c == upper then
      match rest with
      | s :: rest' =>
        if s == '+' || s == '-' then (digits? isDecimal rest').map (2 + ·)
        else (digits? isDecimal rest).map (1 + ·)
      | [] => none
    else none
  | [] => none

/-- The length of an integer literal. -/
def integer? : List Char → Option Nat
  | '0' :: c :: rest =>
    let based? :=
      if c == 'b' || c == 'B' then (paddedDigits? isBinary rest).map (2 + ·)
      else if c == 'x' || c == 'X' then (paddedDigits? isHex rest).map (2 + ·)
      else if c == 'o' || c == 'O' then (paddedDigits? isOctal rest).map (2 + ·)
      else (paddedDigits? isOctal (c :: rest)).map (1 + ·)
    -- without digits of its base the literal is the zero alone
    some (based?.getD 1)
  | c :: rest => if isDecimal c then some (1 + moreDigits isDecimal rest) else none
  | [] => none

/-- The length of a fraction and exponent after the digits before a point, the point included. -/
def fraction (mark : Char × Char) (digit : Char → Bool) : List Char → Nat × Option Nat
  | '.' :: rest =>
    let whole := 1 + (digits? digit rest).getD 0
    (whole, exponent? mark.1 mark.2 (rest.drop (whole - 1)))
  | text => (0, exponent? mark.1 mark.2 text)

/-- The length of a decimal literal with a point or an exponent. -/
def decimalFloat? (text : List Char) : Option Nat :=
  match digits? isDecimal text with
  | some n =>
    match fraction ('e', 'E') isDecimal (text.drop n) with
    -- digits without a point and an exponent are an integer
    | (0, exponent) => exponent.map (n + ·)
    | (m, exponent) => some (n + m + exponent.getD 0)
  | none =>
    match text with
    | '.' :: rest =>
      (digits? isDecimal rest).map fun n => 1 + n + (exponent? 'e' 'E' (rest.drop n)).getD 0
    | _ => none

/-- The length of a hexadecimal literal with an exponent. -/
def hexFloat? : List Char → Option Nat
  | '0' :: x :: rest =>
    if x == 'x' || x == 'X' then
      match paddedDigits? isHex rest with
      | some n =>
        let (m, exponent) := fraction ('p', 'P') isHex (rest.drop n)
        exponent.map (2 + n + m + ·)
      | none =>
        match rest with
        | '.' :: rest' =>
          (digits? isHex rest').bind fun n =>
            (exponent? 'p' 'P' (rest'.drop n)).map (3 + n + ·)
        | _ => none
    else none
  | _ => none

/-- The longer of two lengths, with its kind; the first wins a tie. -/
def longer : Option (Kind × Nat) → Option (Kind × Nat) → Option (Kind × Nat)
  | some (k, m), some (l, n) => if m < n then some (l, n) else some (k, m)
  | some x, none => some x
  | none, y => y

/-- The length of a literal of some digits when an `i` follows them, the `i` included. -/
def imaginary? (text : List Char) (length : Option Nat) : Option (Kind × Nat) :=
  length.bind fun n =>
    match text.drop n with
    | 'i' :: _ => some (.imaginaryLiteral, n + 1)
    | _ => none

/-- The kind and the length of a numeric literal: the longest reading wins. -/
def number? (text : List Char) : Option (Kind × Nat) :=
  let integer := integer? text
  let float := longer ((decimalFloat? text).map (.floatLiteral, ·))
    ((hexFloat? text).map (.floatLiteral, ·))
  -- before an `i`, digits are decimal even behind a zero
  let imaginary := longer (imaginary? text (digits? isDecimal text))
    (longer (imaginary? text integer) (imaginary? text (float.map (·.2))))
  longer (integer.map (.intLiteral, ·)) (longer float imaginary)

/-! ## Texts -/

/-- The length of what follows a backslash in a string. -/
def escape? : List Char → Option Nat
  | 'x' :: a :: b :: _ => if isHex a && isHex b then some 3 else none
  | 'u' :: rest => if (rest.take 4).length == 4 && (rest.take 4).all isHex then some 5 else none
  | 'U' :: rest => if (rest.take 8).length == 8 && (rest.take 8).all isHex then some 9 else none
  | c :: _ => if c == 'x' || c == '\x00' then none else some 1
  | [] => none

/-- The length of an interpreted string up to and with its closing quote, after `skip` characters
that an escape has claimed. -/
def interpreted? : Nat → List Char → Option Nat
  | _, [] => none
  | skip + 1, _ :: rest => (interpreted? skip rest).map (1 + ·)
  | 0, '"' :: _ => some 1
  | 0, '\\' :: rest => (escape? rest).bind fun n => (interpreted? n rest).map (1 + ·)
  | 0, c :: rest =>
    if c == '\n' || c == '\x00' then none else (interpreted? 0 rest).map (1 + ·)

/-- The quotation mark of raw strings. -/
def rawQuote : Char := '\x60'

/-- The length of a raw string up to and with its closing quote. -/
def raw? : List Char → Option Nat
  | [] => none
  | c :: rest =>
    if c == rawQuote then some 1 else if c == '\x00' then none else (raw? rest).map (1 + ·)

/-- The kind and the length of a string literal. -/
def string? : List Char → Option (Kind × Nat)
  | c :: rest =>
    if c == '"' then (interpreted? 0 rest).map (.interpretedStringLiteral, 1 + ·)
    else if c == rawQuote then (raw? rest).map (.rawStringLiteral, 1 + ·)
    else none
  | [] => none

/-- The quotation mark of runes. -/
def runeQuote : Char := '\x27'

/-- The length of what follows a backslash in a rune. -/
def runeEscape? : List Char → Option Nat
  | 'x' :: a :: b :: _ => if isHex a && isHex b then some 3 else none
  | 'u' :: rest => if (rest.take 4).length == 4 && (rest.take 4).all isHex then some 5 else none
  | 'U' :: rest => if (rest.take 8).length == 8 && (rest.take 8).all isHex then some 9 else none
  | c :: rest =>
    if isOctal c then
      if (rest.take 2).length == 2 && (rest.take 2).all isOctal then some 3 else none
    else if c ∈ ['a', 'b', 'f', 'n', 'r', 't', 'v', '\\', runeQuote, '"'] then some 1 else none
  | [] => none

/-- The length of a rune literal. -/
def rune? : List Char → Option Nat
  | q :: c :: rest =>
    if q != runeQuote then none
    else
      let body? := if c == '\\' then (runeEscape? rest).map (1 + ·)
        else if c == runeQuote || c == '\x00' then none else some 1
      body?.bind fun n =>
        match (c :: rest).drop n with
        | e :: _ => if e == runeQuote then some (n + 2) else none
        | [] => none
  | _ => none

/-! ## Operators -/

/-- The assignment operators, longer spellings before their prefixes. -/
def assignmentOperators : List String :=
  ["<<=", ">>=", "&^=", "*=", "/=", "%=", "&=", "+=", "-=", "|=", "^=", "="]

/-- The binary operators with their precedence, longer spellings before their prefixes. -/
def binaryOperators : List (String × Nat) :=
  [("<<", 5), (">>", 5), ("&^", 5), ("&&", 2), ("||", 1), ("==", 3), ("!=", 3), ("<=", 3),
    (">=", 3), ("*", 5), ("/", 5), ("%", 5), ("&", 5), ("+", 4), ("-", 4), ("|", 4), ("^", 4),
    ("<", 3), (">", 3)]

/-- The text starts with a spelling. -/
def startsWith (spelling : String) (text : List Char) : Bool := spelling.toList.isPrefixOf text

/-- The assignment operator at the front of a text. -/
def assignmentOperator? (text : List Char) : Option String :=
  if startsWith "==" text then none else assignmentOperators.find? (startsWith · text)

/-- The binary operator at the front of a text, with its precedence. In a `statement` the longer
operators that only statements have come first. -/
def binaryOperator? (statement : Bool) (text : List Char) : Option (String × Nat) :=
  if statement && ((assignmentOperator? text).isSome || startsWith "++" text ||
      startsWith "--" text || startsWith "<-" text) then none
  else binaryOperators.find? (startsWith ·.1 text)

/-- The operators in front of an operand. -/
def unaryOperator? (text : List Char) : Option String :=
  ["<-", "+", "-", "!", "^", "*", "&"].find? (startsWith · text)

/-- Some token starts with the character, or it is white space. -/
def canStart (c : Char) : Bool :=
  Identifier.isStart c || isDecimal c || c == ' ' || ('\t' ≤ c && c ≤ '\r') || c == '\x00' ||
    c == '"' || c == rawQuote || c == runeQuote ||
    c ∈ "+-*/%&|^<>=!()[]\x7b\x7d,;.:~".toList

end GoOutline.Syntax.Lexeme
