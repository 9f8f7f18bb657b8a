import GoOutline.Text.Position
import GoOutline.Text.Utf8
import GoOutline.Syntax.Node

/-!
# Reading positions in a source

A cursor is what is left of the source together with the point where it starts. Between two tokens
there may be white space and comments; `Cursor.trivia` steps over them and keeps the comments.

## Main definitions

* `Cursor`: the rest of a source and where it starts
* `Cursor.advance`: the cursor some characters on
* `Cursor.trivia`: over white space and comments, on this line only or across lines
-/

namespace GoOutline.Syntax

open GoOutline.Text

/-- The rest of a source and the point where it starts. -/
structure Cursor where
  rest : List Char
  point : Point
  deriving DecidableEq, Repr, Inhabited

namespace Cursor

/-- The start of a source. A byte order mark there is stepped over. -/
def start : List Char → Cursor
  | '\uFEFF' :: rest => ⟨rest, ⟨0, 3⟩⟩
  | rest => ⟨rest, Point.origin⟩

/-- The cursor after `n` more characters. -/
def advance : Nat → Cursor → Cursor
  | n + 1, ⟨c :: rest, p⟩ => advance n ⟨rest, p.advance c (Utf8.width c)⟩
  | _, cursor => cursor

/-- The white space of the language between tokens. -/
def isSpace (c : Char) : Bool := c == ' ' || ('\t' ≤ c && c ≤ '\r')

/-- The length of a line comment whose two slashes have been read: up to the end of the line. -/
def lineCommentLength (rest : List Char) : Nat :=
  (rest.takeWhile fun c => c != '\n' && c != '\x00').length

/-- The number of characters up to and with the first star and slash, when they come. -/
def blockCommentLength : List Char → Option Nat
  | '*' :: '/' :: _ => some 2
  | c :: rest => if c == '\x00' then none else (blockCommentLength rest).map (· + 1)
  | [] => none

/-- The length of the comment that starts the text, if one does. -/
def commentLength : List Char → Option Nat
  | '/' :: '/' :: rest => some (2 + lineCommentLength rest)
  | '/' :: '*' :: rest => (blockCommentLength rest).map (2 + ·)
  | _ => none

/-- The next `n` characters as a leaf, and the cursor after them. -/
def leaf (cursor : Cursor) (kind : Kind) (n : Nat) : Node × Cursor :=
  let next := cursor.advance n
  (.leaf kind ⟨cursor.point, next.point⟩ (String.ofList (cursor.rest.take n)), next)

/-- Steps over white space and comments, with at most `fuel` steps, and collects the comments. With
`line` a line feed outside comments is not stepped over. -/
def triviaLoop (line : Bool) : Nat → Cursor → List Node × Cursor
  | 0, cursor => ([], cursor)
  | fuel + 1, cursor =>
    match cursor.rest with
    | [] => ([], cursor)
    | c :: _ =>
      if isSpace c && !(line && c == '\n') then triviaLoop line fuel (cursor.advance 1)
      else
        match commentLength cursor.rest with
        | none => ([], cursor)
        | some n =>
          let (comment, next) := cursor.leaf .comment n
          let (more, last) := triviaLoop line fuel next
          (comment :: more, last)

/-- The comments up to the next token, and the cursor there. With `line` a line feed counts as a
token. -/
def trivia (line : Bool) (cursor : Cursor) : List Node × Cursor :=
  triviaLoop line (cursor.rest.length + 1) cursor

/-- The text from the next token on. With `line` a line feed counts as a token. -/
def upcoming (line : Bool) (cursor : Cursor) : List Char := (cursor.trivia line).2.rest

end Cursor

end GoOutline.Syntax
