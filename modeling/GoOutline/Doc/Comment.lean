import GoOutline.Text.Blank

/-!
# The text of comments

A documentation text is made of comments with their markers taken off: directives to tools are
dropped, lines lose their trailing blanks, and runs of empty lines shrink to one, with none at
either end.

## Main definitions

* `Comment.isDirective`: a line comment addressed to a tool
* `Comment.lines`: the lines of one comment
* `Comment.tidy`: lines without superfluous blanks
* `Comment.text`: the text of some comments
-/

namespace GoOutline.Doc.Comment

open GoOutline.Text

/-- The openings of directives that have no colon. -/
def directiveOpenings : List String := ["line ", "extern ", "export "]

/-- A lower-case letter or a digit of the directive form. -/
def isTagChar (c : Char) : Bool := ('a' ≤ c && c ≤ 'z') || ('0' ≤ c && c ≤ '9')

/-- Some tag characters, a colon and another tag character stand at the front. -/
def hasTag (body : List Char) : Bool :=
  !(body.takeWhile isTagChar).isEmpty &&
    (match body.dropWhile isTagChar with
    | ':' :: c :: _ => isTagChar c
    | _ => false)

/-- The body of a line comment is a directive. -/
def isDirective (body : List Char) : Bool :=
  directiveOpenings.any (·.toList.isPrefixOf body) || hasTag body

/-- The pieces of a text between its line feeds. -/
def splitLines : List Char → List (List Char)
  | [] => [[]]
  | c :: rest =>
    if c = '\n' then [] :: splitLines rest
    else
      match splitLines rest with
      | first :: more => (c :: first) :: more
      | [] => [[c]]

/-- The body of a block comment without its closing mark, when it has one. -/
def withoutClosing (body : List Char) : List Char :=
  match body.reverse with
  | '/' :: '*' :: rest => rest.reverse
  | _ => body

/-- The lines of one comment. -/
def lines : List Char → List (List Char)
  | '/' :: '/' :: ' ' :: body => [body]
  | '/' :: '/' :: body => if isDirective body then [] else [body]
  | '/' :: '*' :: body => splitLines (withoutClosing body)
  | _ => []

/-- Lines without trailing blanks, without empty lines at the ends and with one empty line between
the paragraphs. `started` says that a line has been kept before, `pending` that an empty line is
due before the next. -/
def tidy (started pending : Bool) : List (List Char) → List (List Char)
  | [] => []
  | line :: rest =>
    let line := Blank.trimEnd line
    if line.isEmpty then tidy started started rest
    else if pending then [] :: line :: tidy true false rest
    else line :: tidy true false rest

/-- Lines joined by line feeds. -/
def joinLines (ls : List (List Char)) : List Char := List.intercalate ['\n'] ls

/-- The text of some comments. -/
def text (comments : List String) : String :=
  String.ofList (joinLines (tidy false false (comments.flatMap fun c => lines c.toList)))

end GoOutline.Doc.Comment
