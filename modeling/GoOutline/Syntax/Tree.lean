import GoOutline.Syntax.Grammar.File

/-!
# The syntax tree of a source

Every text has a tree. When the text is a file of the language, the tree holds its declarations;
otherwise it holds one fault: the token that the text lacks, or the stretch of it that fits
nowhere.

## Main definitions

* `Tree.ofSource`: the tree of a text
* `Tree.firstFault?`: the search for the first fault of a tree
* `Tree.hasPackageClause`: some child of the root is a package clause
-/

namespace GoOutline.Syntax.Tree

open GoOutline.Text

/-- The length of a run of characters that start no token, and of the blanks between them. Blanks at
its end do not belong to it. -/
def strayLength : List Char → Nat
  | [] => 0
  | c :: rest =>
    if c != '\n' && Cursor.isSpace c then
      match strayLength rest with
      | 0 => 0
      | n + 1 => n + 2
    else if Lexeme.canStart c then 0
    else 1 + strayLength rest

/-- The length of the piece of text that is reported when a reading stops at it: a run of characters
that start no token, a whole word, or one character. -/
def offendingLength (text : List Char) : Nat :=
  max (strayLength text) (max (text.take 1).length (Lexeme.word text).length)

/-- The fault that a failed reading leaves in the tree. -/
def faultOf (failure : Failure) : Node :=
  match failure.due with
  | some (spelling, point) => .missing spelling point
  | none => (failure.cursor.leaf .error (offendingLength failure.cursor.rest)).1

/-- The kinds of construct that need no terminator at the end of a file. -/
def isTopLevelOnly : Kind → Bool
  | .packageClause | .importDeclaration | .functionDeclaration | .methodDeclaration => true
  | _ => false

/-- The longest lone statement, in bytes, that a file may not consist of without a terminator. -/
def loneStatementLimit : Nat := 10

/-- The file is nothing but one short statement without a terminator. Such a fragment counts as a
fault as a whole. -/
def isFragment : List Node → Bool
  | [n] =>
    !isTopLevelOnly n.kind && !n.isComment && n.startRow == n.endRow &&
      n.span.stop.column - n.span.start.column < loneStatementLimit
  | _ => false

/-- The root over the children of a file. -/
def root (start stop : Point) (children : List Node) : Node :=
  .mk ⟨.sourceFile, none, ⟨start, stop⟩, "", false⟩ children

/-- The tree of a text. -/
def ofSource (source : List Char) : Node :=
  let start := Cursor.start source
  let stop := start.advance start.rest.length
  root start.point stop.point <|
    match fileRule start with
    | .ok (items, _) =>
      if isFragment items then
        let (_, first) := start.trivia false
        [(first.leaf .error first.rest.length).1]
      else items
    | .error failure => [faultOf failure]

mutual

/-- The first fault that is found in a tree. Nothing is looked for below a node without the mark
that a tree with a fault has. -/
def firstFault? (marked : Node → Bool) : Node → Option Node
  | .mk head children =>
    if (Node.mk head children).isFault then some (.mk head children)
    else if marked (.mk head children) then firstFaultIn? marked children
    else none

/-- The first fault that is found in some trees, one tree after the other. -/
def firstFaultIn? (marked : Node → Bool) : List Node → Option Node
  | [] => none
  | n :: rest => (firstFault? marked n).or (firstFaultIn? marked rest)

end

/-- Some child of the root is a package clause. -/
def hasPackageClause (root : Node) : Bool := root.children.any (·.kind == .packageClause)

end GoOutline.Syntax.Tree
