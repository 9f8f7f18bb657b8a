import GoOutline.Doc.Comment
import GoOutline.Syntax.Node

/-!
# Leading documentation

The documentation of a declaration is the run of comments that ends on the row above it, without a
gap between the comments. A comment that trails other code on its row belongs to that code, and
ends the run.

The siblings before a declaration are given nearest first.

## Main definitions

* `leadingComments`: the run, nearest first
* `leadingDoc`: its text
-/

namespace GoOutline.Doc

open GoOutline.Syntax GoOutline.Text

/-- The comment follows code on its row; `before` holds what stands before it, nearest first. -/
def trailsCode (comment : Node) (before : List Node) : Bool :=
  match before with
  | [] => false
  | b :: _ => !b.isComment && b.endRow == comment.startRow

/-- The comments directly above a row, nearest first, among siblings that are given nearest
first. -/
def leadingComments (row : Nat) : List Node → List Node
  | [] => []
  | c :: before =>
    if c.isComment && c.endRow + 1 == row && !trailsCode c before then
      c :: leadingComments c.startRow before
    else []

/-- The documentation text of some comments: nothing when it is blank. -/
def docText (comments : List Node) : Option String :=
  if comments.isEmpty then none
  else
    let text := Blank.trim (Comment.text (comments.map (·.text))).toList
    if text.isEmpty then none else some (String.ofList text)

/-- The documentation of a node, given its preceding siblings, nearest first. -/
def leadingDoc (before : List Node) (n : Node) : Option String :=
  docText (leadingComments n.startRow (Node.significant before)).reverse

end GoOutline.Doc
