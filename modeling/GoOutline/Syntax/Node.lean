import GoOutline.Text.Position
import GoOutline.Syntax.Kind

/-!
# Syntax trees

A node carries its kind, the role it plays in its parent, its span, its text when it is a leaf, and
its children in source order. Comments are children like any other: a comment belongs to the
innermost node that has other parts on both sides of it, so no node starts or ends with one.

## Main definitions

* `Node`: the trees
* `Node.leaf`, `Node.missing`, `Node.enclose`: building nodes
* `Node.child?`, `Node.childrenWith`: children by role
* `Node.isFault`, `Node.hasFault`: faults, and the trees that hold one
* `Node.significant`: the siblings that matter to what stands around them
-/

namespace GoOutline.Syntax

open GoOutline.Text

/-- What a node is apart from its children. -/
structure Head where
  kind : Kind
  role : Option Role := none
  span : Span
  /-- The source of a leaf; empty on a node with children. -/
  text : String := ""
  /-- The node stands for a token that the source lacks. -/
  isMissing : Bool := false
  deriving DecidableEq, Repr, Inhabited

/-- A syntax tree. -/
inductive Node where
  | mk (head : Head) (children : List Node)
  deriving Repr, Inhabited

namespace Node

mutual

/-- Whether two trees are equal. -/
def decEq : (m n : Node) → Decidable (m = n)
  | .mk head children, .mk head' children' =>
    have := decEqAll children children'
    decidable_of_decidable_of_iff (p := head = head' ∧ children = children') (by simp)

/-- Whether two runs of trees are equal. -/
def decEqAll : (ms ns : List Node) → Decidable (ms = ns)
  | [], [] => isTrue rfl
  | [], _ :: _ => isFalse nofun
  | _ :: _, [] => isFalse nofun
  | m :: ms, n :: ns =>
    have := decEq m n
    have := decEqAll ms ns
    decidable_of_decidable_of_iff (p := m = n ∧ ms = ns) (by simp)

end

instance : DecidableEq Node := decEq

/-- What a node is, apart from its children. -/
def head : Node → Head
  | .mk head _ => head

/-- The children in source order, tokens and comments included. -/
def children : Node → List Node
  | .mk _ children => children

/-- The kind of a node. -/
def kind (n : Node) : Kind := n.head.kind

/-- The role of a node in its parent. -/
def role (n : Node) : Option Role := n.head.role

/-- The stretch of text that a node covers. -/
def span (n : Node) : Span := n.head.span

/-- The source of a leaf; empty on a node with children. -/
def text (n : Node) : String := n.head.text

/-- The node stands for a token that the text lacks. -/
def isMissing (n : Node) : Bool := n.head.isMissing

/-- The node has a kind of its own, unlike punctuation and keywords. -/
def isNamed (n : Node) : Bool := n.kind.isNamed

/-- The node is a comment. -/
def isComment (n : Node) : Bool := n.kind == .comment

/-- The node marks a place where the source is not well formed. -/
def isFault (n : Node) : Bool := n.kind == .error || n.isMissing

mutual

/-- The node or something below it is a fault. -/
def hasFault : Node → Bool
  | .mk head children => (Node.mk head children).isFault || hasFaultIn children

/-- One of the trees holds a fault. -/
def hasFaultIn : List Node → Bool
  | [] => false
  | n :: rest => hasFault n || hasFaultIn rest

end

mutual

/-- The number of nodes in the tree. -/
def size : Node → Nat
  | .mk _ children => sizeAll children + 1

/-- The number of nodes in some trees. -/
def sizeAll : List Node → Nat
  | [] => 0
  | n :: rest => size n + sizeAll rest

end

/-- The row on which the node starts. -/
def startRow (n : Node) : Nat := n.span.start.row

/-- The row on which the node ends. -/
def endRow (n : Node) : Nat := n.span.stop.row

/-! ## Building -/

/-- A node without children. -/
def leaf (kind : Kind) (span : Span) (text : String) : Node :=
  .mk ⟨kind, none, span, text, false⟩ []

/-- A token that the source lacks at a point. -/
def missing (spelling : String) (p : Point) : Node :=
  .mk ⟨.token spelling, none, ⟨p, p⟩, "", true⟩ []

/-- The same node in another role. -/
def withRole (r : Role) : Node → Node
  | .mk head children => .mk { head with role := some r } children

/-- Gives a role to the nodes of a run that are not comments. -/
def labelled (r : Role) (parts : List Node) : List Node :=
  parts.map fun n => if n.isComment then n else n.withRole r

/-- The span from the first of some nodes to the last. -/
def spanOf (first : Node) (rest : List Node) : Span :=
  ⟨first.span.start, ((first :: rest).getLast (List.cons_ne_nil first rest)).span.stop⟩

/-- One node around the parts of a construct. Comments in front of the first part stay outside, in
front of the new node. -/
def enclose (kind : Kind) (parts : List Node) : List Node :=
  parts.takeWhile isComment ++
    match parts.dropWhile isComment with
    | [] => []
    | first :: rest => [.mk ⟨kind, none, spanOf first rest, "", false⟩ (first :: rest)]

/-! ## Children by role -/

/-- The first child in a role. -/
def child? (n : Node) (r : Role) : Option Node := n.children.find? (·.role == some r)

/-- All children in a role. -/
def childrenWith (n : Node) (r : Role) : List Node := n.children.filter (·.role == some r)

/-- The named children: all but the bare tokens. -/
def namedChildren (n : Node) : List Node := n.children.filter isNamed

/-! ## Siblings -/

/-- The siblings without the tokens that end statements. -/
def significant (siblings : List Node) : List Node := siblings.filter (!·.kind.isTerminator)

end Node

end GoOutline.Syntax
