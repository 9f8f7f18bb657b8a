import GoOutline.Doc.Leading
import GoOutline.Syntax.TreeCursor

/-!
# Visiting a tree

The walk meets the nodes of a tree in reading order, each with the siblings before it. It does not
go into type and import declarations, whose parts are read where the declaration is met.

## Main definitions

* `Visit`: a node and its preceding siblings
* `Visit.ofSiblings`: the visits to a run of siblings
* `Visit.descends`: the walk goes on into the node
* `TreeCursor.following?`: the place that the walk takes up next
* `walk`: a fold over the visits, driven by a cursor

## Main results

* `TreeCursor.remaining_following?`: every step of the walk leaves fewer nodes
-/

namespace GoOutline

open GoOutline.Syntax

/-- A node and the siblings before it, nearest first. -/
structure Visit where
  before : List Node
  node : Node
  deriving Repr, Inhabited

namespace Visit

/-- The visits to a run of siblings, given those before it, nearest first. -/
def ofSiblings (before : List Node) : List Node → List Visit
  | [] => []
  | n :: rest => ⟨before, n⟩ :: ofSiblings (n :: before) rest

/-- The visits to the children of a node. -/
def children (n : Node) : List Visit := ofSiblings [] n.children

/-- The documentation above the visited node. -/
def doc (v : Visit) : Option String := Doc.leadingDoc v.before v.node

@[simp] theorem map_node_ofSiblings (before ns : List Node) :
    (ofSiblings before ns).map (·.node) = ns := by
  induction ns generalizing before with
  | nil => rfl
  | cons n rest ih => simp [ofSiblings, ih]

/-- The walk goes on into the node. -/
def descends (n : Node) : Bool := n.kind != .typeDeclaration && n.kind != .importDeclaration

end Visit

namespace Syntax.TreeCursor

/-- The visit to the node under the cursor. -/
def visit (c : TreeCursor) : Visit := ⟨c.level.before, c.level.node⟩

/-- The place that the walk takes up next: the first child, where the walk goes on into the node and
there is one, and what lies onward otherwise. -/
def following? (c : TreeCursor) : Option TreeCursor :=
  match if Visit.descends c.node then c.firstChild? else none with
  | some inner => some inner
  | none => c.onward?

/-- Every step of the walk leaves fewer nodes. -/
theorem remaining_following? {c d : TreeCursor} (h : c.following? = some d) :
    d.remaining < c.remaining := by
  unfold following? at h
  split at h
  · next inner hinner =>
    cases h
    split at hinner
    · exact remaining_firstChild? hinner
    · cases hinner
  · exact remaining_onward? h

end Syntax.TreeCursor

/-- Takes up the visits one by one, from the cursor to the end of the tree. -/
def walk {σ : Type} (step : σ → Visit → σ) (c : TreeCursor) (s : σ) : σ :=
  match h : c.following? with
  | some next =>
    have := TreeCursor.remaining_following? h
    walk step next (step s c.visit)
  | none => step s c.visit
termination_by c.remaining

/-- The walk over a whole tree. -/
def walkTree {σ : Type} (step : σ → Visit → σ) (root : Node) (s : σ) : σ :=
  walk step (.ofRoot root) s

end GoOutline
