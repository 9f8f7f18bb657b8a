import GoOutline.Syntax.Node

/-!
# Places in a tree

A tree cursor stands on a node and knows the way back: the siblings around the node, and the same
for each node above it, up to the one that the cursor was set on. It moves to the first child, to
the next sibling and to the parent. Each move fails where there is no such node, and the node that
the cursor was set on has neither siblings nor a parent.

## Main definitions

* `Level`: a node among its siblings
* `TreeCursor`, `TreeCursor.ofRoot`: a place in a tree, and the place at its root
* `TreeCursor.firstChild?`, `TreeCursor.nextSibling?`, `TreeCursor.parent?`: the moves
* `TreeCursor.onward?`: past the node and everything below it
* `TreeCursor.remaining`: the nodes from the cursor on, in reading order

## Main results

* `TreeCursor.remaining_firstChild?`, `TreeCursor.remaining_onward?`: moving down and moving onward
  leave fewer nodes
-/

namespace GoOutline.Syntax

/-- A node among its siblings; those before it are given nearest first. -/
structure Level where
  before : List Node
  node : Node
  after : List Node
  deriving Repr, Inhabited

/-- A place in a tree: the node there, and the levels above it, innermost first. -/
structure TreeCursor where
  level : Level
  above : List Level
  deriving Repr, Inhabited

namespace TreeCursor

/-- The cursor on the root of a tree. -/
def ofRoot (root : Node) : TreeCursor := ⟨⟨[], root, []⟩, []⟩

/-- The node under the cursor. -/
def node (c : TreeCursor) : Node := c.level.node

/-- The first child of the node. -/
def firstChild? (c : TreeCursor) : Option TreeCursor :=
  match c.node.children with
  | [] => none
  | n :: rest => some ⟨⟨[], n, rest⟩, c.level :: c.above⟩

/-- The next sibling of the node. -/
def nextSibling? (c : TreeCursor) : Option TreeCursor :=
  match c.level.after with
  | [] => none
  | n :: rest => some ⟨⟨c.level.node :: c.level.before, n, rest⟩, c.above⟩

/-- The parent of the node. -/
def parent? (c : TreeCursor) : Option TreeCursor :=
  match c.above with
  | [] => none
  | up :: rest => some ⟨up, rest⟩

theorem length_above_parent? {c d : TreeCursor} (h : c.parent? = some d) :
    d.above.length < c.above.length := by
  obtain ⟨level, _ | ⟨up, rest⟩⟩ := c
  · cases h
  · cases h
    simp

/-- The next sibling of the node, or of the nearest node above it that has one. -/
def onward? (c : TreeCursor) : Option TreeCursor :=
  match c.nextSibling? with
  | some next => some next
  | none =>
    match h : c.parent? with
    | some up =>
      have := length_above_parent? h
      up.onward?
    | none => none
termination_by c.above.length

/-! ## The nodes that remain -/

/-- The number of nodes after the levels and below what stands after them. -/
def pendingAbove : List Level → Nat
  | [] => 0
  | level :: rest => Node.sizeAll level.after + pendingAbove rest

/-- The number of nodes from the cursor on, in reading order: the node with everything below it, and
what comes after it on its own level and on those above. -/
def remaining (c : TreeCursor) : Nat :=
  c.node.size + Node.sizeAll c.level.after + pendingAbove c.above

theorem remaining_firstChild? {c d : TreeCursor} (h : c.firstChild? = some d) :
    d.remaining < c.remaining := by
  obtain ⟨⟨before, ⟨head, _ | ⟨n, rest⟩⟩, after⟩, above⟩ := c
  · cases h
  · cases h
    simp only [remaining, node, pendingAbove, Node.size, Node.sizeAll]
    omega

theorem remaining_nextSibling? {c d : TreeCursor} (h : c.nextSibling? = some d) :
    d.remaining + c.node.size = c.remaining := by
  obtain ⟨⟨before, n, _ | ⟨next, rest⟩⟩, above⟩ := c
  · cases h
  · cases h
    simp only [remaining, node, Node.sizeAll]
    omega

/-- Up and past the parent there is no more than what came after the node before. -/
theorem remaining_parent? {c d : TreeCursor} (h : c.parent? = some d) :
    d.remaining + c.node.size ≤ c.remaining + d.node.size := by
  obtain ⟨⟨before, n, after⟩, _ | ⟨up, rest⟩⟩ := c
  · cases h
  · cases h
    simp only [remaining, node, pendingAbove]
    omega

theorem size_pos (n : Node) : 0 < n.size := by
  cases n
  simp [Node.size]

theorem remaining_onward?_add {c d : TreeCursor} (h : c.onward? = some d) :
    d.remaining + c.node.size ≤ c.remaining := by
  fun_induction onward? c with
  | case1 c next hnext =>
    cases h
    exact Nat.le_of_eq (remaining_nextSibling? hnext)
  | case2 c _ up hup _ ih =>
    have hd := ih h
    have hc := remaining_parent? hup
    omega
  | case3 => cases h

theorem remaining_onward? {c d : TreeCursor} (h : c.onward? = some d) :
    d.remaining < c.remaining := by
  have hd := remaining_onward?_add h
  have hpos := size_pos c.node
  omega

end TreeCursor

end GoOutline.Syntax
