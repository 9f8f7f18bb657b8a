import GoOutline.Outline.Visit
import Mathlib.Data.List.Basic
import Mathlib.Order.Basic

/-!
# The walk in reading order

The walk is a loop over a cursor. What it does is said here by recursion on the tree: a node comes
first, then everything below its children, one child after the other, and type and import
declarations have nothing below them. A second description is by addresses: an address is the way
down from the root, and addresses in lexicographic order are nodes in reading order.

## Main definitions

* `Visit.preorder`: the visits of the walk, by recursion on the tree
* `TreeCursor.ahead`: the visits that a cursor has before it
* `Visit.at?`: the visit at an address
* `Visit.IsReached`: there is a node at the address, and none strictly above it is a type or import
  declaration
* `Visit.reached`: the addresses of the visits of the walk

## Main results

* `walkTree_eq_foldl`: the walk is the fold over the visits in reading order
* `map_at?_reached`, `pairwise_reached`, `mem_reached_iff`: these visits are those at the reached
  addresses, each once, in lexicographic order
-/

namespace GoOutline

open GoOutline.Syntax

/-! ## The visits by recursion -/

namespace Visit

mutual

/-- The visits to a node and to everything below it, given the siblings before it. -/
def under (before : List Node) : Node → List Visit
  | .mk head children =>
    ⟨before, .mk head children⟩ ::
      if descends (.mk head children) then underAll [] children else []

/-- The visits to a run of siblings and to everything below them, given those before the run. -/
def underAll (before : List Node) : List Node → List Visit
  | [] => []
  | n :: rest => under before n ++ underAll (n :: before) rest

end

/-- The visits to a tree, in reading order. -/
def preorder (root : Node) : List Visit := under [] root

/-- A visit goes below a node when the walk descends into it. -/
theorem under_eq (before : List Node) (n : Node) :
    under before n = ⟨before, n⟩ :: if descends n then underAll [] n.children else [] := by
  cases n
  rw [under]
  rfl

@[simp] theorem underAll_nil (before : List Node) : underAll before [] = [] := by
  rw [underAll]

/-- The visits below siblings are those of the first and those of the others, which have it behind
them. -/
theorem underAll_cons (before : List Node) (n : Node) (rest : List Node) :
    underAll before (n :: rest) = under before n ++ underAll (n :: before) rest := by
  rw [underAll]

/-- The siblings themselves are visited. -/
theorem ofSiblings_subset_underAll (before ns : List Node) :
    ofSiblings before ns ⊆ underAll before ns := by
  induction ns generalizing before with
  | nil => exact List.nil_subset _
  | cons n rest ih =>
    rw [ofSiblings, underAll_cons, under_eq]
    refine List.cons_subset.2 ⟨List.mem_cons_self, fun v hv => ?_⟩
    exact List.mem_append_right _ (ih (n :: before) hv)

/-- The walk visits the children of a node that it goes on into. -/
theorem children_subset_preorder {root : Node} (h : descends root) :
    children root ⊆ preorder root := by
  intro v hv
  rw [preorder, under_eq, if_pos h]
  exact List.mem_cons_of_mem _ (ofSiblings_subset_underAll [] root.children hv)

end Visit

/-! ## The cursor -/

namespace Syntax.TreeCursor

open Visit

/-- The visits after a node on its level. -/
def beyondLevel (level : Level) : List Visit := underAll (level.node :: level.before) level.after

/-- The visits past the node under the cursor and everything below it. -/
def beyond (c : TreeCursor) : List Visit := beyondLevel c.level ++ c.above.flatMap beyondLevel

/-- The visits that the cursor has before it, the one to its own node included. -/
def ahead (c : TreeCursor) : List Visit := under c.level.before c.node ++ c.beyond

/-- What is beyond a cursor is what is ahead of its next sibling. -/
theorem beyond_of_nextSibling? {c d : TreeCursor} (h : c.nextSibling? = some d) :
    c.beyond = d.ahead := by
  obtain ⟨⟨before, n, _ | ⟨next, rest⟩⟩, above⟩ := c
  · cases h
  · cases h
    simp only [beyond, beyondLevel, ahead, node, underAll_cons, List.append_assoc]

/-- Without a next sibling it is what is beyond the levels above. -/
theorem beyond_of_nextSibling?_none {c : TreeCursor} (h : c.nextSibling? = none) :
    c.beyond = c.above.flatMap beyondLevel := by
  obtain ⟨⟨before, n, _ | ⟨next, rest⟩⟩, above⟩ := c
  · simp only [beyond, beyondLevel, underAll_nil, List.nil_append]
  · cases h

/-- Onward lie the visits past the node. -/
theorem beyond_eq (c : TreeCursor) : c.beyond = (c.onward?.map ahead).getD [] := by
  fun_induction onward? c with
  | case1 c next hnext => exact beyond_of_nextSibling? hnext
  | case2 c hnext up hup _ ih =>
    rw [← ih, beyond_of_nextSibling?_none hnext]
    obtain ⟨level, _ | ⟨first, rest⟩⟩ := c
    · cases hup
    · cases hup
      rfl
  | case3 c hnext hup =>
    rw [beyond_of_nextSibling?_none hnext]
    obtain ⟨level, _ | ⟨first, rest⟩⟩ := c
    · rfl
    · cases hup

/-- Ahead of a cursor is its node and what is ahead of the first child. -/
theorem ahead_of_firstChild? {c d : TreeCursor} (hc : descends c.node)
    (h : c.firstChild? = some d) : c.ahead = c.visit :: d.ahead := by
  obtain ⟨⟨before, ⟨head, _ | ⟨n, rest⟩⟩, after⟩, above⟩ := c
  · cases h
  · cases h
    simp only [ahead, node] at hc ⊢
    rw [under_eq, if_pos hc]
    simp [beyond, beyondLevel, visit, Node.children, underAll_cons]

theorem under_of_firstChild?_none {c : TreeCursor}
    (h : (if descends c.node then c.firstChild? else none) = none) :
    under c.level.before c.node = [c.visit] := by
  rw [under_eq]
  split at h
  · obtain ⟨⟨before, ⟨head, _ | ⟨n, rest⟩⟩, after⟩, above⟩ := c
    · simp [node, Node.children, visit]
    · cases h
  · next hc =>
    rw [if_neg hc]
    rfl

/-- **One step of the walk** takes the first of the visits ahead and leaves the others. -/
theorem ahead_eq (c : TreeCursor) : c.ahead = c.visit :: (c.following?.map ahead).getD [] := by
  unfold following?
  split
  · next inner hinner =>
    -- into the node: its first child starts what is left
    split at hinner
    · next hc => exact ahead_of_firstChild? hc hinner
    · cases hinner
  · next hnone =>
    -- past the node: it has no visits below it
    rw [ahead, under_of_firstChild?_none hnone, beyond_eq]
    rfl

end Syntax.TreeCursor

/-- **The walk is a fold** over the visits that the cursor has before it. -/
theorem walk_eq_foldl {σ : Type} (step : σ → Visit → σ) (c : TreeCursor) (s : σ) :
    walk step c s = c.ahead.foldl step s := by
  fun_induction walk step c s with
  | case1 c s next hnext _ ih =>
    rw [ih, c.ahead_eq, hnext]
    rfl
  | case2 c s hnone =>
    rw [c.ahead_eq, hnone]
    rfl

/-- Everything is ahead of a cursor at the root. -/
theorem ahead_ofRoot (root : Node) : (TreeCursor.ofRoot root).ahead = Visit.preorder root := by
  simp [TreeCursor.ahead, TreeCursor.beyond, TreeCursor.beyondLevel, TreeCursor.ofRoot,
    TreeCursor.node, Visit.preorder]

/-- The walk over a tree is a fold over its visits in reading order. -/
theorem walkTree_eq_foldl {σ : Type} (step : σ → Visit → σ) (root : Node) (s : σ) :
    walkTree step root s = (Visit.preorder root).foldl step s := by
  rw [walkTree, walk_eq_foldl, ahead_ofRoot]

/-! ## The visits by address -/

/-- The way down from a root: which child to take at each step, counted from zero. Addresses are
ordered lexicographically, so a node comes before those below it. -/
abbrev Address := List Nat

namespace Visit

/-- The visit at an address, counted from a visit. -/
def at? (v : Visit) : Address → Option Visit
  | [] => some v
  | i :: rest => (children v.node)[i]?.bind (at? · rest)

/-- There is a node at the address, and none of the nodes strictly above it is a type or import
declaration. -/
def IsReached (v : Visit) (a : Address) : Prop :=
  (v.at? a).isSome ∧ ∀ b, b <+: a → b ≠ a → ∀ w, v.at? b = some w →
    w.node.kind ≠ .typeDeclaration ∧ w.node.kind ≠ .importDeclaration

mutual

/-- The addresses below a node that the walk comes to, in the order in which it does. -/
def reached : Node → List Address
  | .mk head children =>
    [] :: if descends (.mk head children) then reachedAll 0 children else []

/-- The addresses below a run of siblings, the first of which is child number `i`. -/
def reachedAll (i : Nat) : List Node → List Address
  | [] => []
  | n :: rest => (reached n).map (i :: ·) ++ reachedAll (i + 1) rest

end

/-- Only type and import declarations are not descended into. -/
theorem descends_iff (n : Node) :
    descends n ↔ n.kind ≠ .typeDeclaration ∧ n.kind ≠ .importDeclaration := by
  simp [descends]

theorem ofSiblings_append (before xs ys : List Node) :
    ofSiblings before (xs ++ ys) =
      ofSiblings before xs ++ ofSiblings (xs.reverse ++ before) ys := by
  induction xs generalizing before with
  | nil => rfl
  | cons n rest ih => simp [ofSiblings, ih]

/-- A child is found by the number of its siblings before it. -/
theorem children_getElem? {v : Visit} {before : List Node} {n : Node} {rest : List Node}
    (h : v.node.children = before.reverse ++ n :: rest) :
    (children v.node)[before.length]? = some ⟨before, n⟩ := by
  have hlen : (ofSiblings [] before.reverse).length = before.length := by
    rw [← List.length_map (·.node), map_node_ofSiblings, List.length_reverse]
  rw [children, h, ofSiblings_append, ← hlen, List.getElem?_append_right (Nat.le_refl _)]
  simp [ofSiblings]

mutual

/-- The visits at the addresses are those of the walk, in the same order. -/
theorem map_at?_reached (before : List Node) :
    (n : Node) → (reached n).map (at? ⟨before, n⟩) = (under before n).map some
  | .mk head children => by
    rw [reached, under]
    split
    · have ih := map_at?_reachedAll ⟨before, .mk head children⟩ [] children rfl
      simpa [at?] using ih
    · rfl

/-- The addresses of siblings lead to the visits below them. -/
theorem map_at?_reachedAll (v : Visit) (before : List Node) :
    (ns : List Node) → v.node.children = before.reverse ++ ns →
      (reachedAll before.length ns).map v.at? = (underAll before ns).map some
  | [], _ => by simp [reachedAll]
  | n :: rest, h => by
    have hn : v.at? ∘ (before.length :: ·) = at? ⟨before, n⟩ := by
      funext a
      simp [at?, children_getElem? h]
    have ih := map_at?_reachedAll v (n :: before) rest (by simp [h])
    rw [reachedAll, underAll_cons, List.map_append, List.map_append, List.map_map, hn,
      map_at?_reached before n]
    exact congrArg _ ih

end

/-- An address below siblings starts with the number of one of them. -/
theorem mem_reachedAll_iff {i : Nat} {ns : List Node} {a : Address} :
    a ∈ reachedAll i ns ↔ ∃ k n b, ns[k]? = some n ∧ b ∈ reached n ∧ a = (i + k) :: b := by
  induction ns generalizing i with
  | nil => simp [reachedAll]
  | cons n rest ih =>
    rw [reachedAll, List.mem_append, List.mem_map, ih]
    constructor
    · rintro (⟨b, hb, rfl⟩ | ⟨k, m, b, hm, hb, rfl⟩)
      · exact ⟨0, n, b, rfl, hb, rfl⟩
      · exact ⟨k + 1, m, b, hm, hb, by rw [Nat.add_assoc, Nat.add_comm 1]⟩
    · rintro ⟨_ | k, m, b, hm, hb, rfl⟩
      · obtain rfl : n = m := by simpa using hm
        exact .inl ⟨b, hb, rfl⟩
      · exact .inr ⟨k, m, b, hm, hb, by rw [Nat.add_assoc, Nat.add_comm 1]⟩

mutual

/-- The addresses of the walk are strictly increasing. -/
theorem pairwise_reached : (n : Node) → (reached n).Pairwise (· < ·)
  | .mk head children => by
    rw [reached]
    split
    · refine List.pairwise_cons.2 ⟨fun a ha => ?_, pairwise_reachedAll 0 children⟩
      obtain ⟨k, n, b, -, -, rfl⟩ := mem_reachedAll_iff.1 ha
      exact List.nil_lt_cons _ _
    · exact List.pairwise_singleton _ _

/-- Addresses below siblings are in their order. -/
theorem pairwise_reachedAll (i : Nat) : (ns : List Node) → (reachedAll i ns).Pairwise (· < ·)
  | [] => by
    rw [reachedAll]
    exact List.Pairwise.nil
  | n :: rest => by
    rw [reachedAll]
    refine List.pairwise_append.2 ⟨?_, pairwise_reachedAll (i + 1) rest, ?_⟩
    · refine List.pairwise_map.2 ((pairwise_reached n).imp fun h => ?_)
      exact List.cons_lt_cons_self.2 h
    · intro a ha b hb
      obtain ⟨a, -, rfl⟩ := List.mem_map.1 ha
      obtain ⟨k, m, b, -, -, rfl⟩ := mem_reachedAll_iff.1 hb
      exact List.cons_lt_cons_iff.2 (.inl (by omega))

end

theorem map_node_children_getElem? (n : Node) (i : Nat) :
    (children n)[i]?.map (·.node) = n.children[i]? := by
  rw [← List.getElem?_map, children, map_node_ofSiblings]

/-- An address is reached by a step to a child and an address that is reached from there. -/
theorem cons_mem_reached_iff {n : Node} {i : Nat} {b : Address} :
    i :: b ∈ reached n ↔
      descends n ∧ ∃ w, (children n)[i]? = some w ∧ b ∈ reached w.node := by
  obtain ⟨head, ns⟩ := n
  rw [reached]
  split
  · next hn =>
    simp only [List.mem_cons, reduceCtorEq, false_or, mem_reachedAll_iff, hn, true_and]
    constructor
    · rintro ⟨k, m, b', hm, hb, heq⟩
      obtain ⟨rfl, rfl⟩ : i = k ∧ b = b' := by simpa using heq
      obtain ⟨w, hw, rfl⟩ := Option.map_eq_some_iff.1
        ((map_node_children_getElem? (.mk head ns) i).trans hm)
      exact ⟨w, hw, hb⟩
    · rintro ⟨w, hw, hb⟩
      refine ⟨i, w.node, b, ?_, hb, by simp⟩
      have hnode := map_node_children_getElem? (.mk head ns) i
      rw [hw] at hnode
      exact hnode.symm
  · next hn => simp [hn]

theorem isReached_nil (v : Visit) : v.IsReached [] := by
  refine ⟨rfl, fun b hb hne => ?_⟩
  exact absurd (List.prefix_nil.1 hb) hne

/-- An address is reached by a step into a node that is descended into. -/
theorem isReached_cons_iff {v : Visit} {i : Nat} {b : Address} :
    v.IsReached (i :: b) ↔
      descends v.node ∧ ∃ w, (children v.node)[i]? = some w ∧ w.IsReached b := by
  constructor
  · rintro ⟨hsome, habove⟩
    obtain ⟨w, hw⟩ : ∃ w, (children v.node)[i]? = some w := by
      cases hw : (children v.node)[i]? with
      | none => simp [at?, hw] at hsome
      | some w => exact ⟨w, rfl⟩
    have hat (c : Address) : v.at? (i :: c) = w.at? c := by simp [at?, hw]
    refine ⟨(descends_iff _).2 (habove [] List.nil_prefix (by simp) v rfl), w, hw, ?_, ?_⟩
    · rwa [hat] at hsome
    · intro c hc hne u hu
      refine habove (i :: c) (List.cons_prefix_cons.2 ⟨rfl, hc⟩) (by simpa using hne) u ?_
      rw [hat, hu]
  · rintro ⟨hv, w, hw, hsome, habove⟩
    have hat (c : Address) : v.at? (i :: c) = w.at? c := by simp [at?, hw]
    refine ⟨by rwa [hat], ?_⟩
    rintro (_ | ⟨j, c⟩) hc hne u hu
    · obtain rfl : v = u := by simpa [at?] using hu
      exact (descends_iff _).1 hv
    · obtain ⟨rfl, hcb⟩ := List.cons_prefix_cons.1 hc
      exact habove c hcb (by simpa using hne) u (by rw [← hat, hu])

/-- **The addresses of the walk** are those with a node at them and no type or import declaration
strictly above. -/
theorem mem_reached_iff (v : Visit) {a : Address} : a ∈ reached v.node ↔ v.IsReached a := by
  induction a generalizing v with
  | nil =>
    refine iff_of_true ?_ v.isReached_nil
    obtain ⟨before, head, ns⟩ := v
    rw [reached]
    exact List.mem_cons_self
  | cons i b ih =>
    rw [cons_mem_reached_iff, isReached_cons_iff]
    simp only [ih]

end Visit

end GoOutline
