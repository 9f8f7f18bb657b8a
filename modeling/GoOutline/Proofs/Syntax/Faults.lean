import GoOutline.Syntax.Tree

/-!
# The first fault of a tree

The search for a fault passes over every tree that is not marked as holding one. When the mark says
what it should, nothing is missed by that: what the search finds is the first fault among all nodes
in reading order.

## Main definitions

* `Node.preorder`: the nodes of a tree in reading order

## Main results

* `Node.childInduction`: what holds of a node whenever it holds of its children holds of every node
* `Node.mem_preorder_iff`, `Node.mem_preorder_trans`: what is below a node
* `Node.hasFault_iff`: a tree has a fault when one of its nodes is one
* `Tree.firstFault?_eq_find?`: the search finds the first fault in reading order
-/

namespace GoOutline.Syntax

namespace Node

mutual

/-- The nodes of a tree in reading order: a node stands before everything below it. -/
def preorder : Node → List Node
  | .mk head children => .mk head children :: preorderAll children

/-- The nodes of some trees in reading order. -/
def preorderAll : List Node → List Node
  | [] => []
  | n :: rest => preorder n ++ preorderAll rest

end

/-- What holds of a node whenever it holds of its children holds of every node. -/
@[elab_as_elim]
theorem childInduction {motive : Node → Prop}
    (mk : ∀ head children, (∀ c ∈ children, motive c) → motive (.mk head children)) (n : Node) :
    motive n := by
  -- over a run of children, the motive is that it holds of each of them
  refine @Node.rec motive (fun ns => ∀ c ∈ ns, motive c) ?_ ?_ ?_ n
  · exact mk
  · exact List.forall_mem_nil motive
  · intro m ms hm hms
    exact List.forall_mem_cons.2 ⟨hm, hms⟩

theorem preorderAll_eq_flatMap (ns : List Node) : preorderAll ns = ns.flatMap preorder := by
  induction ns with
  | nil => rfl
  | cons n rest ih => rw [preorderAll, ih, List.flatMap_cons]

theorem mem_preorderAll_iff {m : Node} {ns : List Node} :
    m ∈ preorderAll ns ↔ ∃ n ∈ ns, m ∈ n.preorder := by
  rw [preorderAll_eq_flatMap, List.mem_flatMap]

/-- Below a node are the node itself and what is below its children. -/
theorem mem_preorder_iff {m n : Node} :
    m ∈ n.preorder ↔ m = n ∨ ∃ c ∈ n.children, m ∈ c.preorder := by
  obtain ⟨head, ns⟩ := n
  rw [preorder, List.mem_cons, mem_preorderAll_iff]
  rfl

theorem mem_preorder_self (n : Node) : n ∈ n.preorder := mem_preorder_iff.2 (.inl rfl)

theorem mem_preorder_trans {k m n : Node} (hk : k ∈ m.preorder) (hm : m ∈ n.preorder) :
    k ∈ n.preorder := by
  induction n using childInduction with
  | mk head ns ih =>
    rcases mem_preorder_iff.1 hm with rfl | ⟨c, hc, hm⟩
    · exact hk
    · exact mem_preorder_iff.2 (.inr ⟨c, hc, ih c hc hm⟩)

theorem mem_preorder_of_mem_children {m n : Node} (h : m ∈ n.children) : m ∈ n.preorder :=
  mem_preorder_iff.2 (.inr ⟨m, h, mem_preorder_self m⟩)

mutual

/-- A tree has a fault when one of its nodes is one. -/
theorem hasFault_iff : ∀ n : Node, n.hasFault ↔ ∃ m ∈ n.preorder, m.isFault
  | .mk head children => by
    rw [hasFault, preorder, Bool.or_eq_true, hasFaultIn_iff children]
    simp only [List.mem_cons, exists_eq_or_imp]

theorem hasFaultIn_iff : ∀ ns : List Node, hasFaultIn ns ↔ ∃ m ∈ preorderAll ns, m.isFault
  | [] => by simp [hasFaultIn, preorderAll]
  | n :: rest => by
    rw [hasFaultIn, preorderAll, Bool.or_eq_true, hasFault_iff n, hasFaultIn_iff rest]
    simp only [List.mem_append, or_and_right, exists_or]

end

end Node

namespace Tree

open Node

section

variable {marked : Node → Bool}

/-- Below a node without the mark there is nothing to find. -/
theorem find?_preorderAll_of_not_marked (hmarked : ∀ n, marked n ↔ ∃ m ∈ n.preorder, m.isFault)
    {head : Head} {children : List Node} (h : ¬ marked (.mk head children)) :
    (preorderAll children).find? isFault = none := by
  refine List.find?_eq_none.2 fun m hm hfault => h ((hmarked _).2 ⟨m, ?_, hfault⟩)
  rw [preorder]
  exact List.mem_cons_of_mem _ hm

mutual

/-- **The search finds the first fault in reading order**, although it passes over the trees without
the mark. -/
theorem firstFault?_eq_find? (hmarked : ∀ n, marked n ↔ ∃ m ∈ n.preorder, m.isFault) :
    ∀ n : Node, firstFault? marked n = n.preorder.find? isFault
  | .mk head children => by
    rw [firstFault?, preorder, List.find?_cons]
    split
    · next hfault => rw [hfault]
    · next hfault =>
      rw [Bool.eq_false_iff.2 hfault]
      split
      · exact firstFaultIn?_eq_find? hmarked children
      · next hnot => exact (find?_preorderAll_of_not_marked hmarked hnot).symm

theorem firstFaultIn?_eq_find? (hmarked : ∀ n, marked n ↔ ∃ m ∈ n.preorder, m.isFault) :
    ∀ ns : List Node, firstFaultIn? marked ns = (preorderAll ns).find? isFault
  | [] => by rw [firstFaultIn?, preorderAll, List.find?_nil]
  | n :: rest => by
    rw [firstFaultIn?, preorderAll, List.find?_append, firstFault?_eq_find? hmarked n,
      firstFaultIn?_eq_find? hmarked rest]

end

end

/-- In a tree without faults none is found. -/
theorem firstFault?_eq_none {n : Node} (h : n.hasFault = false) :
    firstFault? hasFault n = none := by
  rw [firstFault?_eq_find? hasFault_iff, List.find?_eq_none]
  intro m hm hfault
  rw [(hasFault_iff n).2 ⟨m, hm, hfault⟩] at h
  cases h

end Tree

end GoOutline.Syntax
