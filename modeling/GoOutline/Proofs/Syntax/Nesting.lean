import GoOutline.Proofs.Outline.Preorder
import GoOutline.Proofs.Syntax.Faults
import GoOutline.Proofs.Text.Position
import Mathlib.Data.List.Pairwise

/-!
# Nested trees

In a nested tree no node ends before it starts, the children of a node lie inside it, and each of
them ends before the next one starts. The walk over such a tree never goes back in the text: a node
that it takes up later does not start earlier, and when the walk passes over the inside of a node,
what it takes up later starts behind that node.

## Main definitions

* `Node.IsNested`: the nested trees
* `Node.IsApart`: two nodes that do not overlap
* `Visit.Leads`: what the walk keeps between an earlier and a later visit

## Main results

* `Node.IsNested.span_of_mem`: everything below a node lies inside it
* `Node.IsNested.mem_or_apart`: two nodes are below one another, or apart
* `Visit.pairwise_preorder`: the visits to a nested tree are in the order of the text
-/

namespace GoOutline.Syntax.Node

open GoOutline.Text

/-- The node does not end before it starts, and its children lie inside it, one behind the other. -/
structure NestsChildren (n : Node) : Prop where
  start_le_stop : n.span.start ≤ n.span.stop
  within : ∀ c ∈ n.children, n.span.start ≤ c.span.start ∧ c.span.stop ≤ n.span.stop
  apart : n.children.Pairwise fun a b => a.span.stop ≤ b.span.start

instance (n : Node) : Decidable n.NestsChildren :=
  decidable_of_iff (n.span.start ≤ n.span.stop ∧
      (∀ c ∈ n.children, n.span.start ≤ c.span.start ∧ c.span.stop ≤ n.span.stop) ∧
      n.children.Pairwise fun a b => a.span.stop ≤ b.span.start)
    ⟨fun ⟨h, hwithin, hapart⟩ => ⟨h, hwithin, hapart⟩, fun h => ⟨h.1, h.2, h.3⟩⟩

/-- The spans of a tree are nested: this is so at every node of it. -/
def IsNested (n : Node) : Prop := ∀ m ∈ n.preorder, m.NestsChildren

instance (n : Node) : Decidable n.IsNested :=
  inferInstanceAs (Decidable (∀ m ∈ n.preorder, m.NestsChildren))

/-- One of the two nodes ends before the other starts. -/
def IsApart (m n : Node) : Prop := m.span.stop ≤ n.span.start ∨ n.span.stop ≤ m.span.start

instance : Std.Symm IsApart := ⟨fun _ _ h => Or.symm h⟩

namespace IsNested

variable {m n : Node}

theorem nestsChildren (h : n.IsNested) : n.NestsChildren := h n (mem_preorder_self n)

theorem of_mem (h : n.IsNested) (hm : m ∈ n.preorder) : m.IsNested :=
  fun k hk => h k (mem_preorder_trans hk hm)

theorem of_mem_children (h : n.IsNested) (hm : m ∈ n.children) : m.IsNested :=
  h.of_mem (mem_preorder_of_mem_children hm)

/-- Everything below a node lies inside it. -/
theorem span_of_mem (h : n.IsNested) (hm : m ∈ n.preorder) :
    n.span.start ≤ m.span.start ∧ m.span.stop ≤ n.span.stop := by
  induction n using childInduction with
  | mk head ns ih =>
    rcases mem_preorder_iff.1 hm with rfl | ⟨c, hc, hm⟩
    · exact ⟨le_rfl, le_rfl⟩
    · obtain ⟨hstart, hstop⟩ := h.nestsChildren.within c hc
      obtain ⟨hstart', hstop'⟩ := ih c hc (h.of_mem_children hc) hm
      exact ⟨hstart.trans hstart', hstop'.trans hstop⟩

/-- The children of a node start one after the other. -/
theorem pairwise_start (h : n.IsNested) :
    n.children.Pairwise fun a b => a.span.start ≤ b.span.start := by
  refine h.nestsChildren.apart.imp_of_mem fun {a _} ha _ hab => ?_
  exact (h.of_mem_children ha).nestsChildren.start_le_stop.trans hab

/-- Of two nodes one is below the other, or one ends before the other starts. -/
theorem mem_or_apart {k : Node} (h : n.IsNested) (hk : k ∈ n.preorder) (hm : m ∈ n.preorder) :
    k ∈ m.preorder ∨ m ∈ k.preorder ∨ k.IsApart m := by
  induction n using childInduction with
  | mk head ns ih =>
    rcases mem_preorder_iff.1 hk with rfl | ⟨a, ha, hk⟩
    · exact .inr (.inl hm)
    rcases mem_preorder_iff.1 hm with rfl | ⟨b, hb, hm⟩
    · exact .inl (mem_preorder_iff.2 (.inr ⟨a, ha, hk⟩))
    by_cases hab : a = b
    · subst hab
      exact ih a ha (h.of_mem_children ha) hk hm
    -- below two children of a node, the nodes are apart as the children are
    have hpairwise : ns.Pairwise IsApart := h.nestsChildren.apart.imp .inl
    have happart := hpairwise.forall ha hb hab
    have hka := (h.of_mem_children ha).span_of_mem hk
    have hmb := (h.of_mem_children hb).span_of_mem hm
    rcases happart with happart | happart
    · exact .inr (.inr (.inl ((hka.2.trans happart).trans hmb.1)))
    · exact .inr (.inr (.inr ((hmb.2.trans happart).trans hka.1)))

end IsNested

end GoOutline.Syntax.Node

namespace GoOutline.Visit

open GoOutline.Syntax

theorem exists_of_mem_underAll {before ns : List Node} {v : Visit} (h : v ∈ underAll before ns) :
    ∃ n ∈ ns, ∃ front, v ∈ under front n := by
  induction ns generalizing before with
  | nil => simp at h
  | cons n rest ih =>
    rw [underAll_cons] at h
    rcases List.mem_append.1 h with h | h
    · exact ⟨n, List.mem_cons_self, before, h⟩
    · obtain ⟨m, hm, hv⟩ := ih h
      exact ⟨m, List.mem_cons_of_mem n hm, hv⟩

/-- The visits of the walk are to nodes of the tree. -/
theorem node_mem_of_mem_under {n : Node} {before : List Node} {v : Visit}
    (h : v ∈ under before n) : v.node ∈ n.preorder := by
  induction n using Node.childInduction generalizing before with
  | mk head ns ih =>
    rw [under_eq] at h
    rcases List.mem_cons.1 h with rfl | h
    · exact Node.mem_preorder_self _
    · split at h
      · obtain ⟨c, hc, front, hv⟩ := exists_of_mem_underAll h
        exact Node.mem_preorder_iff.2 (.inr ⟨c, hc, ih c hc hv⟩)
      · simp at h

/-- A visit leads to another when its node does not start later, and, if the walk does not go on
into its node, when this ends before the other starts. -/
def Leads (v w : Visit) : Prop :=
  v.node.span.start ≤ w.node.span.start ∧
    (descends v.node = false → v.node.span.stop ≤ w.node.span.start)

/-- The visits below nested siblings that do not overlap are in order when those below each of them
are. -/
theorem pairwise_underAll {ns : List Node} (hnested : ∀ n ∈ ns, n.IsNested)
    (hapart : ns.Pairwise fun a b => a.span.stop ≤ b.span.start)
    (hunder : ∀ n ∈ ns, ∀ before, (under before n).Pairwise Leads) (before : List Node) :
    (underAll before ns).Pairwise Leads := by
  induction ns generalizing before with
  | nil => simp
  | cons n rest ih =>
    obtain ⟨hn, hrest⟩ := List.pairwise_cons.1 hapart
    rw [underAll_cons]
    refine List.pairwise_append.2 ⟨hunder n List.mem_cons_self before, ?_, ?_⟩
    · apply ih
      · exact fun m hm => hnested m (List.mem_cons_of_mem n hm)
      · exact hrest
      · exact fun m hm => hunder m (List.mem_cons_of_mem n hm)
    · -- a visit below `n` ends inside `n`, and one below a later sibling starts inside that
      intro v hv w hw
      obtain ⟨m, hm, front, hw⟩ := exists_of_mem_underAll hw
      have hnestedn := hnested n List.mem_cons_self
      have hv' := node_mem_of_mem_under hv
      have hw' := (hnested m (List.mem_cons_of_mem n hm)).span_of_mem (node_mem_of_mem_under hw)
      have hstop : v.node.span.stop ≤ w.node.span.start :=
        ((hnestedn.span_of_mem hv').2.trans (hn m hm)).trans hw'.1
      exact ⟨(hnestedn.of_mem hv').nestsChildren.start_le_stop.trans hstop, fun _ => hstop⟩

/-- **The walk goes forward**: of two visits to a nested tree the earlier one leads to the later. -/
theorem pairwise_under {n : Node} (h : n.IsNested) (before : List Node) :
    (under before n).Pairwise Leads := by
  induction n using Node.childInduction generalizing before with
  | mk head ns ih =>
    rw [under_eq]
    split
    · next hdescends =>
      refine List.pairwise_cons.2 ⟨fun w hw => ?_, ?_⟩
      · -- what is visited below the node lies inside it, and the walk has gone on into the node
        obtain ⟨c, hc, front, hw⟩ := exists_of_mem_underAll hw
        have hmem := Node.mem_preorder_iff.2 (.inr ⟨c, hc, node_mem_of_mem_under hw⟩)
        refine ⟨(h.span_of_mem hmem).1, fun hnot => ?_⟩
        rw [hdescends] at hnot
        cases hnot
      · exact pairwise_underAll (fun c hc => h.of_mem_children hc) h.nestsChildren.apart
          (fun c hc => ih c hc (h.of_mem_children hc)) []
    · exact List.pairwise_singleton _ _

theorem pairwise_preorder {root : Node} (h : root.IsNested) : (preorder root).Pairwise Leads :=
  pairwise_under h []

end GoOutline.Visit
