import GoOutline.Proofs.Doc.Leading
import GoOutline.Proofs.Syntax.Layout

/-!
# Comments behind code

A comment that stands behind code on its row is not meant to document the declaration below. Whether
it does is decided by the one sibling before it. In an accepted source this sibling shows the code,
wherever in the tree that ends, with one exception: when the sibling is itself a comment on the row,
the code is not seen.

## Main definitions

* `Doc.IsCodeBeside`: a token of code before a comment, on the row where the comment starts
* `Doc.IsTrailing`: a comment behind code

## Main results

* `exists_comment_of_isTrailing`: in a documentation, a comment behind code has another one before
  it
* `not_forall_not_isTrailing`: there are such documentations
-/

namespace GoOutline

open GoOutline.Syntax GoOutline.Text

namespace Doc

/-- The token stands before the comment and ends on the row on which that starts. Comments are no
such tokens, and neither are line feeds. -/
structure IsCodeBeside (c t : Node) : Prop where
  leaf : t.children = []
  code : ¬ t.isComment
  feed : t.kind ≠ .token "\n"
  earlier : ¬ c.span.start ≤ t.span.start
  row : t.endRow = c.startRow

instance (c t : Node) : Decidable (IsCodeBeside c t) :=
  decidable_of_iff (t.children = [] ∧ ¬ t.isComment ∧ t.kind ≠ .token "\n" ∧
      ¬ c.span.start ≤ t.span.start ∧ t.endRow = c.startRow)
    ⟨fun ⟨hleaf, hcode, hfeed, hearlier, hrow⟩ => ⟨hleaf, hcode, hfeed, hearlier, hrow⟩,
      fun h => ⟨h.1, h.2, h.3, h.4, h.5⟩⟩

/-- The comment stands behind code on its row. -/
def IsTrailing (root c : Node) : Prop := ∃ t ∈ root.preorder, IsCodeBeside c t

instance (root c : Node) : Decidable (IsTrailing root c) :=
  inferInstanceAs (Decidable (∃ t ∈ root.preorder, IsCodeBeside c t))

theorem significant_reverse (ns : List Node) :
    Node.significant ns.reverse = (Node.significant ns).reverse :=
  List.filter_reverse

/-- The comments of a documentation are among the siblings, and what stands directly before each of
them, terminators set aside, is a comment or ends on another row. -/
theorem exists_front_of_mem {row : Nat} {siblings : List Node} {c : Node}
    (hc : c ∈ leadingComments row (Node.significant siblings.reverse)) :
    c.isComment ∧ ∃ front back, siblings = front ++ c :: back ∧
      ∀ b ∈ (Node.significant front).getLast?, ¬ b.isComment → b.endRow ≠ c.startRow := by
  have hrun := endsInRun_leadingComments row (Node.significant siblings.reverse)
  rw [significant_reverse, List.reverse_reverse] at hrun
  rw [significant_reverse] at hc
  have hmem := List.mem_reverse.2 hc
  refine ⟨hrun.comments c hmem, ?_⟩
  obtain ⟨before, after, hsplit⟩ := List.append_of_mem hmem
  obtain ⟨far, hfar⟩ := hrun.suffix
  rw [hsplit, ← List.append_assoc] at hfar
  obtain ⟨first, second, rfl, hfirst, hsecond⟩ := List.filter_eq_append_iff.1 hfar.symm
  obtain ⟨skipped, back, rfl, hskipped, -, -⟩ := List.filter_eq_cons_iff.1 hsecond
  have hnone : skipped.filter (!·.kind.isTerminator) = [] := List.filter_eq_nil_iff.2 hskipped
  refine ⟨first ++ skipped, back, (List.append_assoc ..).symm, fun b hb => ?_⟩
  rw [Node.significant, List.filter_append, hnone, List.append_nil, hfirst] at hb
  obtain ⟨front, hfront⟩ := List.getLast?_eq_some_iff.1 hb
  rw [hfront] at hfar
  refine hrun.untrailed front b c after (by simp [← hfar]) ?_
  rw [hsplit, List.length_append, List.length_cons]
  omega

end Doc

namespace Syntax.Node.IsNested

/-- A leaf that starts before a child is below an earlier child, or it ends before the parent
starts. -/
theorem mem_or_stop_le {root parent c t : Node} {front back : List Node} (h : root.IsNested)
    (hparent : parent ∈ root.preorder) (hchildren : parent.children = front ++ c :: back)
    (ht : t ∈ root.preorder) (hleaf : t.children = []) (hearlier : ¬ c.span.start ≤ t.span.start) :
    (∃ k ∈ front, t ∈ k.preorder) ∨ t ∉ parent.preorder ∧ t.span.stop ≤ parent.span.start := by
  have hnested := h.of_mem hparent
  have hc : c ∈ parent.children := by simp [hchildren]
  have hspan := (hnested.of_mem_children hc).nestsChildren.start_le_stop
  have hwithin := (hnested.nestsChildren.within c hc).2
  by_cases hbelow : t ∈ parent.preorder
  · -- the child above the leaf is not the given one, and does not come later
    rcases mem_preorder_iff.1 hbelow with rfl | ⟨k, hk, htk⟩
    · simp [hchildren] at hleaf
    have hstart := ((hnested.of_mem_children hk).span_of_mem htk).1
    have hpairwise := hnested.nestsChildren.apart
    rw [hchildren] at hk hpairwise
    obtain ⟨-, hafter, -⟩ := List.pairwise_append.1 hpairwise
    rcases List.mem_append.1 hk with hk | hk
    · exact .inl ⟨k, hk, htk⟩
    · refine absurd (le_trans ?_ hstart) hearlier
      rcases List.mem_cons.1 hk with rfl | hk
      · exact le_rfl
      · exact hspan.trans (List.rel_of_pairwise_cons hafter hk)
  · refine .inr ⟨hbelow, ?_⟩
    rcases h.mem_or_apart ht hparent with hin | hin | hstop | hstop
    · exact absurd hin hbelow
    · rcases mem_preorder_iff.1 hin with rfl | ⟨k, hk, -⟩
      · exact absurd (mem_preorder_self _) hbelow
      · simp [hleaf] at hk
    · exact hstop
    · exact absurd ((hspan.trans hwithin).trans hstop) hearlier

end Syntax.Node.IsNested

/-- The siblings of a node are the children of a node above it. -/
theorem Visit.exists_parent_of_at? {u v : Visit} {i : Nat} {a : Address}
    (h : u.at? (i :: a) = some v) :
    ∃ parent ∈ u.node.preorder, ∃ rest, parent.children = v.before.reverse ++ v.node :: rest := by
  induction a generalizing u i with
  | nil =>
    obtain ⟨w, hw, hv⟩ := Option.bind_eq_some_iff.1 h
    cases hv
    obtain ⟨hbefore, hnode⟩ := before_of_getElem?_children hw
    obtain ⟨hi, hget⟩ := List.getElem?_eq_some_iff.1 hnode
    refine ⟨u.node, Node.mem_preorder_self _, u.node.children.drop (i + 1), ?_⟩
    rw [hbefore, ← hget, List.getElem_cons_drop, List.take_append_drop]
  | cons j rest ih =>
    obtain ⟨w, hw, hv⟩ := Option.bind_eq_some_iff.1 h
    have hnode := List.mem_of_getElem? (before_of_getElem?_children hw).2
    obtain ⟨parent, hparent, siblings⟩ := ih hv
    exact ⟨parent, Node.mem_preorder_trans hparent (Node.mem_preorder_of_mem_children hnode),
      siblings⟩

namespace Doc

/-- The children around a comment behind code: the one before it ends on its row. -/
theorem endRow_eq_of_isCodeBeside {root parent r c t : Node} {front back : List Node}
    (h : root.IsNested) (hparent : parent ∈ root.preorder)
    (hchildren : parent.children = front ++ r :: c :: back) (ht : t ∈ root.preorder)
    (hbeside : IsCodeBeside c t) :
    r.endRow = c.startRow ∧ (t ∈ r.preorder ∨ r.startRow = c.startRow) := by
  have hnested := h.of_mem hparent
  have hr : r ∈ parent.children := by simp [hchildren]
  have hpairwise := hnested.nestsChildren.apart
  rw [hchildren] at hpairwise
  obtain ⟨-, hrest, hapart⟩ := List.pairwise_append.1 hpairwise
  have hspan := Point.row_le_row (hnested.of_mem_children hr).nestsChildren.start_le_stop
  have hbefore := Point.row_le_row (List.rel_of_pairwise_cons hrest List.mem_cons_self)
  have hrow := hbeside.row
  unfold Node.endRow Node.startRow at *
  -- the token is below the child before the comment, or it ends before that starts
  have hcases : t ∈ r.preorder ∨ t.span.stop ≤ r.span.start := by
    rw [List.append_cons] at hchildren
    rcases h.mem_or_stop_le hparent hchildren ht hbeside.leaf hbeside.earlier with
      ⟨k, hk, htk⟩ | ⟨-, hstop⟩
    · rcases List.mem_append.1 hk with hk | hk
      · have hkparent : k ∈ parent.children := by simp [hchildren, hk]
        have hstop := ((hnested.of_mem_children hkparent).span_of_mem htk).2
        exact .inr (hstop.trans (hapart k hk r List.mem_cons_self))
      · cases List.mem_singleton.1 hk
        exact .inl htk
    · exact .inr (hstop.trans (hnested.nestsChildren.within r hr).1)
  rcases hcases with hbelow | hstop
  · have hstop := Point.row_le_row ((hnested.of_mem_children hr).span_of_mem hbelow).2
    exact ⟨by omega, .inl hbelow⟩
  · have hstop := Point.row_le_row hstop
    exact ⟨by omega, .inr (by omega)⟩

/-- Among the children of a node, settled and with no comment in front, a comment behind code whose
last significant sibling does not show the code has a comment on its row before it. -/
theorem exists_comment_of_children {root parent c t : Node} {front back : List Node}
    (h : root.IsNested) (hparent : parent ∈ root.preorder)
    (hchildren : parent.children = front ++ c :: back) (hsettled : Settled parent.children)
    (hfront : front ≠ []) (ht : t ∈ root.preorder) (hbeside : IsCodeBeside c t)
    (huntrailed : ∀ b ∈ (Node.significant front).getLast?, ¬ b.isComment →
      b.endRow ≠ c.startRow) :
    ∃ b ∈ (Node.significant front).getLast?, b.isComment ∧ b.endRow = c.startRow := by
  have hcomment : ∀ b ∈ (Node.significant front).getLast?, b.endRow = c.startRow →
      ∃ b ∈ (Node.significant front).getLast?, b.isComment ∧ b.endRow = c.startRow := by
    intro b hb hrow
    exact ⟨b, hb, by_contra fun hcode => huntrailed b hb hcode hrow, hrow⟩
  obtain ⟨front, r, rfl⟩ := (List.eq_nil_or_concat' front).resolve_left hfront
  rw [List.append_assoc] at hchildren
  obtain ⟨hend, hstart⟩ := endRow_eq_of_isCodeBeside h hparent hchildren ht hbeside
  by_cases hterminator : r.kind.isTerminator
  swap
  · exact hcomment r (by simp [Node.significant, List.filter_append, hterminator]) hend
  -- a terminator follows on a sibling that ends on its row
  rw [hchildren] at hsettled
  rcases List.eq_nil_or_concat' front with rfl | ⟨front, b, rfl⟩
  · have hr : ¬ r.isComment := fun hr => not_isTerminator_of_isComment hr hterminator
    exact absurd hterminator (hsettled.first r (by simp [hr]))
  · rw [List.append_assoc] at hsettled
    obtain ⟨hapart, hrow, hleaf, hfeed⟩ :=
      List.isChain_iff_forall_rel_of_append_cons_cons.1 hsettled.chain rfl hterminator
    refine hcomment b (by simp [Node.significant, List.filter_append, hterminator, hapart]) ?_
    rw [hrow]
    rcases hstart with hbelow | hstart
    · rcases Node.mem_preorder_iff.1 hbelow with rfl | ⟨k, hk, -⟩
      · rwa [if_neg hbeside.feed, hend, eq_comm] at hfeed
      · simp [hleaf] at hk
    · exact hstart

end Doc

/-- **Comments behind code.** Take a comment that belongs to the documentation of a declaration, a
field or a method of an interface in an accepted source. If it stands behind code on its row, then
the sibling before it, terminators set aside, is another comment that ends on the row. -/
theorem exists_comment_of_isTrailing {path : String} {source : List UInt8} {p : Parsed}
    (hp : parse path source = .ok p) {a : Address} {v : Visit}
    (hv : Visit.at? ⟨[], p.tree⟩ a = some v) (hkind : v.node.kind.isDeclaration) {c : Node}
    (hc : c ∈ Doc.leadingComments v.node.startRow (Node.significant v.before))
    (htrailing : Doc.IsTrailing p.tree c) :
    ∃ after b before, Node.significant v.before = after ++ c :: b :: before ∧
      b.isComment ∧ b.endRow = c.startRow := by
  obtain ⟨hnested, hlaidOut, hroot⟩ := layout_of_parse hp
  obtain ⟨t, ht, hbeside⟩ := htrailing
  cases a with
  | nil =>
    cases hv
    cases hc
  | cons i a =>
    obtain ⟨parent, hparent, rest, hsiblings⟩ := Visit.exists_parent_of_at? hv
    rw [← List.reverse_reverse v.before] at hc
    obtain ⟨hcomment, front, back, hbefore, huntrailed⟩ := Doc.exists_front_of_mem hc
    have hchildren : parent.children = front ++ c :: (back ++ v.node :: rest) := by
      rw [hsiblings, hbefore, List.append_assoc, List.cons_append]
    -- the root may start with comments, but then there is nothing before them
    have hlayout : Settled parent.children ∧ front ≠ [] := by
      rcases Node.mem_preorder_iff.1 hparent with rfl | ⟨n, hn, hparent'⟩
      · refine ⟨hroot, ?_⟩
        rintro rfl
        rcases hnested.mem_or_stop_le hparent hchildren ht hbeside.leaf hbeside.earlier with
          ⟨k, hk, -⟩ | ⟨hnot, -⟩
        · cases hk
        · exact hnot ht
      · have hlaysOut := hlaidOut n hn parent hparent'
        refine ⟨hlaysOut.settled.resolve_right fun hnone => ?_, ?_⟩
        · exact hnone v.node (by simp [hchildren]) hkind
        · rintro rfl
          exact hlaysOut.head c (by simp [hchildren]) hcomment
    obtain ⟨b, hb, hbcomment, hrow⟩ := Doc.exists_comment_of_children hnested hparent hchildren
      hlayout.1 hlayout.2 ht hbeside huntrailed
    obtain ⟨before, hfront⟩ := List.getLast?_eq_some_iff.1 hb
    refine ⟨(Node.significant back).reverse, b, before.reverse, ?_, hbcomment, hrow⟩
    have hterminator := not_isTerminator_of_isComment hcomment
    have hsplit : Node.significant (front ++ c :: back) =
        Node.significant front ++ c :: Node.significant back := by
      simp [Node.significant, hterminator]
    rw [← List.reverse_reverse v.before, hbefore, Doc.significant_reverse, hsplit, hfront]
    simp

/-- A function below a row with code and two comments behind it. -/
def commentsBehindCode : List UInt8 := Utf8.encode
  "package p

var x = 1 /* a */ // b
func F() \x7b\x7d
".toList

/-- The second comment behind the code documents the function. -/
theorem isTrailing_commentsBehindCode :
    ∃ p v c, parse "t.go" commentsBehindCode = .ok p ∧ Visit.at? ⟨[], p.tree⟩ [6] = some v ∧
      v.node.kind.isDeclaration ∧ v.doc = some "b" ∧
      c ∈ Doc.leadingComments v.node.startRow (Node.significant v.before) ∧
      Doc.IsTrailing p.tree c := by
  have h : (parse "t.go" commentsBehindCode).toOption.any fun p =>
      (Visit.at? ⟨[], p.tree⟩ [6]).any fun v => v.node.kind.isDeclaration ∧ v.doc = some "b" ∧
        ∃ c ∈ Doc.leadingComments v.node.startRow (Node.significant v.before),
          Doc.IsTrailing p.tree c := by
    decide +kernel
  obtain ⟨p, hp, hq⟩ := exists_parse_eq_ok h
  obtain ⟨v, hv, hv'⟩ := (Option.any_eq_true _ _).1 hq
  obtain ⟨hkind, hdoc, c, hc, htrailing⟩ := of_decide_eq_true hv'
  exact ⟨p, v, c, hp, hv, hkind, hdoc, hc, htrailing⟩

theorem exists_comment_of_isTrailing_commentsBehindCode :
    ∃ p v c after b before, parse "t.go" commentsBehindCode = .ok p ∧
      Visit.at? ⟨[], p.tree⟩ [6] = some v ∧ v.doc = some "b" ∧ Doc.IsTrailing p.tree c ∧
      Node.significant v.before = after ++ c :: b :: before ∧
      b.isComment ∧ b.endRow = c.startRow := by
  obtain ⟨p, v, c, hp, hv, hkind, hdoc, hc, htrailing⟩ := isTrailing_commentsBehindCode
  obtain ⟨after, b, before, hb⟩ := exists_comment_of_isTrailing hp hv hkind hc htrailing
  exact ⟨p, v, c, after, b, before, hp, hv, hdoc, htrailing, hb⟩

/-- Comments behind code do get into documentations. -/
theorem not_forall_not_isTrailing :
    ¬ ∀ path source p, parse path source = .ok p → ∀ a v, Visit.at? ⟨[], p.tree⟩ a = some v →
      v.node.kind.isDeclaration →
      ∀ c ∈ Doc.leadingComments v.node.startRow (Node.significant v.before),
        ¬ Doc.IsTrailing p.tree c := by
  intro hall
  obtain ⟨p, v, c, hp, hv, hkind, -, hc, htrailing⟩ := isTrailing_commentsBehindCode
  exact hall "t.go" commentsBehindCode p hp [6] v hv hkind c hc htrailing

end GoOutline
