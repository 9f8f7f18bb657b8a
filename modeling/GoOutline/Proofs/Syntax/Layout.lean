import GoOutline.Analysis
import GoOutline.Proofs.Syntax.Nesting
import GoOutline.Proofs.Syntax.Runs.File
import Mathlib.Data.List.Chain

/-!
# The layout of trees

The nodes of a run stand one behind the other, from the cursor where the reading starts to the one
where it ends. Hence the trees of accepted sources are nested. A token that ends a statement stands
directly behind that statement, or behind comments that follow it on the row.

## Main definitions

* `Cursor.Reaches`: a cursor further on
* `Spans`: nodes one behind the other
* `Terminates`, `Settled`: the tokens that end statements follow on them
* `Node.LaysOut`, `Node.IsLaidOut`: the layout at one node, and at all nodes of a tree
* `Layout`: the layout of a run

## Main results

* `Run.layout`: the layout of every run
* `IsFile.layout`: the layout of a file
* `layout_of_parse`: the layout of the trees of accepted sources
-/

namespace GoOutline.Syntax

open GoOutline.Text

/-! ## Cursors -/

namespace Cursor

/-- At the end of the source nothing is left to go over. -/
theorem advance_of_rest_eq_nil {c : Cursor} (h : c.rest = []) (k : Nat) : c.advance k = c := by
  obtain ⟨rest, p⟩ := c
  obtain rfl : rest = [] := h
  cases k <;> rfl

/-- Going on twice is going on by the sum. -/
theorem advance_advance (c : Cursor) (j k : Nat) :
    (c.advance j).advance k = c.advance (j + k) := by
  induction j generalizing c with
  | zero =>
    rw [Nat.zero_add]
    rfl
  | succ j ih =>
    obtain ⟨rest, p⟩ := c
    cases rest with
    | nil => simp only [advance_of_rest_eq_nil]
    | cons a rest =>
      rw [Nat.succ_add]
      exact ih ⟨rest, p.advance a (Utf8.width a)⟩

/-- The point never moves back. -/
theorem point_le_advance (c : Cursor) (k : Nat) : c.point ≤ (c.advance k).point := by
  induction k generalizing c with
  | zero => exact le_rfl
  | succ k ih =>
    obtain ⟨rest, p⟩ := c
    cases rest with
    | nil => exact le_rfl
    | cons a rest => exact (p.le_advance a _).trans (ih ⟨rest, p.advance a (Utf8.width a)⟩)

/-- Nothing comes after the end of the source. -/
theorem advance_le_end (c : Cursor) (k : Nat) :
    (c.advance k).point ≤ (c.advance c.rest.length).point := by
  induction k generalizing c with
  | zero => exact point_le_advance c _
  | succ k ih =>
    obtain ⟨rest, p⟩ := c
    cases rest with
    | nil => exact le_rfl
    | cons a rest => exact ih ⟨rest, p.advance a (Utf8.width a)⟩

/-- The second cursor is the first one some characters on. -/
def Reaches (c d : Cursor) : Prop := ∃ k, d = c.advance k

theorem reaches_advance (c : Cursor) (k : Nat) : c.Reaches (c.advance k) := ⟨k, rfl⟩

theorem Reaches.refl (c : Cursor) : c.Reaches c := ⟨0, rfl⟩

/-- A cursor that is reached from a reached one is reached. -/
theorem Reaches.trans {c d e : Cursor} (h : c.Reaches d) (h' : d.Reaches e) : c.Reaches e := by
  obtain ⟨j, rfl⟩ := h
  obtain ⟨k, rfl⟩ := h'
  exact ⟨j + k, advance_advance c j k⟩

theorem Reaches.point_le {c d : Cursor} (h : c.Reaches d) : c.point ≤ d.point := by
  obtain ⟨k, rfl⟩ := h
  exact point_le_advance c k

/-- No point that is reached is behind the end. -/
theorem Reaches.le_end {c d : Cursor} (h : c.Reaches d) :
    d.point ≤ (c.advance c.rest.length).point := by
  obtain ⟨k, rfl⟩ := h
  exact advance_le_end c k

/-- Only a line feed leads to another row. -/
theorem row_advance_one {c : Cursor} {a : Char} (h : c.rest.head? = some a) :
    (c.advance 1).point.row = if a = '\n' then c.point.row + 1 else c.point.row := by
  obtain ⟨rest, p⟩ := c
  cases rest with
  | nil => cases h
  | cons b rest =>
    obtain rfl : b = a := Option.some.inj h
    change (p.advance b _).row = _
    unfold Point.advance
    split
    · rfl
    · rfl

end Cursor

/-! ## Nodes one behind the other -/

/-- The nodes stand one behind the other, between a point and the one where the last of them
ends. -/
def Spans : Point → List Node → Point → Prop
  | p, [], q => p = q
  | p, n :: rest, q =>
    p ≤ n.span.start ∧ n.span.start ≤ n.span.stop ∧ Spans n.span.stop rest q

section

variable {p q r : Point} {n : Node} {ns ms : List Node}

/-- Nodes fill a stretch when two parts of them fill two that meet. -/
theorem spans_append_iff : Spans p (ns ++ ms) r ↔ ∃ q, Spans p ns q ∧ Spans q ms r := by
  induction ns generalizing p with
  | nil => simp [Spans]
  | cons n rest ih => simp [Spans, ih, and_assoc]

theorem Spans.append (hns : Spans p ns q) (hms : Spans q ms r) : Spans p (ns ++ ms) r :=
  spans_append_iff.2 ⟨q, hns, hms⟩

theorem Spans.le (h : Spans p ns q) : p ≤ q := by
  induction ns generalizing p with
  | nil => exact le_of_eq h
  | cons n rest ih => exact (h.1.trans h.2.1).trans (ih h.2.2)

/-- Nodes that stand behind a point also stand behind an earlier one. -/
theorem Spans.of_le (hp : p ≤ q) (h : Spans q (n :: ns) r) : Spans p (n :: ns) r :=
  ⟨hp.trans h.1, h.2⟩

/-- Nodes that fill a stretch are inside it. -/
theorem Spans.within (h : Spans p ns q) (hn : n ∈ ns) :
    p ≤ n.span.start ∧ n.span.start ≤ n.span.stop ∧ n.span.stop ≤ q := by
  induction ns generalizing p with
  | nil => cases hn
  | cons m rest ih =>
    obtain ⟨hstart, hspan, hrest⟩ := h
    rcases List.mem_cons.1 hn with rfl | hn
    · exact ⟨hstart, hspan, hrest.le⟩
    · obtain ⟨hbehind, hn⟩ := ih hrest hn
      exact ⟨(hstart.trans hspan).trans hbehind, hn⟩

/-- Nodes that fill a stretch do not overlap. -/
theorem Spans.apart (h : Spans p ns q) :
    ns.Pairwise fun a b => a.span.stop ≤ b.span.start := by
  induction ns generalizing p with
  | nil => exact .nil
  | cons n rest ih => exact .cons (fun m hm => (h.2.2.within hm).1) (ih h.2.2)

/-- The last of the nodes ends where the stretch does. -/
theorem Spans.stop_getLast (h : Spans p ns q) (hn : n ∈ ns.getLast?) : n.span.stop = q := by
  obtain ⟨front, rfl⟩ := List.getLast?_eq_some_iff.1 hn
  obtain ⟨-, -, -, -, hlast⟩ := spans_append_iff.1 h
  exact hlast

theorem Spans.map {f : Node → Node} (hf : ∀ n, (f n).span = n.span) (h : Spans p ns q) :
    Spans p (ns.map f) q := by
  induction ns generalizing p with
  | nil => exact h
  | cons n rest ih =>
    simp only [List.map_cons, Spans, hf]
    exact ⟨h.1, h.2.1, ih h.2.2⟩

end

/-! ## Settled siblings -/

/-- The second of two siblings ends the statement of which the first is the end. It stands on the
row on which the first ends, and only a line feed leads to another row. -/
structure Terminates (a b : Node) : Prop where
  apart : ¬ a.kind.isTerminator
  row : a.endRow = b.startRow
  leaf : b.children = []
  feed : b.endRow = if b.kind = .token "\n" then b.startRow + 1 else b.startRow

/-- The tokens among the siblings that end statements stand directly behind them, and none stands
in front. -/
structure Settled (ns : List Node) : Prop where
  first : ∀ n ∈ ns.find? (!·.isComment), ¬ n.kind.isTerminator
  chain : ns.IsChain fun a b => b.kind.isTerminator → Terminates a b

section

variable {ns ms : List Node}

/-- Without terminators nothing has to be in front of one. -/
theorem settled_of_forall (h : ∀ n ∈ ns, ¬ n.kind.isTerminator) : Settled ns where
  first := fun n hn => h n (List.mem_of_find?_eq_some hn)
  chain := by
    refine List.isChain_iff_forall_rel_of_append_cons_cons.2 fun a b front rest heq => ?_
    exact fun hterminator => absurd hterminator (h b (by simp [heq]))

theorem not_isTerminator_of_isComment {n : Node} (h : n.isComment) : ¬ n.kind.isTerminator := by
  rw [eq_of_beq h]
  decide

theorem not_isDeclaration_of_isComment {n : Node} (h : n.isComment) :
    ¬ n.kind.isDeclaration := by
  rw [eq_of_beq h]
  decide

/-- Settled nodes stay settled behind one another. -/
theorem Settled.append (hns : Settled ns) (hms : Settled ms) : Settled (ns ++ ms) where
  first := by
    intro n hn
    rw [List.find?_append, Option.mem_def, Option.or_eq_some_iff] at hn
    rcases hn with hn | ⟨-, hn⟩
    · exact hns.first n hn
    · exact hms.first n hn
  chain := by
    refine List.isChain_append.2 ⟨hns.chain, hms.chain, fun a _ b hb hterminator => ?_⟩
    -- what comes first in the second run is a comment, or it is no such token
    have hcomment : ¬ b.isComment := fun h => not_isTerminator_of_isComment h hterminator
    obtain ⟨rest, rfl⟩ := List.head?_eq_some_iff.1 hb
    refine absurd hterminator (hms.first b ?_)
    simp [hcomment]

/-- Without the comments in front, settled siblings are settled. -/
theorem Settled.of_append (hns : ∀ n ∈ ns, n.isComment) (h : Settled (ns ++ ms)) : Settled ms where
  first := by
    have hnone : ns.find? (!·.isComment) = none :=
      List.find?_eq_none.2 fun n hn => by simp [hns n hn]
    have hfirst := h.first
    rwa [List.find?_append, hnone, Option.none_or] at hfirst
  chain := (List.isChain_append.1 h.chain).2.1

/-- Settled siblings stay so when nothing but their roles changes. -/
theorem Settled.map {f : Node → Node} (hkind : ∀ n, (f n).kind = n.kind)
    (hspan : ∀ n, (f n).span = n.span) (hchildren : ∀ n, (f n).children = n.children)
    (h : Settled ns) : Settled (ns.map f) where
  first := by
    intro n hn
    have hcomment : ((!·.isComment) ∘ f) = (!·.isComment) := by
      funext n
      simp only [Function.comp_apply, Node.isComment, hkind]
    rw [List.find?_map, hcomment] at hn
    obtain ⟨m, hm, rfl⟩ := Option.map_eq_some_iff.1 hn
    rw [hkind]
    exact h.first m hm
  chain := by
    refine (List.isChain_map f).2 (h.chain.imp fun a b hab hterminator => ?_)
    rw [hkind] at hterminator
    obtain ⟨hapart, hrow, hleaf, hfeed⟩ := hab hterminator
    constructor
    · rwa [hkind]
    · rwa [Node.endRow, Node.startRow, hspan, hspan]
    · rwa [hchildren]
    · rwa [Node.endRow, Node.startRow, hspan, hkind]

end

/-! ## Nodes with their children -/

namespace Node

/-- The layout at a node: its children are nested in it, the first of them is no comment, and when
they include declarations they are settled. -/
structure LaysOut (n : Node) : Prop where
  nests : n.NestsChildren
  head : ∀ c ∈ n.children.head?, ¬ c.isComment
  settled : Settled n.children ∨ ∀ c ∈ n.children, ¬ c.kind.isDeclaration

/-- All nodes of a tree are laid out. -/
def IsLaidOut (n : Node) : Prop := ∀ m ∈ n.preorder, m.LaysOut

/-- A tree is laid out when its root and the trees below it are. -/
theorem isLaidOut_mk {n : Node} (h : n.LaysOut) (hchildren : ∀ c ∈ n.children, c.IsLaidOut) :
    n.IsLaidOut := by
  intro m hm
  rcases mem_preorder_iff.1 hm with rfl | ⟨c, hc, hm⟩
  · exact h
  · exact hchildren c hc m hm

theorem IsLaidOut.laysOut {n : Node} (h : n.IsLaidOut) : n.LaysOut := h n (mem_preorder_self n)

theorem IsLaidOut.of_mem_children {n c : Node} (h : n.IsLaidOut) (hc : c ∈ n.children) :
    c.IsLaidOut :=
  fun m hm => h m (mem_preorder_iff.2 (.inr ⟨c, hc, hm⟩))

/-- In a tree that is laid out the children are inside their parents. -/
theorem IsLaidOut.isNested {n : Node} (h : n.IsLaidOut) : n.IsNested := fun m hm => (h m hm).nests

/-- A leaf is laid out when it does not end before it starts. -/
theorem isLaidOut_of_children_eq_nil {n : Node} (hspan : n.span.start ≤ n.span.stop)
    (h : n.children = []) : n.IsLaidOut := by
  refine isLaidOut_mk ⟨⟨hspan, ?_, ?_⟩, ?_, .inr ?_⟩ ?_ <;> simp [h]

theorem IsLaidOut.withRole {n : Node} (h : n.IsLaidOut) (r : Role) : (n.withRole r).IsLaidOut := by
  obtain ⟨head, children⟩ := n
  obtain ⟨⟨hspan, hwithin, hapart⟩, hhead, hsettled⟩ := h.laysOut
  exact isLaidOut_mk ⟨⟨hspan, hwithin, hapart⟩, hhead, hsettled⟩ fun c hc => h.of_mem_children hc

end Node

/-! ## Between tokens -/

/-- What stands between two tokens: comments, one behind the other. With `line` no line feed stands
behind them. -/
structure Between (line : Bool) (c : Cursor) (ns : List Node) (d : Cursor) : Prop where
  comments : ∀ n ∈ ns, n.isComment ∧ n.children = []
  reaches : c.Reaches d
  spans : ∃ q, Spans c.point ns q ∧ q ≤ d.point ∧ (line → q.row = d.point.row)

theorem Between.nil (line : Bool) (c : Cursor) : Between line c [] c :=
  ⟨List.forall_mem_nil _, .refl c, c.point, rfl, le_rfl, fun _ => rfl⟩

/-- White space before what stands between two tokens. -/
theorem Between.blank {line : Bool} {c d e : Cursor} {ns : List Node} (hreaches : c.Reaches d)
    (hrow : line → c.point.row = d.point.row) (h : Between line d ns e) : Between line c ns e := by
  obtain ⟨hcomments, hreaches', q, hspans, hq, hline⟩ := h
  refine ⟨hcomments, hreaches.trans hreaches', ?_⟩
  cases ns with
  | nil =>
    obtain rfl : d.point = q := hspans
    exact ⟨c.point, rfl, hreaches.point_le.trans hq, fun hl => (hrow hl).trans (hline hl)⟩
  | cons n rest => exact ⟨q, hspans.of_le hreaches.point_le, hq, hline⟩

/-- A comment before what stands between two tokens. -/
theorem Between.comment {line : Bool} {c e : Cursor} {ns : List Node} (k : Nat)
    (h : Between line (c.advance k) ns e) :
    Between line c ((c.leaf .comment k).1 :: ns) e := by
  obtain ⟨hcomments, hreaches, q, hspans, hq, hline⟩ := h
  refine ⟨List.forall_mem_cons.2 ⟨⟨rfl, rfl⟩, hcomments⟩, ?_, q, ?_, hq, hline⟩
  · exact (c.reaches_advance k).trans hreaches
  · exact ⟨le_rfl, c.point_le_advance k, hspans⟩

/-- What is skipped is comments, blanks and line feeds. -/
theorem between_triviaLoop (line : Bool) (fuel : Nat) (c : Cursor) :
    Between line c (c.triviaLoop line fuel).1 (c.triviaLoop line fuel).2 := by
  fun_induction Cursor.triviaLoop line fuel c with
  | case1 c => exact .nil line c
  | case2 _ c => exact .nil line c
  | case3 fuel c a rest hrest hspace ih =>
    refine .blank (c.reaches_advance 1) (fun hline => ?_) ih
    have hfeed : a ≠ '\n' := by
      rintro rfl
      simp [hline] at hspace
    have hhead : c.rest.head? = some a := by rw [hrest, List.head?_cons]
    rw [Cursor.row_advance_one hhead, if_neg hfeed]
  | case4 _ c => exact .nil line c
  | case5 fuel c a rest hrest _ k _ comment next hleaf more last hmore ih =>
    obtain ⟨rfl, rfl⟩ := Prod.mk.inj hleaf
    rw [hmore] at ih
    exact .comment k ih

theorem between_trivia (line : Bool) (c : Cursor) :
    Between line c (c.trivia line).1 (c.trivia line).2 :=
  between_triviaLoop line _ c

/-! ## Runs -/

/-- The nodes may stand in a run of the setting. -/
def Setting.Admits : Setting → List Node → Prop
  | .one _, ns => ∀ n ∈ ns, ¬ n.kind.isTerminator
  | .many _, ns => Settled ns
  | .header, ns => ∀ n ∈ ns, ¬ n.kind.isDeclaration

/-- The layout of a run between two cursors. -/
structure Layout (m : Setting) (c : Cursor) (ns : List Node) (d : Cursor) : Prop where
  reaches : c.Reaches d
  spans : Spans c.point ns d.point
  laidOut : ∀ n ∈ ns, n.IsLaidOut
  last : ∀ n ∈ ns.getLast?, ¬ n.isComment
  admitted : m.Admits ns

section

variable {m : Setting} {ns ms : List Node}

/-- What is neither a declaration nor a terminator may stand anywhere. -/
theorem Setting.admits_of_forall
    (h : ∀ n ∈ ns, ¬ n.kind.isDeclaration ∧ (m ≠ .header → ¬ n.kind.isTerminator)) :
    m.Admits ns := by
  cases m with
  | one => exact fun n hn => (h n hn).2 nofun
  | many => exact settled_of_forall fun n hn => (h n hn).2 nofun
  | header => exact fun n hn => (h n hn).1

/-- What a setting admits it also admits behind one another. -/
theorem Setting.Admits.append (hns : m.Admits ns) (hms : m.Admits ms) : m.Admits (ns ++ ms) := by
  cases m with
  | one => exact List.forall_mem_append.2 ⟨hns, hms⟩
  | many => exact Settled.append hns hms
  | header => exact List.forall_mem_append.2 ⟨hns, hms⟩

theorem Setting.Admits.map {f : Node → Node} (hkind : ∀ n, (f n).kind = n.kind)
    (hspan : ∀ n, (f n).span = n.span) (hchildren : ∀ n, (f n).children = n.children)
    (h : m.Admits ns) : m.Admits (ns.map f) := by
  cases m with
  | one =>
    refine List.forall_mem_map.2 fun n hn => ?_
    rw [hkind]
    exact h n hn
  | many => exact Settled.map hkind hspan hchildren h
  | header =>
    refine List.forall_mem_map.2 fun n hn => ?_
    rw [hkind]
    exact h n hn

end

section

variable {kind : Kind} {m : Setting} {c d e : Cursor} {ns ms : List Node}

/-- What stands between tokens is comments, which are leaves. -/
theorem isLaidOut_of_between {line : Bool} (h : Between line c ns d) :
    ∀ n ∈ ns, n.IsLaidOut := by
  obtain ⟨hcomments, -, q, hspans, -⟩ := h
  exact fun n hn =>
    Node.isLaidOut_of_children_eq_nil (hspans.within hn).2.1 (hcomments n hn).2

theorem Layout.nil (m : Setting) (c : Cursor) : Layout m c [] c :=
  ⟨.refl c, rfl, List.forall_mem_nil _, nofun, Setting.admits_of_forall (List.forall_mem_nil _)⟩

/-- Two stretches that meet make one. -/
theorem Layout.append (hns : Layout m c ns d) (hms : Layout m d ms e) :
    Layout m c (ns ++ ms) e where
  reaches := hns.reaches.trans hms.reaches
  spans := hns.spans.append hms.spans
  laidOut := List.forall_mem_append.2 ⟨hns.laidOut, hms.laidOut⟩
  last := by
    intro n hn
    rw [List.getLast?_append, Option.mem_def, Option.or_eq_some_iff] at hn
    rcases hn with hn | ⟨-, hn⟩
    · exact hms.last n hn
    · exact hns.last n hn
  admitted := hns.admitted.append hms.admitted

/-- Comments and a leaf. -/
theorem layout_take {k : Nat} (hkind : kind ≠ .comment) (hdeclaration : ¬ kind.isDeclaration)
    (hterminator : m ≠ .header → ¬ kind.isTerminator) (h : Rule.take kind k c = .ok (ns, d)) :
    Layout m c ns d := by
  rw [Rule.take_eq] at h
  obtain ⟨rfl, rfl⟩ := Prod.mk.inj (Except.ok.inj h)
  have hbetween := between_trivia false c
  obtain ⟨q, hspans, hq, -⟩ := hbetween.spans
  have hpoint := (c.trivia false).2.point_le_advance k
  exact {
    reaches := hbetween.reaches.trans ((c.trivia false).2.reaches_advance k)
    spans := hspans.append ⟨hq, hpoint, rfl⟩
    laidOut := by
      refine List.forall_mem_append.2 ⟨isLaidOut_of_between hbetween, ?_⟩
      exact List.forall_mem_singleton.2 (Node.isLaidOut_of_children_eq_nil hpoint rfl)
    last := by
      intro n hn
      rw [List.getLast?_concat] at hn
      cases hn
      simpa [Cursor.leaf, Node.leaf, Node.isComment, Node.kind, Node.head] using hkind
    admitted := by
      refine Setting.admits_of_forall (List.forall_mem_append.2 ⟨fun n hn => ?_, ?_⟩)
      · have hcomment := (hbetween.comments n hn).1
        exact ⟨not_isDeclaration_of_isComment hcomment,
          fun _ => not_isTerminator_of_isComment hcomment⟩
      · exact List.forall_mem_singleton.2 ⟨hdeclaration, hterminator⟩ }

/-- Roles do not change a layout. -/
theorem Layout.labelled (h : Layout m c ns d) (r : Role) : Layout m c (Node.labelled r ns) d := by
  have hsame : ∀ n : Node, ∀ n', n' = (if n.isComment then n else n.withRole r) →
      n'.kind = n.kind ∧ n'.span = n.span ∧ n'.children = n.children := by
    rintro ⟨head, children⟩ n' rfl
    split
    · exact ⟨rfl, rfl, rfl⟩
    · exact ⟨rfl, rfl, rfl⟩
  exact {
    reaches := h.reaches
    spans := h.spans.map fun n => (hsame n _ rfl).2.1
    laidOut := by
      refine List.forall_mem_map.2 fun n hn => ?_
      split
      · exact h.laidOut n hn
      · exact (h.laidOut n hn).withRole r
    last := by
      intro n hn
      rw [Node.labelled, List.getLast?_map] at hn
      obtain ⟨k, hk, rfl⟩ := Option.map_eq_some_iff.1 hn
      rw [Node.isComment, (hsame k _ rfl).1]
      exact h.last k hk
    admitted := h.admitted.map (fun n => (hsame n _ rfl).1) (fun n => (hsame n _ rfl).2.1)
      fun n => (hsame n _ rfl).2.2 }

/-- Nodes that do not end with a comment are comments and something else in front of the rest. -/
theorem eq_nil_or_front (h : ∀ n ∈ ns.getLast?, ¬ n.isComment) :
    ns = [] ∨ ∃ front first rest, ns = front ++ first :: rest ∧ (∀ n ∈ front, n.isComment) ∧
      ¬ first.isComment := by
  induction ns with
  | nil => exact .inl rfl
  | cons n rest ih =>
    refine .inr ?_
    by_cases hn : n.isComment
    · have hrest : rest ≠ [] := by
        rintro rfl
        exact h n rfl hn
      obtain ⟨front, first, rest, rfl, hfront, hfirst⟩ := (ih fun k hk => h k (by
        rwa [List.getLast?_cons_of_ne_nil hrest])).resolve_left hrest
      exact ⟨n :: front, first, rest, rfl, List.forall_mem_cons.2 ⟨hn, hfront⟩, hfirst⟩
    · exact ⟨[], n, rest, rfl, List.forall_mem_nil _, hn⟩

/-- The comments in front stay outside the node. -/
theorem Node.enclose_front {front rest : List Node} {first : Node}
    (hfront : ∀ n ∈ front, n.isComment) (hfirst : ¬ first.isComment) :
    enclose kind (front ++ first :: rest) =
      front ++ [.mk ⟨kind, none, spanOf first rest, "", false⟩ (first :: rest)] := by
  have hstop : (first :: rest).takeWhile isComment = [] := by simp [hfirst]
  have hstart : (first :: rest).dropWhile isComment = first :: rest := by simp [hfirst]
  rw [enclose, List.takeWhile_append_of_pos hfront, List.dropWhile_append_of_pos hfront, hstop,
    hstart, List.append_nil]

/-- A node around a run. -/
theorem Layout.enclose {m' : Setting} (h : Layout m' c ns d) (hkind : kind ≠ .comment)
    (hsettled : Settled ns ∨ ∀ n ∈ ns, ¬ n.kind.isDeclaration)
    (hadmits : m.Admits (Node.enclose kind ns)) : Layout m c (Node.enclose kind ns) d := by
  -- the comments in front stay outside, and the node spans the rest of the run; around comments
  -- alone there is no node
  rcases eq_nil_or_front h.last with rfl | ⟨front, first, rest, rfl, hfront, hfirst⟩
  · exact ⟨h.reaches, h.spans, List.forall_mem_nil _, nofun, hadmits⟩
  rw [Node.enclose_front hfront hfirst] at hadmits ⊢
  obtain ⟨q, hspans, hrest⟩ := spans_append_iff.1 h.spans
  obtain ⟨hlaidFront, hlaidRest⟩ := List.forall_mem_append.1 h.laidOut
  have hstop : (Node.spanOf first rest).stop = d.point :=
    hrest.stop_getLast (List.getLast?_eq_some_getLast (List.cons_ne_nil first rest))
  have hnode : first.span.start ≤ d.point := hrest.2.1.trans hrest.2.2.le
  have hlaysOut : (Node.mk ⟨kind, none, Node.spanOf first rest, "", false⟩
      (first :: rest)).LaysOut := {
    nests := {
      start_le_stop := by
        change first.span.start ≤ (Node.spanOf first rest).stop
        rwa [hstop]
      within := by
        intro k hk
        change first.span.start ≤ _ ∧ _ ≤ (Node.spanOf first rest).stop
        rw [hstop]
        have hfrom : Spans first.span.start (first :: rest) d.point := ⟨le_rfl, hrest.2⟩
        exact ⟨(hfrom.within hk).1, (hfrom.within hk).2.2⟩
      apart := hrest.apart }
    head := fun k hk => by
      cases hk
      exact hfirst
    settled := hsettled.imp (Settled.of_append hfront) fun hns k hk =>
      hns k (List.mem_append_right _ hk) }
  exact {
    reaches := h.reaches
    spans := by
      refine hspans.append ⟨hrest.1, ?_, ?_⟩
      · exact hlaysOut.nests.start_le_stop
      · exact hstop
    laidOut := List.forall_mem_append.2 ⟨hlaidFront, List.forall_mem_singleton.2
      (Node.isLaidOut_mk hlaysOut hlaidRest)⟩
    last := by
      intro n hn
      rw [List.getLast?_concat] at hn
      cases hn
      exact fun hcomment => hkind (eq_of_beq hcomment)
    admitted := hadmits }

/-- What comes with a terminator: comments on the row, and the token. -/
theorem terminator?_eq_some {ts : List Node} (h : Rule.terminator? c = .ok (some ts, d)) :
    ∃ comments here n, ts = comments ++ [n] ∧ Between true c comments here ∧
      here.Reaches d ∧ n.span = ⟨here.point, d.point⟩ ∧ n.children = [] ∧ ¬ n.isComment ∧
      n.endRow = if n.kind = .token "\n" then n.startRow + 1 else n.startRow := by
  have hbetween := between_trivia true c
  unfold Rule.terminator? at h
  split at h
  next comments here htrivia =>
  rw [htrivia] at hbetween
  split at h
  · next a rest hrest =>
    split at h
    · next ha =>
      cases h
      refine ⟨comments, here, _, rfl, hbetween, here.reaches_advance 1, rfl, rfl, ?_, ?_⟩
      · exact Bool.false_ne_true
      · have hrow := Cursor.row_advance_one (c := here) (a := a) (by rw [hrest, List.head?_cons])
        simp only [Bool.or_eq_true, beq_iff_eq] at ha
        rcases ha with (rfl | rfl) | rfl
        · exact hrow
        · exact hrow
        · exact hrow
    · cases h
  · cases h

/-- An item and its terminator. -/
theorem Layout.terminated {s : Scope} {ts : List Node} (h : Layout (.one s) c ns d) (hne : ns ≠ [])
    (hts : Rule.terminator? d = .ok (some ts, e)) : Layout (.many s) c (ns ++ ts) e := by
  obtain ⟨comments, here, t, rfl, hbetween, hreaches, hspan, hleaf, hcomment, hfeed⟩ :=
    terminator?_eq_some hts
  obtain ⟨q, hspans, hq, hrow⟩ := hbetween.spans
  have hstart : t.span.start = here.point := by rw [hspan]
  have hstop : t.span.stop = e.point := by rw [hspan]
  have hpoint : t.span.start ≤ t.span.stop := by
    rw [hstart, hstop]
    exact hreaches.point_le
  have hplain : ∀ n ∈ ns ++ comments, ¬ n.kind.isTerminator := by
    refine List.forall_mem_append.2 ⟨h.admitted, fun n hn => ?_⟩
    exact not_isTerminator_of_isComment (hbetween.comments n hn).1
  rw [← List.append_assoc]
  exact {
    reaches := (h.reaches.trans hbetween.reaches).trans hreaches
    spans := by
      refine (h.spans.append hspans).append ⟨?_, hpoint, hstop⟩
      rwa [hstart]
    laidOut := by
      refine List.forall_mem_append.2 ⟨List.forall_mem_append.2 ⟨h.laidOut, ?_⟩, ?_⟩
      · exact isLaidOut_of_between hbetween
      · exact List.forall_mem_singleton.2 (Node.isLaidOut_of_children_eq_nil hpoint hleaf)
    last := by
      intro n hn
      rw [List.getLast?_concat] at hn
      cases hn
      exact hcomment
    admitted := {
      first := by
        -- the item holds something that is not a comment
        obtain ⟨front, first, rest, rfl, hfront, hfirst⟩ :=
          (eq_nil_or_front h.last).resolve_left hne
        intro n hn
        refine hplain n ?_
        have hnone : front.find? (!·.isComment) = none :=
          List.find?_eq_none.2 fun k hk => by simp [hfront k hk]
        simp only [List.append_assoc, List.find?_append, hnone, Option.none_or, List.cons_append,
          List.find?_cons, hfirst, Bool.not_false, Option.mem_def, Option.some.injEq] at hn
        simp [← hn]
      chain := by
        refine List.isChain_append.2 ⟨(settled_of_forall hplain).chain,
          List.isChain_singleton t, fun a ha b hb _ => ?_⟩
        cases hb
        have hend := (h.spans.append hspans).stop_getLast ha
        refine ⟨hplain a (List.mem_of_getLast? ha), ?_, hleaf, hfeed⟩
        rw [Node.endRow, hend, Node.startRow, hstart]
        exact hrow rfl } }

/-! ### All runs -/

/-- Every setting admits a node of a plain kind. -/
theorem Setting.admits_enclose (hk : kind.isPlain) : m.Admits (Node.enclose kind ns) := by
  obtain ⟨hdeclaration, -, -, hterminator⟩ := Kind.isPlain_iff.1 hk
  refine admits_of_forall fun n hn => ?_
  rcases kind_of_mem_enclose hn with hcomment | rfl
  · exact ⟨not_isDeclaration_of_isComment hcomment,
      fun _ => not_isTerminator_of_isComment hcomment⟩
  · exact ⟨hdeclaration, fun _ => hterminator⟩

theorem Setting.admits_declare {s : Scope} (hk : kind.isDeclaration) :
    (Setting.one s).Admits (Node.enclose kind ns) := by
  intro n hn
  rcases kind_of_mem_enclose hn with hcomment | rfl
  · exact not_isTerminator_of_isComment hcomment
  · exact (Kind.of_isDeclaration hk).2.2

/-- A word has a layout. -/
theorem layout_word (hk : kind.isName || kind.isFree) (h : Rule.word kind c = .ok (ns, d)) :
    Layout m c ns d := by
  have hkind : ¬ kind.isDeclaration ∧ kind ≠ .comment ∧ ¬ kind.isTerminator := by
    rcases Bool.or_eq_true_iff.1 hk with hk | hk
    · exact Kind.of_isName hk
    · obtain ⟨hdeclaration, -, hkind⟩ := Kind.of_isFree hk
      exact ⟨hdeclaration, hkind⟩
  rw [Rule.word_eq] at h
  split at h
  · cases h
  · exact layout_take hkind.2.1 hkind.1 (fun _ => hkind.2.2) h

/-- **The layout of runs.** -/
theorem Run.layout (h : Run m c ns d) : Layout m c ns d := by
  induction h with
  | nil m c => exact .nil m c
  | append _ _ ihns ihms => exact ihns.append ihms
  | leaf hk h =>
    obtain ⟨hdeclaration, -, hkind, hterminator⟩ := Kind.of_isFree hk
    exact layout_take hkind hdeclaration (fun _ => hterminator) h
  | word hk h => exact layout_word hk h
  | name hk h => exact (layout_word (by simp [hk]) h).labelled .name
  | dot _ h => exact (layout_take (by decide) (by decide) (fun _ => by decide) h).labelled .name
  | @labelled role _ _ _ _ _ _ _ ih => exact ih.labelled role
  | enclose hk _ _ _ ih =>
    exact ih.enclose (Kind.isPlain_iff.1 hk).2.2.1 (.inl ih.admitted) (Setting.admits_enclose hk)
  | declare hk _ _ _ ih =>
    exact ih.enclose (Kind.of_isDeclaration hk).2.1 (.inl ih.admitted)
      (Setting.admits_declare hk)
  | header hk _ ih =>
    have hplain := isPlain_of_mem_headerKinds hk
    exact ih.enclose (Kind.isPlain_iff.1 hplain).2.2.1 (.inr ih.admitted)
      (Setting.admits_enclose hplain)
  | semicolon h => exact layout_take (by decide) (by decide) (fun hm => absurd rfl hm) h
  | items _ ih =>
    exact ⟨ih.reaches, ih.spans, ih.laidOut, ih.last, settled_of_forall ih.admitted⟩
  | placed _ ih => exact ⟨ih.reaches, ih.spans, ih.laidOut, ih.last, ih.admitted⟩
  | terminated _ hne hts ih => exact ih.terminated hne hts

/-- **The layout of a file**: its items are laid out and settled, one behind the other up to the end
of the source. -/
theorem IsFile.layout (h : IsFile c ns) :
    (∃ q, Spans c.point ns q ∧ q ≤ (c.advance c.rest.length).point) ∧
      (∀ n ∈ ns, n.IsLaidOut) ∧ Settled ns := by
  obtain ⟨items, d, rfl, hitems⟩ := h
  have hlayout := hitems.layout
  have hbetween := between_trivia false d
  obtain ⟨q, hspans, hq, -⟩ := hbetween.spans
  refine ⟨⟨q, hlayout.spans.append hspans, ?_⟩, ?_, ?_⟩
  · exact hq.trans (hlayout.reaches.trans hbetween.reaches).le_end
  · exact List.forall_mem_append.2 ⟨hlayout.laidOut, isLaidOut_of_between hbetween⟩
  · refine Settled.append hlayout.admitted (settled_of_forall fun n hn => ?_)
    exact not_isTerminator_of_isComment (hbetween.comments n hn).1

end

/-! ## Trees -/

namespace Tree

theorem isFault_faultOf (failure : Failure) : (faultOf failure).isFault := by
  unfold faultOf
  split
  · rfl
  · rfl

/-- The tree of a text is that of a file, or it holds a fault. -/
theorem isFile_ofSource (text : List Char) :
    (∃ c items, IsFile c items ∧
      ofSource text = root c.point (c.advance c.rest.length).point items) ∨
    ∃ fault, fault.isFault ∧ fault ∈ (ofSource text).children := by
  unfold ofSource
  dsimp only
  split
  · next items d h =>
    split
    · exact .inr ⟨_, rfl, List.mem_singleton_self _⟩
    · exact .inl ⟨_, items, ensures_fileRule _ h, rfl⟩
  · exact .inr ⟨_, isFault_faultOf _, List.mem_singleton_self _⟩

end Tree

end GoOutline.Syntax

namespace GoOutline

open GoOutline.Syntax

/-- The tree of an accepted source is that of a file. -/
theorem exists_isFile_of_parse {path : String} {source : List UInt8} {p : Parsed}
    (h : parse path source = .ok p) :
    ∃ c items, IsFile c items ∧
      p.tree = Tree.root c.point (c.advance c.rest.length).point items := by
  obtain ⟨text, -, hfault, -, rfl⟩ := parse_eq_ok_iff.1 h
  rw [Tree.firstFault?_eq_find? Node.hasFault_iff, List.find?_eq_none] at hfault
  rcases Tree.isFile_ofSource text with hfile | ⟨fault, hisFault, hmem⟩
  · exact hfile
  · exact absurd hisFault (hfault fault (Node.mem_preorder_of_mem_children hmem))

/-- **The layout of accepted sources**: the tree is nested, the nodes below its root are laid out,
and those at the top level are settled. -/
theorem layout_of_parse {path : String} {source : List UInt8} {p : Parsed}
    (h : parse path source = .ok p) :
    p.tree.IsNested ∧ (∀ n ∈ p.tree.children, n.IsLaidOut) ∧ Settled p.tree.children := by
  obtain ⟨c, items, hfile, htree⟩ := exists_isFile_of_parse h
  obtain ⟨⟨q, hspans, hq⟩, hlaidOut, hsettled⟩ := hfile.layout
  rw [htree]
  refine ⟨fun m hm => ?_, hlaidOut, hsettled⟩
  rcases Node.mem_preorder_iff.1 hm with rfl | ⟨n, hn, hm⟩
  · refine ⟨c.point_le_advance _, fun n hn => ?_, hspans.apart⟩
    exact ⟨(hspans.within hn).1, (hspans.within hn).2.2.trans hq⟩
  · exact (hlaidOut n hn).isNested m hm

end GoOutline
