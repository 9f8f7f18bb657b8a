import GoOutline.Proofs.Syntax.Layout

/-!
# The parts of nodes

In the tree of an accepted source every node has the parts that nodes of its kind have: fields and
parameters have a type, functions and methods have parameters, imports have a path, and a struct
type has one list of fields. What stands in the role of the parameters is a list of parameters, and
what stands in the role of a path is a string literal. Import declarations stand at the top level,
and import specifications stand in them or in their lists.

## Main definitions

* `Node.Fits`, `Node.AllFit`: one node, and all nodes of a tree

## Main results

* `Run.admits`, `Run.allFit`: the nodes of every run
* `fits_of_parse`: the nodes of an accepted source
* `Node.Fits.exists_child?`: a part of a node
-/

namespace GoOutline.Syntax

open GoOutline.Text

/-! ## Nodes -/

/-- Names may have any parts and stand anywhere. -/
theorem Kind.unrestricted_of_isName {kind : Kind} (h : kind.isName) :
    kind.isComposed = false ∧ kind.isPlaced = false := by
  cases kind with
  | token spelling => cases h
  | _ =>
    revert h
    decide

/-- Comments in front hold no part. -/
theorem HoldsPart.dropWhile {r : Role} {ns : List Node} (h : HoldsPart r ns) :
    HoldsPart r (ns.dropWhile Node.isComment) := by
  obtain ⟨n, hn, hrole, hcomment⟩ := h
  rw [← List.takeWhile_append_dropWhile (p := Node.isComment) (l := ns), List.mem_append] at hn
  rcases hn with hn | hn
  · exact absurd (List.mem_takeWhile_imp hn) hcomment
  · exact ⟨n, hn, hrole, hcomment⟩

namespace Kind.Fits

variable {kind : Kind} {ns : List Node}

/-- Comments in front do not count. -/
theorem dropWhile (h : kind.Fits ns) : kind.Fits (ns.dropWhile Node.isComment) := by
  have hsplit := List.takeWhile_append_dropWhile (p := Node.isComment) (l := ns)
  constructor
  · exact fun r hr => (h.parts r hr).dropWhile
  · intro hk
    have hfront : (ns.takeWhile Node.isComment).filter (·.kind == .fieldDeclarationList) = [] := by
      refine List.filter_eq_nil_iff.2 fun n hn hkind => ?_
      have hcomment := List.mem_takeWhile_imp hn
      cases (eq_of_beq hkind).symm.trans (eq_of_beq hcomment)
    have hfields := h.fields hk
    rwa [← hsplit, List.filter_append, hfront, List.nil_append] at hfields
  · intro hk
    rcases h.embedded hk with hname | hnone
    · exact .inl (hname.dropWhile)
    · exact .inr fun n hn => hnone n ((List.dropWhile_suffix _).subset hn)

end Kind.Fits

namespace Node

/-- A node has the parts of its kind, it may stand in its role, and its children may stand inside
it. -/
structure Fits (n : Node) : Prop where
  kind : n.kind.Fits n.children
  role : ∀ r, n.role = some r → r.Fits n
  places : ∀ c ∈ n.children, n.kind.within.admits c.kind

/-- All nodes of a tree have the parts of their kinds. -/
def AllFit (n : Node) : Prop := ∀ m ∈ n.preorder, m.Fits

section

variable {n : Node} {ns : List Node} {kind : Kind} {r : Role}

theorem allFit_mk (h : n.Fits) (hchildren : ∀ c ∈ n.children, c.AllFit) : n.AllFit := by
  intro m hm
  rcases mem_preorder_iff.1 hm with rfl | ⟨c, hc, hm⟩
  · exact h
  · exact hchildren c hc m hm

theorem AllFit.fits (h : n.AllFit) : n.Fits := h n (mem_preorder_self n)

theorem AllFit.children (h : n.AllFit) : ∀ c ∈ n.children, c.AllFit :=
  fun c hc m hm => h m (mem_preorder_iff.2 (.inr ⟨c, hc, hm⟩))

theorem AllFit.of_mem {m : Node} (h : n.AllFit) (hm : m ∈ n.preorder) : m.AllFit :=
  fun _ hk => h _ (mem_preorder_trans hk hm)

/-- The nodes of a spelled tree are spelled. -/
theorem Spelled.of_mem (h : n.Spelled) : ∀ m ∈ n.preorder, m.Spelled := by
  induction h with
  | mk hhead hchildren ih =>
    intro m hm
    rcases mem_preorder_iff.1 hm with rfl | ⟨c, hc, hm⟩
    · exact .mk hhead hchildren
    · exact ih c hc m hm

theorem allFit_leaf {span : Span} {text : String} (hk : kind.isComposed = false) :
    (leaf kind span text).AllFit :=
  allFit_mk ⟨Kind.fits_of_not_isComposed hk, nofun, List.forall_mem_nil _⟩ (List.forall_mem_nil _)

/-- A role says nothing of the roles of other nodes. -/
theorem AllFit.withRole (h : n.AllFit) (hr : r.Fits n) : (n.withRole r).AllFit := by
  obtain ⟨head, children⟩ := n
  refine allFit_mk ⟨h.fits.kind, ?_, h.fits.places⟩ h.children
  intro r' hr'
  obtain rfl : r = r' := Option.some.inj hr'
  cases r <;> exact hr

theorem allFit_labelled (h : ∀ n ∈ ns, n.AllFit) (hr : ∀ n ∈ ns, ¬ n.isComment → r.Fits n) :
    ∀ n ∈ labelled r ns, n.AllFit := by
  refine List.forall_mem_map.2 fun n hn => ?_
  split
  · exact h n hn
  · next hcomment => exact (h n hn).withRole (hr n hn hcomment)

theorem allFit_enclose (hk : kind.Fits ns) (hplaces : ∀ n ∈ ns, kind.within.admits n.kind)
    (h : ∀ n ∈ ns, n.AllFit) : ∀ n ∈ enclose kind ns, n.AllFit := by
  intro n hn
  unfold enclose at hn
  rcases List.mem_append.1 hn with hn | hn
  · exact h n ((List.takeWhile_prefix _).subset hn)
  · have hrest := hk.dropWhile
    split at hn
    · cases hn
    · next first rest heq =>
      rw [heq] at hrest
      obtain rfl := List.mem_singleton.1 hn
      have hmem : ∀ c ∈ first :: rest, c ∈ ns := fun c hc =>
        (List.dropWhile_suffix _).subset (heq ▸ hc)
      refine allFit_mk ⟨hrest, ?_, fun c hc => hplaces c (hmem c hc)⟩ fun c hc => h c (hmem c hc)
      intro r hr
      cases hr

/-- **A part that nodes of the kind have** is found by its role. -/
theorem Fits.exists_child? (h : n.Fits) (hk : n.kind = kind) (hr : r ∈ kind.partRoles) :
    ∃ c, n.child? r = some c := by
  obtain ⟨c, hc, hrole, -⟩ := h.kind.parts r (hk ▸ hr)
  cases hfind : n.child? r with
  | some c => exact ⟨c, rfl⟩
  | none =>
    rw [child?, List.find?_eq_none] at hfind
    exact absurd (beq_iff_eq.2 hrole) (hfind c hc)

/-- What is found by its role may stand in it. -/
theorem AllFit.child? (h : n.AllFit) {c : Node} (hc : n.child? r = some c) :
    c.AllFit ∧ r.Fits c := by
  obtain ⟨hmem, hrole⟩ := of_child? hc
  have hfit := h.children c hmem
  exact ⟨hfit, hfit.fits.role r hrole⟩

theorem AllFit.places (h : n.AllFit) (hk : n.kind = kind) :
    ∀ c ∈ n.children, kind.within.admits c.kind := by
  rw [← hk]
  exact h.fits.places

end

end Node

/-! ## Runs -/

section

variable {kind : Kind} {m : Setting} {c d : Cursor} {ns : List Node}

theorem allFit_trivia (line : Bool) (c : Cursor) : ∀ n ∈ (c.trivia line).1, n.AllFit := by
  intro n hn
  obtain ⟨span, text, rfl⟩ := Rule.trivia_leaf line c n hn
  exact Node.allFit_leaf rfl

theorem allFit_take {k : Nat} (hk : kind.isComposed = false)
    (h : Rule.take kind k c = .ok (ns, d)) : ∀ n ∈ ns, n.AllFit := by
  cases h
  refine List.forall_mem_append.2 ⟨allFit_trivia false c, ?_⟩
  exact List.forall_mem_singleton.2 (Node.allFit_leaf hk)

theorem allFit_word (hk : kind.isComposed = false) (h : Rule.word kind c = .ok (ns, d)) :
    ∀ n ∈ ns, n.AllFit := by
  rw [Rule.word_eq] at h
  split at h
  · cases h
  · exact allFit_take hk h

theorem allFit_terminator? (h : Rule.terminator? c = .ok (some ns, d)) : ∀ n ∈ ns, n.AllFit := by
  intro n hn
  obtain ⟨span, text, rfl | ⟨spelling, rfl⟩⟩ := Rule.terminator?_leaf h n hn
  · exact Node.allFit_leaf rfl
  · exact Node.allFit_leaf rfl

theorem admits_of_isComment {n : Node} (h : n.isComment) (s : Scope) : s.admits n.kind :=
  Scope.admits_of_not_isPlaced (by rw [eq_of_beq h]; rfl) s

theorem admits_take {k : Nat} (hk : kind.isPlaced = false)
    (h : Rule.take kind k c = .ok (ns, d)) (s : Scope) : ∀ n ∈ ns, s.admits n.kind := by
  intro n hn
  rcases Rule.ensures_kind_take kind k c h n hn with hcomment | rfl
  · exact admits_of_isComment hcomment s
  · exact Scope.admits_of_not_isPlaced hk s

theorem admits_word (hk : kind.isName || kind.isFree) (h : Rule.word kind c = .ok (ns, d))
    (s : Scope) : ∀ n ∈ ns, s.admits n.kind := by
  intro n hn
  have hplaced : kind.isPlaced = false := by
    rcases Bool.or_eq_true_iff.1 hk with hk | hk
    · exact (Kind.unrestricted_of_isName hk).2
    · exact (Kind.isFree_iff.1 hk).2.2
  rcases Rule.ensures_kind_word kind c h n hn with hcomment | rfl
  · exact admits_of_isComment hcomment s
  · exact Scope.admits_of_not_isPlaced hplaced s

theorem admits_labelled {s : Scope} {r : Role} (h : ∀ n ∈ ns, s.admits n.kind) :
    ∀ n ∈ Node.labelled r ns, s.admits n.kind := by
  intro n hn
  obtain ⟨m, hm, hkind⟩ := Node.kind_of_mem_labelled r hn
  rw [hkind]
  exact h m hm

theorem admits_enclose {s : Scope} (hs : s.admits kind) :
    ∀ n ∈ Node.enclose kind ns, s.admits n.kind := by
  intro n hn
  rcases kind_of_mem_enclose hn with hcomment | rfl
  · exact admits_of_isComment hcomment s
  · exact hs

theorem admits_terminator? (h : Rule.terminator? c = .ok (some ns, d)) (s : Scope) :
    ∀ n ∈ ns, s.admits n.kind := by
  intro n hn
  obtain ⟨span, text, rfl | ⟨spelling, rfl⟩⟩ := Rule.terminator?_leaf h n hn
  · exact Scope.admits_of_not_isPlaced rfl s
  · exact Scope.admits_of_not_isPlaced rfl s

/-- **The nodes of a run** may stand in its place. -/
theorem Run.admits (h : Run m c ns d) : ∀ n ∈ ns, m.scope.admits n.kind := by
  induction h with
  | nil => exact List.forall_mem_nil _
  | append _ _ ihns ihms => exact List.forall_mem_append.2 ⟨ihns, ihms⟩
  | leaf hk h => exact admits_take (Kind.isFree_iff.1 hk).2.2 h _
  | word hk h => exact admits_word hk h _
  | name hk h => exact admits_labelled (admits_word (by rw [hk]; rfl) h _)
  | dot _ h => exact admits_labelled (admits_take rfl h _)
  | labelled _ _ _ ih => exact admits_labelled ih
  | enclose _ hs _ _ _ => exact admits_enclose hs
  | declare _ hs _ _ _ => exact admits_enclose hs
  | header hk _ _ =>
    have hall : ∀ kind ∈ headerKinds, kind.isPlaced = false := by decide
    exact admits_enclose (Scope.admits_of_not_isPlaced (hall _ hk) _)
  | semicolon h => exact admits_take rfl h _
  | items _ ih => exact ih
  | @placed s _ _ _ _ ih =>
    exact fun n hn => Scope.admits_of_not_isPlaced (Scope.not_isPlaced_of_inner (ih n hn)) s
  | terminated _ _ hts ih => exact List.forall_mem_append.2 ⟨ih, admits_terminator? hts _⟩

/-- **The nodes of a run** have the parts of their kinds, by induction on how it comes about. -/
theorem Run.allFit (h : Run m c ns d) : ∀ n ∈ ns, n.AllFit := by
  induction h with
  | nil => exact List.forall_mem_nil _
  | append _ _ ihns ihms => exact List.forall_mem_append.2 ⟨ihns, ihms⟩
  | leaf hk h => exact allFit_take (Kind.isFree_iff.1 hk).2.1 h
  | word hk h =>
    refine allFit_word ?_ h
    rcases Bool.or_eq_true_iff.1 hk with hk | hk
    · exact (Kind.unrestricted_of_isName hk).1
    · exact (Kind.isFree_iff.1 hk).2.1
  | name hk h =>
    have hword := allFit_word (Kind.unrestricted_of_isName hk).1 h
    exact Node.allFit_labelled hword fun _ _ _ => trivial
  | dot _ h => exact Node.allFit_labelled (allFit_take rfl h) fun _ _ _ => trivial
  | labelled _ hr _ ih => exact Node.allFit_labelled ih hr
  | enclose _ _ hf hrun ih => exact Node.allFit_enclose hf hrun.admits ih
  | declare _ _ hf hrun ih => exact Node.allFit_enclose hf hrun.admits ih
  | @header kind _ _ _ _ hk hrun ih =>
    -- what has a header needs no parts, and may hold what stands anywhere
    have hall : ∀ kind ∈ headerKinds, kind.isComposed = false ∧ kind.isPlaced = false := by decide
    obtain ⟨hcomposed, hplaced⟩ := hall kind hk
    refine Node.allFit_enclose (Kind.fits_of_not_isComposed hcomposed) ?_ ih
    rw [Kind.within_of_not_isPlaced hplaced]
    exact hrun.admits
  | semicolon h => exact allFit_take rfl h
  | items _ ih => exact ih
  | placed _ ih => exact ih
  | terminated _ _ hts ih => exact List.forall_mem_append.2 ⟨ih, allFit_terminator? hts⟩

/-- What stands at the top level of a file may stand there. -/
theorem IsFile.admits (h : IsFile c ns) : ∀ n ∈ ns, Scope.file.admits n.kind := by
  obtain ⟨items, d, rfl, hitems⟩ := h
  refine List.forall_mem_append.2 ⟨hitems.admits, fun n hn => ?_⟩
  obtain ⟨span, text, rfl⟩ := Rule.trivia_leaf false d n hn
  rfl

theorem IsFile.allFit (h : IsFile c ns) : ∀ n ∈ ns, n.AllFit := by
  obtain ⟨items, d, rfl, hitems⟩ := h
  exact List.forall_mem_append.2 ⟨hitems.allFit, allFit_trivia false d⟩

end

end GoOutline.Syntax

namespace GoOutline

open GoOutline.Syntax

/-- **The nodes of an accepted source** have the parts of their kinds. -/
theorem fits_of_parse {path : String} {source : List UInt8} {p : Parsed}
    (h : parse path source = .ok p) : p.tree.AllFit := by
  obtain ⟨c, items, hfile, htree⟩ := exists_isFile_of_parse h
  rw [htree]
  exact Node.allFit_mk ⟨Kind.fits_of_not_isComposed rfl, nofun, hfile.admits⟩ hfile.allFit

end GoOutline
