import GoOutline.Proofs.Outline.Binding
import GoOutline.Proofs.Outline.Receivers
import GoOutline.Proofs.Syntax.Faults

/-!
# Comments inside of types

Comments may stand between any two parts of a type. The readings of types go by the roles of nodes,
which comments do not have, so most comments leave no trace in them. Only what a star stands before
is read off as the first node behind it: a comment there hides the type.

## Main definitions

* `Node.InsertsComments`: one tree is another with comments put into it
* `Node.withoutComments`: a tree without its comments
* `HasPlainStars`: no comment stands first behind a star
* `TypeExpr.Blurs`: types that differ in what stars stand before

## Main results

* `Node.insertsComments_withoutComments`: every tree is made of one without comments
* `blurs_ofNode`: the types of a tree before and after comments are put into it
* `reads_of_insertsComments`: what types, fields, parameters, results and receivers read like
-/

namespace GoOutline

open GoOutline.Syntax GoOutline.Text

/-! ## Inserted comments -/

namespace Syntax.Node

/-- The node is a comment without a role. -/
structure IsExtra (c : Node) : Prop where
  kind : c.kind = .comment
  role : c.role = none

/-- Comments are put between nodes, which are related one by one to those that stood there. -/
inductive Interleaves (R : Node → Node → Prop) : List Node → List Node → Prop where
  | nil : Interleaves R [] []
  | keep {n n' : Node} {ns ns' : List Node} : R n n' → Interleaves R ns ns' →
    Interleaves R (n :: ns) (n' :: ns')
  | insert {c : Node} {ns ns' : List Node} : IsExtra c → Interleaves R ns ns' →
    Interleaves R ns (c :: ns')

/-- The second tree is the first with comments among the children of its nodes. The nodes may cover
other stretches of text. -/
inductive InsertsComments : Node → Node → Prop where
  | mk {head head' : Head} {children children' : List Node} :
    { head' with span := head.span } = head → Interleaves InsertsComments children children' →
    InsertsComments (.mk head children) (.mk head' children')

namespace Interleaves

variable {R : Node → Node → Prop} {ns ns' : List Node} {p : Node → Bool}

/-- The first nodes with a property that no comment has are related. -/
theorem find? (h : Interleaves R ns ns') (hkeep : ∀ n n', R n n' → p n' = p n)
    (hextra : ∀ c, IsExtra c → p c = false) : Option.Rel R (ns.find? p) (ns'.find? p) := by
  induction h with
  | nil => exact .none
  | @keep n n' ns ns' hn _ ih =>
    rw [List.find?_cons, List.find?_cons, hkeep n n' hn]
    cases p n with
    | true => exact .some hn
    | false => exact ih
  | @insert c ns ns' hc _ ih =>
    rw [List.find?_cons, hextra c hc]
    exact ih

/-- So are all nodes with such a property, one by one. -/
theorem filter (h : Interleaves R ns ns') (hkeep : ∀ n n', R n n' → p n' = p n)
    (hextra : ∀ c, IsExtra c → p c = false) : List.Forall₂ R (ns.filter p) (ns'.filter p) := by
  induction h with
  | nil => exact .nil
  | @keep n n' ns ns' hn _ ih =>
    rw [List.filter_cons, List.filter_cons, hkeep n n' hn]
    split
    · exact .cons hn ih
    · exact ih
  | @insert c ns ns' hc _ ih =>
    rw [List.filter_cons, hextra c hc]
    exact ih

/-- The first node with a property is related to the one before, or it is a comment put there. -/
theorem find?_or (h : Interleaves R ns ns') (hkeep : ∀ n n', R n n' → p n' = p n) :
    Option.Rel R (ns.find? p) (ns'.find? p) ∨ ∃ c ∈ ns'.find? p, IsExtra c := by
  induction h with
  | nil => exact .inl .none
  | @keep n n' ns ns' hn _ ih =>
    rw [List.find?_cons, List.find?_cons, hkeep n n' hn]
    cases p n with
    | true => exact .inl (.some hn)
    | false => exact ih
  | @insert c ns ns' hc _ ih =>
    rw [List.find?_cons]
    cases p c with
    | true => exact .inr ⟨c, rfl, hc⟩
    | false => exact ih

theorem imp {S : Node → Node → Prop} (h : Interleaves R ns ns')
    (hRS : ∀ n, ∀ n' ∈ ns', R n n' → S n n') : Interleaves S ns ns' := by
  induction h with
  | nil => exact .nil
  | keep hn _ ih =>
    exact .keep (hRS _ _ List.mem_cons_self hn)
      (ih fun m m' hm' => hRS m m' (List.mem_cons_of_mem _ hm'))
  | insert hc _ ih => exact .insert hc (ih fun m m' hm' => hRS m m' (List.mem_cons_of_mem _ hm'))

end Interleaves

namespace InsertsComments

variable {n n' : Node}

theorem kind (h : InsertsComments n n') : n'.kind = n.kind := by
  cases h with
  | mk hhead _ => exact (congrArg Head.kind hhead :)

theorem role (h : InsertsComments n n') : n'.role = n.role := by
  cases h with
  | mk hhead _ => exact (congrArg Head.role hhead :)

theorem text (h : InsertsComments n n') : n'.text = n.text := by
  cases h with
  | mk hhead _ => exact (congrArg Head.text hhead :)

theorem children (h : InsertsComments n n') :
    Interleaves InsertsComments n.children n'.children := by
  cases h with
  | mk _ hchildren => exact hchildren

theorem child? (h : InsertsComments n n') (r : Role) :
    Option.Rel InsertsComments (n.child? r) (n'.child? r) := by
  refine h.children.find? (fun m m' hm => by rw [hm.role]) fun c hc => ?_
  rw [hc.role]
  rfl

end InsertsComments

mutual

/-- The tree without the comments below its root. -/
def withoutComments : Node → Node
  | .mk head children => .mk head (withoutCommentsIn children)

/-- Some trees without the comments among and below them. -/
def withoutCommentsIn : List Node → List Node
  | [] => []
  | n :: rest =>
    if n.isComment then withoutCommentsIn rest
    else withoutComments n :: withoutCommentsIn rest

end

/-- **Every tree is made of one without comments**, as long as its comments have no role. -/
theorem insertsComments_withoutComments {n : Node}
    (h : ∀ m ∈ n.preorder, m.isComment → m.role = none) :
    InsertsComments n.withoutComments n := by
  induction n using childInduction with
  | mk head children ih =>
    rw [withoutComments]
    refine .mk rfl ?_
    have hchild : ∀ c ∈ children, ∀ m ∈ c.preorder, m.isComment → m.role = none :=
      fun c hc m hm => h m (mem_preorder_iff.2 (.inr ⟨c, hc, hm⟩))
    clear h
    -- along the children, each of which is kept or one of the comments
    induction children with
    | nil => exact .nil
    | cons c rest ihrest =>
      rw [List.forall_mem_cons] at hchild
      have hrest := ihrest (fun d hd => ih d (List.mem_cons_of_mem _ hd)) hchild.2
      rw [withoutCommentsIn]
      split
      next hc => exact .insert ⟨by simpa [isComment] using hc,
        hchild.1 c (mem_preorder_self c) hc⟩ hrest
      next => exact .keep (ih c List.mem_cons_self hchild.1) hrest

end Syntax.Node

open Syntax.Node

/-! ## Types -/

/-- The first node behind every star is no comment. -/
def HasPlainStars (n : Node) : Prop :=
  ∀ m ∈ n.preorder, m.kind = .pointerType → ∀ c ∈ m.namedChildren.head?, ¬ c.isComment

instance (n : Node) : Decidable (HasPlainStars n) :=
  inferInstanceAs (Decidable (∀ m ∈ n.preorder, m.kind = .pointerType →
    ∀ c ∈ m.namedChildren.head?, ¬ c.isComment))

theorem HasPlainStars.of_mem {m n : Node} (h : HasPlainStars n) (hm : m ∈ n.preorder) :
    HasPlainStars m := fun _ hk => h _ (mem_preorder_trans hk hm)

namespace TypeExpr

/-- The second type is the first, except that what some stars stand before may be unknown in it when
`p` holds. -/
inductive Blurs (p : Prop) : TypeExpr → TypeExpr → Prop where
  | same (e : TypeExpr) : Blurs p e e
  | hidden (e : TypeExpr) : p → Blurs p (.pointer e) (.pointer .unknown)
  | pointer {e e' : TypeExpr} : Blurs p e e' → Blurs p (.pointer e) (.pointer e')
  | slice {e e' : TypeExpr} : Blurs p e e' → Blurs p (.slice e) (.slice e')
  | map {k k' v v' : TypeExpr} : Blurs p k k' → Blurs p v v' → Blurs p (.map k v) (.map k' v')
  | chan {e e' : TypeExpr} : Blurs p e e' → Blurs p (.chan e) (.chan e')

theorem Blurs.mono {p q : Prop} {e e' : TypeExpr} (h : Blurs p e e') (hpq : p → q) :
    Blurs q e e' := by
  induction h with
  | same e => exact .same e
  | hidden e hp => exact .hidden e (hpq hp)
  | pointer _ ih => exact ih.pointer
  | slice _ ih => exact ih.slice
  | map _ _ ihk ihv => exact ihk.map ihv
  | chan _ ih => exact ih.chan

theorem Blurs.eq {p : Prop} {e e' : TypeExpr} (h : Blurs p e e') (hp : ¬ p) : e' = e := by
  induction h with
  | same e => rfl
  | hidden e h => exact absurd h hp
  | pointer _ ih => rw [ih]
  | slice _ ih => rw [ih]
  | map _ _ ihk ihv => rw [ihk, ihv]
  | chan _ ih => rw [ih]

/-- The type of the first node in a role. -/
theorem ofRole_eq (r : Role) (ns : List Node) :
    ofRole r ns = ((ns.find? (·.role == some r)).map ofNode).getD .unknown := by
  induction ns with
  | nil => rfl
  | cons n ns ih =>
    rw [ofRole, List.find?_cons]
    cases n.role == some r with
    | true => rfl
    | false => exact ih

theorem ofNode_comment {c : Node} (h : c.kind = .comment) : ofNode c = .unknown := by
  obtain ⟨head, children⟩ := c
  change head.kind = .comment at h
  rw [ofNode, h]

end TypeExpr

open TypeExpr

section

variable {p : Prop}

/-- The types of two nodes that may be there are related when those of the nodes are. -/
theorem blurs_getD {o o' : Option Node} (h : Option.Rel InsertsComments o o')
    (hchild : ∀ c ∈ o, ∀ c' ∈ o', InsertsComments c c' → Blurs p (ofNode c) (ofNode c')) :
    Blurs p ((o.map ofNode).getD .unknown) ((o'.map ofNode).getD .unknown) := by
  cases h with
  | none => exact .same _
  | some hc => exact hchild _ rfl _ rfl hc

/-- What comes first behind a star is the node from before, or a comment that hides it. -/
theorem blurs_pointer {ns ns' : List Node} (h : Interleaves InsertsComments ns ns')
    (hchild : ∀ c ∈ ns, ∀ c' ∈ ns', InsertsComments c c' → Blurs p (ofNode c) (ofNode c'))
    (hcomment : ∀ c ∈ ns'.find? isNamed, c.isComment → p) :
    Blurs p (.pointer (ofFirstNamed ns)) (.pointer (ofFirstNamed ns')) := by
  rw [ofFirstNamed_eq, ofFirstNamed_eq]
  rcases h.find?_or (p := isNamed) fun m m' hm => by rw [isNamed, isNamed, hm.kind] with
    hrel | ⟨c, hc, hextra⟩
  · exact (blurs_getD hrel fun c hc c' hc' =>
      hchild c (List.mem_of_find?_eq_some hc) c' (List.mem_of_find?_eq_some hc')).pointer
  · rw [Option.mem_def.1 hc, Option.map_some, Option.getD_some, ofNode_comment hextra.kind]
    exact .hidden _ (hcomment c hc (by rw [isComment, hextra.kind]; rfl))

end

/-- **Comments hide at most what stands behind a star.** -/
theorem blurs_ofNode {t t' : Node} (h : InsertsComments t t') :
    Blurs (¬ HasPlainStars t') (ofNode t) (ofNode t') := by
  induction t using childInduction generalizing t' with
  | mk head children ih =>
    obtain ⟨head', children'⟩ := t'
    have hchild : ∀ c ∈ children, ∀ c' ∈ children', InsertsComments c c' →
        Blurs (¬ HasPlainStars (.mk head' children')) (ofNode c) (ofNode c') := by
      intro c hc c' hc' hins
      exact (ih c hc hins).mono (mt fun hplain => hplain.of_mem (mem_preorder_of_mem_children hc'))
    -- a comment has no role, so what has one is found again
    have hrole : ∀ r, Blurs (¬ HasPlainStars (.mk head' children'))
        (ofRole r children) (ofRole r children') := by
      intro r
      rw [ofRole_eq, ofRole_eq]
      exact blurs_getD (h.child? r) fun c hc c' hc' =>
        hchild c (List.mem_of_find?_eq_some hc) c' (List.mem_of_find?_eq_some hc')
    have htext : head'.text = head.text := h.text
    have hkind : head'.kind = head.kind := h.kind
    rw [ofNode, ofNode, hkind, htext]
    split
    case h_1 | h_2 => exact .same _
    case h_3 hpointer =>
      refine blurs_pointer h.children hchild fun c hc hcomment hplain => ?_
      refine hplain _ (mem_preorder_self _) (hkind.trans hpointer) c ?_ hcomment
      rwa [namedChildren, List.head?_filter]
    case h_4 | h_5 | h_6 => exact (hrole .element).slice
    case h_7 => exact (hrole .key).map (hrole .value)
    case h_8 =>
      have hpackage := h.child? .package
      have hname := h.child? .name
      simp only [Node.child?, Node.children] at hpackage hname
      generalize children.find? (·.role == some .package) = p at hpackage ⊢
      generalize children'.find? (·.role == some .package) = p' at hpackage ⊢
      generalize children.find? (·.role == some .name) = n at hname ⊢
      generalize children'.find? (·.role == some .name) = n' at hname ⊢
      cases hpackage with
      | none => exact .same _
      | some hp =>
        cases hname with
        | none => exact .same _
        | some hn =>
          simp only [hp.text, hn.text]
          exact .same _
    case h_10 => exact (hrole .value).chan
    case h_9 | h_11 | h_12 => exact .same _

/-! ## Signatures and fields -/

/-- Comments are put into a tree, but none of them first behind a star. -/
structure InsertsApart (n n' : Node) : Prop where
  inserts : InsertsComments n n'
  plain : HasPlainStars n'

theorem map_eq_of_forall₂ {α β : Type} {R : α → α → Prop} {f : α → β} {xs ys : List α}
    (h : List.Forall₂ R xs ys) (hf : ∀ x y, R x y → f y = f x) : ys.map f = xs.map f := by
  induction h with
  | nil => rfl
  | cons hxy _ ih => rw [List.map_cons, List.map_cons, hf _ _ hxy, ih]

theorem map_eq_of_rel {α β : Type} {R : α → α → Prop} {f : α → β} {o o' : Option α}
    (h : Option.Rel R o o') (hf : ∀ x y, R x y → f y = f x) : o'.map f = o.map f := by
  cases h with
  | none => rfl
  | some hxy => exact congrArg some (hf _ _ hxy)

theorem isSome_eq_of_rel {α : Type} {R : α → α → Prop} {o o' : Option α} (h : Option.Rel R o o') :
    o'.isSome = o.isSome := by
  cases h <;> rfl

namespace InsertsApart

variable {n n' : Node}

/-- The text of a type is the same. -/
theorem renderNode (h : InsertsApart n n') : renderNode n' = renderNode n :=
  congrArg render ((blurs_ofNode h.inserts).eq (not_not.2 h.plain))

theorem children (h : InsertsApart n n') : Interleaves InsertsApart n.children n'.children :=
  h.inserts.children.imp fun _ _ hm hins =>
    ⟨hins, h.plain.of_mem (mem_preorder_of_mem_children hm)⟩

theorem child? (h : InsertsApart n n') (r : Role) :
    Option.Rel InsertsApart (n.child? r) (n'.child? r) := by
  refine h.children.find? (fun m m' hm => by rw [hm.inserts.role]) fun c hc => ?_
  rw [hc.role]
  rfl

theorem texts_childrenWith (h : InsertsApart n n') (r : Role) :
    (n'.childrenWith r).map (·.text) = (n.childrenWith r).map (·.text) := by
  have hnodes : List.Forall₂ InsertsApart (n.childrenWith r) (n'.childrenWith r) := by
    refine h.children.filter (fun m m' hm => by rw [hm.inserts.role]) fun c hc => ?_
    rw [hc.role]
    rfl
  exact map_eq_of_forall₂ hnodes fun _ _ hm => hm.inserts.text

theorem parameterGroups (h : InsertsApart n n') :
    List.Forall₂ InsertsApart (parameterGroups n) (parameterGroups n') := by
  refine h.children.filter (fun m m' hm => ?_) fun c hc => ?_
  · rw [isParameterGroup, isParameterGroup, hm.inserts.kind]
  · rw [isParameterGroup, hc.kind]
    rfl

theorem typeText (h : InsertsApart n n') :
    (n'.child? .type).map TypeExpr.renderNode = (n.child? .type).map TypeExpr.renderNode :=
  map_eq_of_rel (h.child? .type) fun _ _ hm => hm.renderNode

theorem groupType (h : InsertsApart n n') : groupType n' = groupType n := by
  rw [GoOutline.groupType, GoOutline.groupType, h.inserts.kind, h.typeText]

theorem groupParameters (h : InsertsApart n n') : groupParameters n' = groupParameters n := by
  rw [GoOutline.groupParameters, GoOutline.groupParameters, groupNameTexts, groupNameTexts,
    h.texts_childrenWith, h.groupType]

/-- The parameters of a list are the same. -/
theorem parametersOf {list list' : Option Node} (h : Option.Rel InsertsApart list list') :
    parametersOf list' = parametersOf list := by
  cases h with
  | none => rfl
  | some hlist =>
    rw [GoOutline.parametersOf, GoOutline.parametersOf, List.flatMap_def, List.flatMap_def,
      map_eq_of_forall₂ hlist.parameterGroups fun _ _ hm => hm.groupParameters]

/-- The text of a result is the same. -/
theorem returnTypeOf {result result' : Option Node} (h : Option.Rel InsertsApart result result') :
    returnTypeOf result' = returnTypeOf result := by
  cases h with
  | none => rfl
  | @some result result' hresult =>
    have hgroups := hresult.parameterGroups
    have htypes : (GoOutline.parameterGroups result').filterMap GoOutline.groupType =
        (GoOutline.parameterGroups result).filterMap GoOutline.groupType := by
      have h := congrArg (List.filterMap id)
        (map_eq_of_forall₂ hgroups fun _ _ hm => hm.groupType)
      rwa [List.filterMap_map, List.filterMap_map] at h
    rw [GoOutline.returnTypeOf, GoOutline.returnTypeOf, hresult.inserts.kind, hresult.renderNode]
    generalize GoOutline.parameterGroups result = groups at hgroups htypes ⊢
    generalize GoOutline.parameterGroups result' = groups' at hgroups htypes ⊢
    cases hgroups with
    | nil => rfl
    | @cons group group' groups groups' hgroup hrest =>
      cases hrest with
      | nil =>
        have hname := isSome_eq_of_rel (hgroup.child? .name)
        simp only [← Option.not_isSome, hname, hgroup.groupType]
      | cons => simp only [htypes]

/-- The type of the receiver is the same but for the comments. -/
theorem receiverType? (h : InsertsApart n n') :
    Option.Rel InsertsApart (receiverType? n) (receiverType? n') := by
  have hlist := h.child? .receiver
  unfold GoOutline.receiverType?
  generalize n.child? .receiver = list at hlist ⊢
  generalize n'.child? .receiver = list' at hlist ⊢
  cases hlist with
  | none => exact .none
  | @some list list' hlist =>
    have hgroups := hlist.parameterGroups
    simp only [Option.bind_eq_bind, Option.bind_some]
    generalize GoOutline.parameterGroups list = groups at hgroups ⊢
    generalize GoOutline.parameterGroups list' = groups' at hgroups ⊢
    cases hgroups with
    | nil => exact .none
    | cons hgroup => exact hgroup.child? .type

theorem ownerOf (h : InsertsApart n n') : ownerOf n' = ownerOf n := by
  rw [GoOutline.ownerOf, GoOutline.ownerOf, h.renderNode]

theorem hasStar (h : InsertsApart n n') : hasStar n' = hasStar n := by
  have hstar := h.children.find? (p := (·.kind == .token "*"))
    (fun m m' hm => by rw [hm.inserts.kind]) fun c hc => by
      rw [hc.kind]
      rfl
  rw [GoOutline.hasStar, GoOutline.hasStar, ← List.isSome_find?, ← List.isSome_find?]
  exact isSome_eq_of_rel hstar

/-- The names and the types of fields are the same. -/
theorem propertiesOf (h : InsertsApart n n') (before before' : List Node) :
    (propertiesOf ⟨before', n'⟩).map (fun p => (p.name, p.type)) =
      (propertiesOf ⟨before, n⟩).map fun p => (p.name, p.type) := by
  simp only [GoOutline.propertiesOf, h.texts_childrenWith, h.hasStar]
  split
  · have htype := h.child? .type
    generalize n.child? .type = type at htype ⊢
    generalize n'.child? .type = type' at htype ⊢
    cases htype with
    | none => rfl
    | some htype => simp only [List.map_cons, List.map_nil, htype.renderNode]
  · simp only [List.map_map, Function.comp_def, h.typeText]

end InsertsApart

/-- A comment that stands first behind a star hides the type. -/
theorem ofNode_of_comment_first {t c : Node} (hkind : t.kind = .pointerType)
    (hc : t.namedChildren.head? = some c) (hcomment : c.isComment) :
    ofNode t = .pointer .unknown := by
  obtain ⟨head, children⟩ := t
  change head.kind = .pointerType at hkind
  rw [namedChildren, List.head?_filter] at hc
  have hunknown : ofFirstNamed children = .unknown := by
    rw [ofFirstNamed_eq, show children.find? isNamed = some c from hc, Option.map_some,
      Option.getD_some, ofNode_comment (by simpa [isComment] using hcomment)]
  rw [ofNode, hkind, ← hunknown]

/-- **Comments hide at most what they stand before behind a star.** When comments are put into a
tree, the type that it stands for changes at most there: a comment that comes first behind a star
leaves a pointer to a type of unknown shape. Where no comment comes first behind a star, the type
is the same, and so are those of fields, parameters, results and receivers in the tree. -/
theorem reads_of_insertsComments {n n' : Node} (h : InsertsComments n n') :
    Blurs (¬ HasPlainStars n') (ofNode n) (ofNode n') ∧
      (∀ c, n'.kind = .pointerType → n'.namedChildren.head? = some c → c.isComment →
        renderNode n' = "*unknown") ∧
      (HasPlainStars n' →
        ofNode n' = ofNode n ∧
        (∀ r, (n'.child? r).map renderNode = (n.child? r).map renderNode) ∧
        (∀ before before', (propertiesOf ⟨before', n'⟩).map (fun p => (p.name, p.type)) =
          (propertiesOf ⟨before, n⟩).map fun p => (p.name, p.type)) ∧
        (∀ r, parametersOf (n'.child? r) = parametersOf (n.child? r)) ∧
        (∀ r, returnTypeOf (n'.child? r) = returnTypeOf (n.child? r)) ∧
        (receiverType? n').map ownerOf = (receiverType? n).map ownerOf) := by
  refine ⟨blurs_ofNode h, fun c hkind hc hcomment => ?_, fun hplain => ?_⟩
  · rw [renderNode, ofNode_of_comment_first hkind hc hcomment]
    rfl
  · have hapart : InsertsApart n n' := ⟨h, hplain⟩
    exact ⟨(blurs_ofNode h).eq (not_not.2 hplain),
      fun r => map_eq_of_rel (hapart.child? r) fun _ _ hm => hm.renderNode,
      hapart.propertiesOf, fun r => InsertsApart.parametersOf (hapart.child? r),
      fun r => InsertsApart.returnTypeOf (hapart.child? r),
      map_eq_of_rel hapart.receiverType? fun _ _ hm => hm.ownerOf⟩

/-- Comments inside of the types of a field, a receiver, a parameter and a result. -/
def commentedTypes : List UInt8 := Text.Utf8.encode
  "package p

type S struct \x7b
\tF map[/* a */ K /* b */] /* c */ []/* d */*T
\x7d

func (s *S /* e */) M(/* f */ a [/* g */ 2]T) (chan /* h */ <-chan T) \x7b\x7d
".toList

theorem reads_of_insertsComments_commentedTypes :
    ∃ p, parse "t.go" commentedTypes = .ok p ∧
      ∃ field ∈ p.tree.preorder, ∃ method ∈ p.tree.preorder,
      InsertsComments field.withoutComments field ∧ HasPlainStars field ∧
      (field.withoutComments.child? .type).map renderNode = some "map[K][]*T" ∧
      (field.child? .type).map renderNode = some "map[K][]*T" ∧
      InsertsComments method.withoutComments method ∧ HasPlainStars method ∧
      (receiverType? method.withoutComments).map ownerOf = some "S" ∧
      (receiverType? method).map ownerOf = some "S" := by
  have h : (parse "t.go" commentedTypes).toOption.any fun p =>
      (∀ m ∈ p.tree.preorder, m.isComment → m.role = none) ∧ HasPlainStars p.tree ∧
      (∃ field ∈ p.tree.preorder,
        (field.withoutComments.child? .type).map renderNode = some "map[K][]*T") ∧
      ∃ method ∈ p.tree.preorder,
        (receiverType? method.withoutComments).map ownerOf = some "S" := by
    decide +kernel
  obtain ⟨p, hp, hq⟩ := exists_parse_eq_ok h
  obtain ⟨hroles, hplain, ⟨field, hfield, htype⟩, method, hmethod, howner⟩ := of_decide_eq_true hq
  have hinserts : ∀ n ∈ p.tree.preorder, InsertsComments n.withoutComments n := fun n hn =>
    insertsComments_withoutComments fun m hm => hroles m (mem_preorder_trans hm hn)
  have hfieldPlain := hplain.of_mem hfield
  have hmethodPlain := hplain.of_mem hmethod
  obtain ⟨-, htypes, -⟩ := (reads_of_insertsComments (hinserts field hfield)).2.2 hfieldPlain
  obtain ⟨-, -, -, -, -, howners⟩ :=
    (reads_of_insertsComments (hinserts method hmethod)).2.2 hmethodPlain
  exact ⟨p, hp, field, hfield, method, hmethod, hinserts field hfield, hfieldPlain, htype,
    (htypes .type).trans htype, hinserts method hmethod, hmethodPlain, howner,
    howners.trans howner⟩

/-- A comment between a star and the type that it points to. -/
def starredComment : List UInt8 := Text.Utf8.encode
  "package p

type X * /* c */ T
".toList

/-- Comments do change types. -/
theorem not_ofNode_eq_of_insertsComments :
    ¬ ∀ p, parse "t.go" starredComment = .ok p → ∀ t' ∈ p.tree.preorder, ∀ t,
      InsertsComments t t' → ofNode t' = ofNode t := by
  intro hall
  have h : (parse "t.go" starredComment).toOption.any fun p =>
      ∃ t' ∈ p.tree.preorder, (∀ m ∈ t'.preorder, m.isComment → m.role = none) ∧
        ofNode t' ≠ ofNode t'.withoutComments := by
    decide +kernel
  obtain ⟨p, hp, hq⟩ := exists_parse_eq_ok h
  obtain ⟨t', ht', hroles, hne⟩ := of_decide_eq_true hq
  exact hne (hall p hp t' ht' _ (insertsComments_withoutComments hroles))

end GoOutline
