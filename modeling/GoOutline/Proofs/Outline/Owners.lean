import GoOutline.Proofs.Outline.Receivers

/-!
# Owners of methods

A method is bound to the structs whose name the type of its receiver is written with. A struct's
name is a word, and a type that is written as a word is a plain name, so a struct has the methods
whose receivers are of its type. The exceptions are structs named `unknown` or `func`: these two
words also stand for types of many other shapes.

## Main definitions

* `IsNameText`: a text that may be the name of a declaration

## Main results

* `isNameText_of_mem_classes`: the names of structs
* `core_of_ownerOf`: the receivers that name a given owner
* `core_of_bound`: the receivers of bound methods
* `not_core_of_bound`: a bound method whose receiver is of another type
-/

namespace GoOutline

open GoOutline.Syntax GoOutline.Text

/-! ## Texts of names -/

/-- The text may be the name of a declaration: it is made of the characters of words, or it is the
dot of an import. -/
def IsNameText (text : String) : Prop :=
  (∀ c ∈ text.toList, Identifier.isContinue c) ∨ text = "."

theorem isNameText_of_isWord {text : String} (h : Lexeme.IsWord text.toList) : IsNameText text := by
  refine .inl ?_
  generalize text.toList = cs at h
  cases cs with
  | nil => exact fun _ hc => absurd hc List.not_mem_nil
  | cons c rest =>
    obtain ⟨hc, hrest⟩ := h.of_cons
    exact List.forall_mem_cons.2 ⟨Identifier.isContinue_of_isStart hc, List.all_eq_true.1 hrest⟩

/-- A character of a name is one of a word, or the dot that is the name. -/
theorem IsNameText.eq_dot {text : String} (h : IsNameText text) {c : Char} (hc : c ∈ text.toList)
    (hcontinue : Identifier.isContinue c = false) : c = '.' ∧ text = "." := by
  rcases h with hall | rfl
  · exact absurd (hcontinue.symm.trans (hall c hc)) Bool.false_ne_true
  · exact ⟨List.mem_singleton.1 hc, rfl⟩

/-- A node in the role of a name is spelled as one. -/
theorem isNameText_of_role {n : Node} (h : n.Spelled) (hrole : n.role = some .name) :
    IsNameText n.text := by
  rcases h.head.name hrole with hname | hdot
  · exact isNameText_of_isWord (h.head.word hname)
  · exact .inr hdot

theorem isNameText_nameOf {n : Node} (h : n.Spelled) : IsNameText (nameOf n) := by
  unfold nameOf
  cases hc : n.child? .name with
  | none => exact .inl fun _ hc => absurd hc List.not_mem_nil
  | some c =>
    exact isNameText_of_role (h.child? hc) (Node.of_child? hc).2

/-! ## Visits of a spelled tree -/

/-- Every visit to spelled nodes is to a spelled node. -/
theorem spelled_of_mem_under {n : Node} (h : n.Spelled) :
    ∀ before, ∀ v ∈ Visit.under before n, v.node.Spelled := by
  induction h with
  | @mk head children hhead hchildren ih =>
    intro before v hv
    rw [Visit.under_eq] at hv
    rcases List.mem_cons.1 hv with rfl | hv
    · exact .mk hhead hchildren
    split at hv
    · have hall : ∀ ns ⊆ children, ∀ before, ∀ w ∈ Visit.underAll before ns, w.node.Spelled := by
        intro ns
        induction ns with
        | nil => simp
        | cons m rest ihrest =>
          intro hsub before w hw
          obtain ⟨hm, hrest⟩ := List.cons_subset.1 hsub
          rw [Visit.underAll_cons] at hw
          rcases List.mem_append.1 hw with hw | hw
          · exact ih m hm before w hw
          · exact ihrest hrest _ w hw
      exact hall children (List.Subset.refl _) [] v hv
    · exact absurd hv List.not_mem_nil

section

variable {path : String} {source : List UInt8} {p : Parsed}

/-- In an accepted source every visit is to a spelled node. -/
theorem spelled_of_mem_preorder (hp : parse path source = .ok p) {v : Visit}
    (hv : v ∈ Visit.preorder p.tree) : v.node.Spelled :=
  spelled_of_mem_under (spelled_of_parse hp) [] v hv

/-- **The name of a struct** is spelled as one. -/
theorem isNameText_of_mem_classes (hp : parse path source = .ok p) {s : Struct}
    (hs : s ∈ p.outline.classes) : IsNameText s.name := by
  obtain ⟨v, hv, spec, hspec, body, -, -, rfl⟩ := exists_definition_of_mem_classes hs
  have hspelled : spec.Spelled :=
    (spelled_of_mem_preorder hp hv).children spec (List.mem_of_mem_filter hspec)
  exact isNameText_nameOf hspelled

end

/-! ## Types that are written as names -/

namespace TypeExpr

/-- A qualified name is written with a dot between two texts. -/
theorem eq_empty_of_isNameText {before after : String} (h : IsNameText (before ++ "." ++ after)) :
    after = "" := by
  have hmem : '.' ∈ (before ++ "." ++ after).toList := by simp
  have hlength := congrArg String.length (h.eq_dot hmem (by decide)).2
  rw [String.length_append, String.length_append] at hlength
  have hafter : after.length = 0 := by
    change before.length + 1 + after.length = 1 at hlength
    omega
  exact String.length_eq_zero_iff.1 hafter

/-- A type that is written as a name is a name, or of a shape that is not spelled out. -/
theorem cases_of_isNameText {e : TypeExpr} (h : IsNameText e.render) :
    (∃ name, e = .named name) ∨ e = .unknown ∨ e = .func ∨
      ∃ package, e = .qualified package "" := by
  -- every other form has a character that is not one of words, and not the dot
  have hother : ∀ c ∈ e.render.toList, Identifier.isContinue c = false → c = '.' :=
    fun c hc hcontinue => (h.eq_dot hc hcontinue).1
  cases e with
  | named name => exact .inl ⟨name, rfl⟩
  | unknown => exact .inr (.inl rfl)
  | func => exact .inr (.inr (.inl rfl))
  | qualified package name =>
    refine .inr (.inr (.inr ⟨package, ?_⟩))
    rw [eq_empty_of_isNameText h]
  | pointer e => exact absurd (hother '*' (by simp [render]) (by decide)) (by decide)
  | slice e => exact absurd (hother '[' (by simp [render]) (by decide)) (by decide)
  | map key value => exact absurd (hother '[' (by simp [render]) (by decide)) (by decide)
  | interface => exact absurd (hother '\x7b' (by simp [render]) (by decide)) (by decide)
  | chan e => exact absurd (hother ' ' (by simp [render]) (by decide)) (by decide)

variable {n : Node}

theorem isName_of_ofNode_eq_named {name : String} (h : ofNode n = .named name) :
    n.kind.isName ∧ n.text = name := by
  obtain ⟨head, children⟩ := n
  rw [ofNode] at h
  split at h
  · next hkind => exact ⟨congrArg Kind.isName hkind, named.inj h⟩
  · next hkind => exact ⟨congrArg Kind.isName hkind, named.inj h⟩
  all_goals try split at h
  all_goals cases h

/-- A qualified name is made of the texts of its two parts. -/
theorem parts_of_ofNode_eq_qualified {package name : String}
    (h : ofNode n = .qualified package name) :
    (∃ c, n.child? .package = some c ∧ c.text = package) ∧
      ∃ c, n.child? .name = some c ∧ c.text = name := by
  obtain ⟨head, children⟩ := n
  rw [ofNode] at h
  split at h
  all_goals try split at h
  all_goals cases h
  next hpackage hname => exact ⟨⟨_, hpackage, rfl⟩, _, hname, rfl⟩

/-- A qualified name has a name. -/
theorem ne_empty_of_ofNode_eq_qualified {package name : String} (hn : n.Spelled)
    (h : ofNode n = .qualified package name) : name ≠ "" := by
  obtain ⟨-, c, hc, rfl⟩ := parts_of_ofNode_eq_qualified h
  have hspelled := hn.child? hc
  intro hempty
  rcases hspelled.head.name (Node.of_child? hc).2 with hkind | hdot
  · exact (hspelled.head.word hkind).1 (String.toList_eq_nil_iff.2 hempty)
  · exact absurd (hdot.symm.trans hempty) (by decide)

theorem pointee_of_ofNode_eq_pointer {e : TypeExpr} (h : ofNode n = .pointer e) :
    n.kind = .pointerType ∧
      e = ((n.children.find? Node.isNamed).map ofNode).getD .unknown := by
  obtain ⟨head, children⟩ := n
  rw [ofNode] at h
  split at h
  all_goals try split at h
  all_goals cases h
  next hkind => exact ⟨hkind, ofFirstNamed_eq children⟩

end TypeExpr

/-! ## The receivers of an owner -/

section

variable {receiver : Node}

/-- A spelled node that is written as a name is a name, or of a shape that is not spelled out. -/
theorem isName_of_isNameText {n : Node} (h : n.Spelled)
    (hname : IsNameText (TypeExpr.renderNode n)) :
    n.kind.isName ∧ n.text = TypeExpr.renderNode n ∨
      TypeExpr.ofNode n ∈ [TypeExpr.unknown, .func] := by
  rcases TypeExpr.cases_of_isNameText hname with ⟨name, he⟩ | he | he | ⟨package, he⟩
  · obtain ⟨hkind, htext⟩ := TypeExpr.isName_of_ofNode_eq_named he
    refine .inl ⟨hkind, ?_⟩
    rw [TypeExpr.renderNode, he]
    exact htext
  · exact .inr (by simp [he])
  · exact .inr (by simp [he])
  · exact absurd rfl (TypeExpr.ne_empty_of_ofNode_eq_qualified h he)

/-- A receiver that is no pointer names what it is written as. -/
theorem ownerOf_eq_renderNode (h : receiver.Spelled)
    (hpointer : ∀ e, TypeExpr.ofNode receiver ≠ .pointer e)
    (hname : IsNameText (ownerOf receiver)) :
    ownerOf receiver = TypeExpr.renderNode receiver := by
  refine ownerOf_of_ne_star fun rest hrest => ?_
  have howner : ownerOf receiver = String.ofList rest := by
    rw [ownerOf, hrest]
    rfl
  rw [TypeExpr.renderNode] at hrest
  cases he : TypeExpr.ofNode receiver with
  | pointer e => exact hpointer e he
  | named name =>
    obtain ⟨hkind, rfl⟩ := TypeExpr.isName_of_ofNode_eq_named he
    rw [he] at hrest
    exact (h.head.word hkind).ne_star rest hrest
  | qualified package name =>
    -- a dot and a name follow the star, which make no name
    rw [he, TypeExpr.render, String.toList_append, String.toList_append] at hrest
    cases hpackage : package.toList with
    | nil => simp [hpackage] at hrest
    | cons c before =>
      rw [hpackage] at hrest
      have hafter : before ++ ".".toList ++ name.toList = rest := (List.cons.inj hrest).2
      have htext : String.ofList rest = String.ofList before ++ "." ++ name := by
        rw [← hafter, String.ofList_append, String.ofList_append, String.ofList_toList,
          String.ofList_toList]
      rw [howner, htext] at hname
      exact TypeExpr.ne_empty_of_ofNode_eq_qualified h he (TypeExpr.eq_empty_of_isNameText hname)
  | slice e => simp [he, TypeExpr.render] at hrest
  | map key value => simp [he, TypeExpr.render] at hrest
  | interface => simp [he, TypeExpr.render] at hrest
  | chan e => simp [he, TypeExpr.render] at hrest
  | func => simp [he, TypeExpr.render] at hrest
  | unknown => simp [he, TypeExpr.render] at hrest

/-- **The receivers that name an owner.** When the name that a receiver binds its method to could be
that of a declaration, the core of the receiver is that name, or the receiver is of a shape that is
not spelled out, perhaps behind a star, and the name is the text of that shape. -/
theorem core_of_ownerOf (h : receiver.Spelled) (hname : IsNameText (ownerOf receiver)) :
    (core true receiver).kind.isName ∧ (core true receiver).text = ownerOf receiver ∨
      ∃ e ∈ [TypeExpr.unknown, .func], ownerOf receiver = e.render ∧
        (TypeExpr.ofNode receiver = e ∨ TypeExpr.ofNode receiver = .pointer e) := by
  -- behind a pointer the owner is what is pointed to, otherwise the receiver itself
  by_cases hpointer : ∃ e, TypeExpr.ofNode receiver = .pointer e
  · obtain ⟨e, he⟩ := hpointer
    have howner : ownerOf receiver = e.render :=
      ownerOf_of_star (by rw [TypeExpr.renderNode, he]; rfl)
    obtain ⟨hkind, hpointee⟩ := TypeExpr.pointee_of_ofNode_eq_pointer he
    cases hfirst : receiver.children.find? Node.isNamed with
    | none =>
      rw [hfirst] at hpointee
      exact .inr ⟨e, by simp [hpointee], howner, .inr he⟩
    | some pointee =>
      rw [hfirst] at hpointee
      have hspelled : pointee.Spelled := h.children pointee (List.mem_of_find?_eq_some hfirst)
      have hrender : ownerOf receiver = TypeExpr.renderNode pointee := by
        rw [howner, hpointee]
        rfl
      rw [hrender] at hname ⊢
      rcases isName_of_isNameText hspelled hname with ⟨hkindName, htext⟩ | hshape
      · have hcomment : pointee.isComment = false := isComment_of_isName hkindName
        rw [core_pointer hkind hfirst hcomment, core_of_isName hkindName]
        exact .inl ⟨hkindName, htext⟩
      · refine .inr ⟨TypeExpr.ofNode pointee, hshape, rfl, .inr ?_⟩
        rw [he, hpointee]
        rfl
  · have hrender := ownerOf_eq_renderNode h (not_exists.1 hpointer) hname
    rw [hrender] at hname ⊢
    rcases isName_of_isNameText h hname with ⟨hkind, htext⟩ | hshape
    · rw [core_of_isName hkind]
      exact .inl ⟨hkind, htext⟩
    · exact .inr ⟨TypeExpr.ofNode receiver, hshape, rfl, .inl rfl⟩

end

/-! ## Soundness -/

/-- **Which methods are bound.** In an accepted source, a method that a struct has is the record of
a method declaration, and the core of its receiver is the name of the struct. Otherwise the struct
is named `unknown` or `func`, and the receiver is of a shape that is written with this word, perhaps
behind a star. -/
theorem core_of_bound {path : String} {source : List UInt8} {p : Parsed}
    (hp : parse path source = .ok p) {s : Struct} (hs : s ∈ p.outline.classes) {m : Method}
    (hm : m ∈ s.methods) :
    ∃ v ∈ Visit.preorder p.tree, v.node.kind = .methodDeclaration ∧ methodOf? v = some m ∧
      ∃ receiver, receiverType? v.node = some receiver ∧
        ((core true receiver).kind.isName ∧ (core true receiver).text = s.name ∨
          ∃ e ∈ [TypeExpr.unknown, .func], s.name = e.render ∧
            (TypeExpr.ofNode receiver = e ∨ TypeExpr.ofNode receiver = .pointer e)) := by
  obtain ⟨v, hnaming, hmethod⟩ := (mem_methods_iff hs).1 hm
  obtain ⟨hv, hkind, howner⟩ := mem_methodsNaming.1 hnaming
  obtain ⟨receiver, hr, howner⟩ := Option.map_eq_some_iff.1 howner
  refine ⟨v, hv, hkind, hmethod, receiver, hr, ?_⟩
  have hspelled : receiver.Spelled := spelled_receiverType? (spelled_of_mem_preorder hp hv) hr
  have hname : IsNameText (ownerOf receiver) := by
    rw [howner]
    exact isNameText_of_mem_classes hp hs
  rw [← howner]
  exact core_of_ownerOf hspelled hname

/-- A struct with a method behind a star. -/
theorem core_of_bound_pointerAndParentheses :
    ∃ p, parse "test.go" pointerAndParentheses = .ok p ∧ ∃ s ∈ p.outline.classes,
      ∃ m ∈ s.methods, ∃ v ∈ Visit.preorder p.tree, methodOf? v = some m ∧
        ∃ receiver, receiverType? v.node = some receiver ∧ (core true receiver).text = s.name := by
  have h : (parse "test.go" pointerAndParentheses).toOption.any fun p =>
      ∃ s ∈ p.outline.classes, s.name = "S" ∧ ∃ m ∈ s.methods, m.name = "M" := by
    decide +kernel
  obtain ⟨p, hp, hq⟩ := exists_parse_eq_ok h
  obtain ⟨s, hs, hname, m, hm, -⟩ := of_decide_eq_true hq
  obtain ⟨v, hv, -, hmethod, receiver, hr, hcore | ⟨e, he, hrender, -⟩⟩ := core_of_bound hp hs hm
  · exact ⟨p, hp, s, hs, m, hm, v, hv, hmethod, receiver, hr, hcore.2⟩
  · have hother : ∀ e ∈ [TypeExpr.unknown, .func], "S" ≠ e.render := by decide
    rw [hname] at hrender
    exact absurd hrender (hother e he)

/-- A generic struct with a method, next to a struct that is named as generic types are written. -/
def structNamedUnknown : List UInt8 := Text.Utf8.encode
  "package p

type unknown struct\x7b\x7d

type T[K any] struct\x7b\x7d

func (t T[K]) M() \x7b\x7d
".toList

/-- Not every method that a struct has is of a receiver of its type. -/
theorem not_core_of_bound :
    ¬ ∀ (path : String) (source : List UInt8) (p : Parsed), parse path source = .ok p →
      ∀ s ∈ p.outline.classes, ∀ m ∈ s.methods, ∃ v ∈ Visit.preorder p.tree,
        v.node.kind = .methodDeclaration ∧ methodOf? v = some m ∧
          ∃ receiver, receiverType? v.node = some receiver ∧
            (core true receiver).kind.isName ∧ (core true receiver).text = s.name := by
  intro hall
  have h : (parse "test.go" structNamedUnknown).toOption.any fun p =>
      ∃ s ∈ p.outline.classes, s.name = "unknown" ∧ (∃ m ∈ s.methods, m.name = "M") ∧
        ∀ v ∈ Visit.preorder p.tree,
          (receiverType? v.node).all fun receiver => (core true receiver).text = "T" := by
    decide +kernel
  obtain ⟨p, hp, hq⟩ := exists_parse_eq_ok h
  obtain ⟨s, hs, hname, ⟨m, hm, -⟩, hcores⟩ := of_decide_eq_true hq
  obtain ⟨v, hv, -, -, receiver, hr, -, htext⟩ := hall _ _ p hp s hs m hm
  have hcore := hcores v hv
  rw [hr, Option.all_some, decide_eq_true_eq, htext, hname] at hcore
  exact absurd hcore (by decide)

end GoOutline
