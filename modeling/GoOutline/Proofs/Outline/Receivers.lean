import GoOutline.Proofs.Outline.Binding
import GoOutline.Proofs.Syntax.Spelling.File

/-!
# Receivers and the structs they refer to

A receiver refers to a struct by its name, perhaps with type arguments, in parentheses or behind a
star. Methods are bound by the text of the receiver's type, which is lossy: types in parentheses and
types with arguments are all written `unknown`. So binding is complete for receivers that are a
plain name, by value or by pointer, and it does not find the struct of these others.

## Main definitions

* `core`: what is left of a type without a star in front, parentheses, comments and type arguments
* `referent?`: the name that the type of a receiver refers to
* `unstarred`: a type without the star in front of it

## Main results

* `ownerOf_eq_renderNode_unstarred`: the owner that a receiver names
* `bound_of_refers`: which receivers are bound to the struct they refer to
* `not_bound_of_refers`: a receiver that is not
-/

namespace GoOutline

open GoOutline.Syntax

/-! ## The core of a type -/

mutual

/-- What is left of a type when parentheses, type arguments, comments and, with `star`, one star in
front are taken away. -/
def core (star : Bool) : Node → Node
  | .mk head children =>
    match head.kind with
    | .pointerType =>
      if star then coreOfFirst false (.mk head children) children else .mk head children
    | .parenthesizedType | .genericType => coreOfFirst star (.mk head children) children
    | _ => .mk head children

/-- The core of the first of some nodes, tokens and comments set aside, or the whole when there is
none. -/
def coreOfFirst (star : Bool) (whole : Node) : List Node → Node
  | [] => whole
  | n :: rest =>
    if n.isNamed && !n.isComment then core star n else coreOfFirst star whole rest

end

/-- The name that a type refers to: a plain name or one with type arguments, in any parentheses and,
with `star`, behind at most one star. -/
def referent? (star : Bool) (type : Node) : Option String :=
  if (core star type).kind = .typeIdentifier then some (core star type).text else none

/-- A type without the star in front of it, when nothing stands between the two. -/
def unstarred (type : Node) : Node :=
  match type.kind, type.namedChildren with
  | .pointerType, [pointee] => pointee
  | _, _ => type

theorem coreOfFirst_eq (star : Bool) (whole : Node) (ns : List Node) :
    coreOfFirst star whole ns =
      ((ns.find? fun n => n.isNamed && !n.isComment).map (core star)).getD whole := by
  induction ns with
  | nil => rw [coreOfFirst]; rfl
  | cons n rest ih =>
    rw [coreOfFirst, ih]
    cases h : n.isNamed && !n.isComment <;> simp [h]

/-- A name has nothing around it. -/
theorem core_of_isName {star : Bool} {n : Node} (h : n.kind.isName) : core star n = n := by
  obtain ⟨head, children⟩ := n
  change head.kind.isName at h
  rw [core]
  split
  · next hkind => rw [hkind] at h; cases h
  · next hkind => rw [hkind] at h; cases h
  · next hkind => rw [hkind] at h; cases h
  · rfl

/-- A name is no comment. -/
theorem isComment_of_isName {n : Node} (h : n.kind.isName) : n.isComment = false := by
  rw [Node.isComment, beq_eq_false_iff_ne]
  intro hcomment
  rw [hcomment] at h
  exact absurd h Bool.false_ne_true

/-- Behind its star a pointer has the core of what it points to. -/
theorem core_pointer {n pointee : Node} (hkind : n.kind = .pointerType)
    (hfirst : n.children.find? Node.isNamed = some pointee) (hcomment : pointee.isComment = false) :
    core true n = core false pointee := by
  obtain ⟨head, children⟩ := n
  change head.kind = .pointerType at hkind
  change children.find? Node.isNamed = some pointee at hfirst
  have hfind : children.find? (fun n => n.isNamed && !n.isComment) = some pointee := by
    obtain ⟨hnamed, before, after, rfl, hbefore⟩ := List.find?_eq_some_iff_append.1 hfirst
    refine List.find?_eq_some_iff_append.2 ⟨by simp [hnamed, hcomment], before, after, rfl, ?_⟩
    intro m hm
    have hm' : m.isNamed = false := by simpa using hbefore m hm
    simp [hm']
  rw [core, hkind]
  change coreOfFirst false (.mk head children) children = core false pointee
  rw [coreOfFirst_eq, hfind]
  rfl

/-- The type of the first node that is no token. -/
theorem ofFirstNamed_eq (ns : List Node) :
    TypeExpr.ofFirstNamed ns = ((ns.find? Node.isNamed).map TypeExpr.ofNode).getD .unknown := by
  induction ns with
  | nil => rw [TypeExpr.ofFirstNamed]; rfl
  | cons n rest ih =>
    rw [TypeExpr.ofFirstNamed, ih]
    cases h : n.isNamed <;> simp [h]

/-- A type is its own, or a pointer to what is left without its star. -/
theorem unstarred_cases (type : Node) :
    unstarred type = type ∨
      type.kind = .pointerType ∧ type.namedChildren = [unstarred type] := by
  unfold unstarred
  split
  · next pointee hkind hchildren => exact .inr ⟨hkind, hchildren⟩
  · exact .inl rfl

section

variable {type pointee : Node} {star : Bool}

/-- The only named child is the first. -/
theorem find?_isNamed_of_namedChildren (h : type.namedChildren = [pointee]) :
    type.children.find? Node.isNamed = some pointee := by
  rw [← List.head?_filter]
  exact congrArg List.head? h

/-- A pointer to a single named node is written as a star in front of it. -/
theorem renderNode_pointer (hkind : type.kind = .pointerType)
    (hchildren : type.namedChildren = [pointee]) :
    TypeExpr.renderNode type = "*" ++ TypeExpr.renderNode pointee := by
  have hfind := find?_isNamed_of_namedChildren hchildren
  obtain ⟨head, children⟩ := type
  change head.kind = .pointerType at hkind
  change children.find? Node.isNamed = some pointee at hfind
  have htype : TypeExpr.ofNode (.mk head children) = .pointer (TypeExpr.ofNode pointee) := by
    rw [TypeExpr.ofNode, hkind, ofFirstNamed_eq, hfind]
    rfl
  rw [TypeExpr.renderNode, htype]
  rfl

/-- A pointer to a single named node refers to what that node refers to. -/
theorem referent?_pointer (hkind : type.kind = .pointerType)
    (hchildren : type.namedChildren = [pointee]) (hcomment : pointee.isComment = false) :
    referent? true type = referent? false pointee := by
  rw [referent?, core_pointer hkind (find?_isNamed_of_namedChildren hchildren) hcomment]
  rfl

/-- A plain name refers to itself. -/
theorem referent?_typeIdentifier (hkind : type.kind = .typeIdentifier) :
    referent? star type = some type.text := by
  rw [referent?, core_of_isName (congrArg Kind.isName hkind), if_pos hkind]

/-- A plain name is written as it is. -/
theorem renderNode_typeIdentifier (hkind : type.kind = .typeIdentifier) :
    TypeExpr.renderNode type = type.text := by
  obtain ⟨head, children⟩ := type
  change head.kind = .typeIdentifier at hkind
  rw [TypeExpr.renderNode, TypeExpr.ofNode, hkind]
  rfl

/-- Types in parentheses and types with arguments are not spelled out. -/
theorem renderNode_bracketed
    (hkind : type.kind = .parenthesizedType ∨ type.kind = .genericType) :
    TypeExpr.renderNode type = "unknown" := by
  obtain ⟨head, children⟩ := type
  rcases hkind with hkind | hkind
  · change head.kind = .parenthesizedType at hkind
    rw [TypeExpr.renderNode, TypeExpr.ofNode, hkind]
    rfl
  · change head.kind = .genericType at hkind
    rw [TypeExpr.renderNode, TypeExpr.ofNode, hkind]
    rfl

end

/-! ## The owner that a receiver names -/

section

variable {receiver : Node}

/-- Behind a star the owner is what is pointed to. -/
theorem ownerOf_of_star {name : String} (h : TypeExpr.renderNode receiver = "*" ++ name) :
    ownerOf receiver = name := by
  rw [ownerOf, h, String.toList_append]
  exact String.ofList_toList

/-- Without a star the owner is the type as it is written. -/
theorem ownerOf_of_ne_star (h : ∀ rest, (TypeExpr.renderNode receiver).toList ≠ '*' :: rest) :
    ownerOf receiver = TypeExpr.renderNode receiver := by
  unfold ownerOf
  split
  · next rest hrest => exact absurd hrest (h rest)
  · exact String.ofList_toList

/-- A receiver names what stands behind its star, or what it is when there is none. -/
theorem ownerOf_eq_renderNode_unstarred
    (h : ∀ rest, (TypeExpr.renderNode (unstarred receiver)).toList ≠ '*' :: rest) :
    ownerOf receiver = TypeExpr.renderNode (unstarred receiver) := by
  rcases unstarred_cases receiver with heq | ⟨hkind, hchildren⟩
  · rw [heq] at h ⊢
    exact ownerOf_of_ne_star h
  · exact ownerOf_of_star (renderNode_pointer hkind hchildren)

theorem spelled_unstarred (h : receiver.Spelled) : (unstarred receiver).Spelled := by
  rcases unstarred_cases receiver with heq | ⟨-, hchildren⟩
  · rwa [heq]
  · refine h.children _ (List.mem_of_mem_filter (p := Node.isNamed) ?_)
    rw [← Node.namedChildren, hchildren]
    exact List.mem_singleton_self _

/-- The receiver of a spelled method is spelled. -/
theorem spelled_receiverType? {method : Node} (h : method.Spelled)
    (hr : receiverType? method = some receiver) : receiver.Spelled := by
  obtain ⟨list, hlist, hr⟩ := Option.bind_eq_some_iff.1 hr
  obtain ⟨group, hgroup, hr⟩ := Option.bind_eq_some_iff.1 hr
  have hmem : group ∈ list.children := List.mem_of_mem_filter (List.mem_of_head? hgroup)
  exact ((h.child? hlist).children group hmem).child? hr

/-- What a receiver refers to, when a plain name stands behind its star or by itself. -/
theorem referent?_eq_text_unstarred (hkind : (unstarred receiver).kind = .typeIdentifier) :
    referent? true receiver = some (unstarred receiver).text := by
  rcases unstarred_cases receiver with heq | ⟨hpointer, hchildren⟩
  · rw [heq] at hkind ⊢
    exact referent?_typeIdentifier hkind
  · have hcomment : (unstarred receiver).isComment = false := by
      rw [Node.isComment, hkind]
      rfl
    rw [referent?_pointer hpointer hchildren hcomment]
    exact referent?_typeIdentifier hkind

/-- A receiver that is a plain name, perhaps behind a star, names the owner it refers to. -/
theorem ownerOf_of_refers (h : receiver.Spelled) {name : String}
    (href : referent? true receiver = some name)
    (hkind : (unstarred receiver).kind = .typeIdentifier) : ownerOf receiver = name := by
  have hrender := renderNode_typeIdentifier hkind
  have hword : Lexeme.IsWord (unstarred receiver).text.toList := by
    refine (spelled_unstarred h).head.word ?_
    exact congrArg Kind.isName hkind
  have htext : (unstarred receiver).text = name :=
    Option.some.inj ((referent?_eq_text_unstarred hkind).symm.trans href)
  rw [ownerOf_eq_renderNode_unstarred, hrender, htext]
  rw [hrender]
  exact hword.ne_star

/-- A receiver in parentheses or with type arguments, perhaps behind a star, names no type. -/
theorem ownerOf_bracketed (hkind : (unstarred receiver).kind = .parenthesizedType ∨
    (unstarred receiver).kind = .genericType) : ownerOf receiver = "unknown" := by
  have hrender := renderNode_bracketed hkind
  rw [ownerOf_eq_renderNode_unstarred, hrender]
  rw [hrender]
  intro rest hrest
  have hhead : "unknown".toList.head? = some '*' := congrArg List.head? hrest
  exact absurd hhead (by decide)

end

/-! ## Completeness -/

/-- The tree of an accepted source is spelled. -/
theorem spelled_of_parse {path : String} {source : List UInt8} {p : Parsed}
    (h : parse path source = .ok p) : p.tree.Spelled := by
  obtain ⟨text, -, -, -, rfl⟩ := parse_eq_ok_iff.1 h
  exact Tree.spelled_ofSource text

/-- **Which receivers are bound.** In an accepted source, take a struct and a method declaration at
the top level whose receiver refers to it. When the type of the receiver is the plain name of the
struct, by itself or directly behind a star, the struct has the record of the method, whatever the
order of the declarations. When the type, or what stands directly behind its star, is in parentheses
or has type arguments, the receiver names the owner `unknown`, and the struct does not have the
record, unless `unknown` is its name. -/
theorem bound_of_refers {path : String} {source : List UInt8} {p : Parsed}
    (hp : parse path source = .ok p) {s : Struct} (hs : s ∈ p.outline.classes) {v : Visit}
    (hv : v ∈ Visit.children p.tree) (hkind : v.node.kind = .methodDeclaration) {receiver : Node}
    (hr : receiverType? v.node = some receiver) (href : referent? true receiver = some s.name) :
    ((unstarred receiver).kind = .typeIdentifier → ∃ m ∈ s.methods, methodOf? v = some m) ∧
      ((unstarred receiver).kind = .parenthesizedType ∨ (unstarred receiver).kind = .genericType →
        ownerOf receiver = "unknown" ∧
          (s.name ≠ "unknown" → ∀ m ∈ s.methods, methodOf? v ≠ some m)) := by
  refine ⟨fun hplain => ?_, fun hbracketed => ⟨ownerOf_bracketed hbracketed, ?_⟩⟩
  -- a plain name is a word, so the text of the receiver's type is a star at most in front of it
  · have hnode : v.node ∈ p.tree.children := by
      rw [← Visit.map_node_ofSiblings [] p.tree.children]
      exact List.mem_map_of_mem hv
    have hspelled : receiver.Spelled :=
      spelled_receiverType? ((spelled_of_parse hp).children v.node hnode) hr
    have hvisited : v ∈ Visit.preorder p.tree := by
      obtain ⟨text, -, -, -, rfl⟩ := parse_eq_ok_iff.1 hp
      exact Visit.children_subset_preorder rfl hv
    have howner : ownerOf receiver = s.name := ownerOf_of_refers hspelled href hplain
    have hnaming : v ∈ methodsNaming p.tree s.name :=
      mem_methodsNaming.2 ⟨hvisited, hkind, by rw [hr, Option.map_some, howner]⟩
    obtain ⟨m, hm⟩ : ∃ m, methodOf? v = some m := by
      rw [methodOf?, hr]
      exact ⟨_, rfl⟩
    exact ⟨m, (mem_methods_iff hs).2 ⟨v, hnaming, hm⟩, hm⟩
  · intro hname m hm hmethod
    have hbound : some s.name = (receiverType? v.node).map ownerOf := by
      rw [← receiverType_of_mem_methods hs hm]
      exact receiverType_of_methodOf? hmethod
    rw [hr, Option.map_some, ownerOf_bracketed hbracketed] at hbound
    exact hname (Option.some.inj hbound)

/-- A method before its struct and one after it, the second with its receiver in parentheses. -/
def pointerAndParentheses : List UInt8 := Text.Utf8.encode
  "package p
func (s *S) M() \x7b\x7d
type S struct\x7b\x7d
func (s (S)) N() \x7b\x7d
".toList

theorem bound_of_refers_pointerAndParentheses :
    ∃ p, parse "test.go" pointerAndParentheses = .ok p ∧ ∃ s ∈ p.outline.classes,
      (∃ v ∈ Visit.children p.tree, ∃ receiver, receiverType? v.node = some receiver ∧
        receiver.kind = .pointerType ∧ referent? true receiver = some s.name ∧
        ∃ m ∈ s.methods, methodOf? v = some m) ∧
      ∃ v ∈ Visit.children p.tree, ∃ receiver, receiverType? v.node = some receiver ∧
        receiver.kind = .parenthesizedType ∧ referent? true receiver = some s.name ∧
        ownerOf receiver = "unknown" ∧ ∀ m ∈ s.methods, methodOf? v ≠ some m := by
  have h : (parse "test.go" pointerAndParentheses).toOption.any fun p =>
      ∃ s ∈ p.outline.classes, s.name ≠ "unknown" ∧
        (∃ v ∈ Visit.children p.tree, v.node.kind = .methodDeclaration ∧
          (receiverType? v.node).any fun receiver => receiver.kind = .pointerType ∧
            referent? true receiver = some s.name ∧
            (unstarred receiver).kind = .typeIdentifier) ∧
        ∃ v ∈ Visit.children p.tree, v.node.kind = .methodDeclaration ∧
          (receiverType? v.node).any fun receiver => receiver.kind = .parenthesizedType ∧
            referent? true receiver = some s.name ∧
            (unstarred receiver).kind = .parenthesizedType := by
    decide +kernel
  obtain ⟨p, hp, hq⟩ := exists_parse_eq_ok h
  obtain ⟨s, hs, hname, ⟨v, hv, hvk, hvr⟩, w, hw, hwk, hwr⟩ := of_decide_eq_true hq
  obtain ⟨r, hr, hrq⟩ := (Option.any_eq_true _ _).1 hvr
  obtain ⟨hrk, href, hplain⟩ := of_decide_eq_true hrq
  obtain ⟨t, ht, htq⟩ := (Option.any_eq_true _ _).1 hwr
  obtain ⟨htk, htref, hbracketed⟩ := of_decide_eq_true htq
  refine ⟨p, hp, s, hs, ⟨v, hv, r, hr, hrk, href, ?_⟩, w, hw, t, ht, htk, htref, ?_⟩
  · exact (bound_of_refers hp hs hv hvk hr href).1 hplain
  · obtain ⟨howner, hother⟩ := (bound_of_refers hp hs hw hwk ht htref).2 (.inl hbracketed)
    exact ⟨howner, hother hname⟩

/-- A generic struct with a method. -/
def genericReceiver : List UInt8 := Text.Utf8.encode
  "package p

type S[T any] struct\x7b\x7d

func (s S[T]) M() \x7b\x7d
".toList

/-- Not every method is bound to the struct that its receiver refers to. -/
theorem not_bound_of_refers :
    ¬ ∀ (path : String) (source : List UInt8) (p : Parsed), parse path source = .ok p →
      ∀ s ∈ p.outline.classes, ∀ v ∈ Visit.children p.tree, v.node.kind = .methodDeclaration →
        ∀ receiver, receiverType? v.node = some receiver → referent? true receiver = some s.name →
          ∃ m ∈ s.methods, methodOf? v = some m := by
  intro hall
  have h : (parse "test.go" genericReceiver).toOption.any fun p =>
      ∃ s ∈ p.outline.classes, s.methods = [] ∧
        ∃ v ∈ Visit.children p.tree, v.node.kind = .methodDeclaration ∧
          (receiverType? v.node).any fun receiver => referent? true receiver = some s.name := by
    decide +kernel
  obtain ⟨p, hp, hq⟩ := exists_parse_eq_ok h
  obtain ⟨s, hs, hnil, v, hv, hkind, hvr⟩ := of_decide_eq_true hq
  obtain ⟨receiver, hr, href⟩ := (Option.any_eq_true _ _).1 hvr
  obtain ⟨m, hm, -⟩ := hall _ _ p hp s hs v hv hkind receiver hr (of_decide_eq_true href)
  rw [hnil] at hm
  exact absurd hm List.not_mem_nil

end GoOutline
