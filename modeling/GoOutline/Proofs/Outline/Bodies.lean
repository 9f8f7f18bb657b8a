import GoOutline.Proofs.Outline.Binding
import GoOutline.Proofs.Outline.TreeMaps

/-!
# The bodies of functions

The walk goes into the bodies of functions, for types may be declared there. A body in which nothing
is declared leaves no trace in the outline, whatever else it holds: with such bodies emptied, a tree
has the outline that it had. So two trees that differ in one body have the same outline.

## Main definitions

* `Node.IsInertBody`: a body in which nothing is declared
* `Node.withoutBodies`: a tree with these bodies emptied
* `Node.DiffersInBody`: two trees differ in the body of one function or method

## Main results

* `keepsParts_withoutBodies`: all but the inside of the bodies is kept
* `Node.DiffersInBody.withoutBodies_eq`: without bodies, the two trees are equal
* `outline_eq_of_differsInBody`: the two trees have the same outline
-/

namespace GoOutline

open GoOutline.Syntax GoOutline.Text

namespace Syntax.Node

/-! ## Bodies -/

/-- The node is a body in which nothing is declared. -/
structure IsInertBody (n : Node) : Prop where
  kind : n.kind = .block
  role : n.role = some .body
  inert : n.IsInert

instance (n : Node) : Decidable n.IsInertBody :=
  decidable_of_iff (n.kind = .block ∧ n.role = some .body ∧ n.IsInert)
    ⟨fun ⟨hkind, hrole, hinert⟩ => ⟨hkind, hrole, hinert⟩, fun h => ⟨h.1, h.2, h.3⟩⟩

/-- The empty body on a span. -/
def emptyBody (span : Span) : Node := .mk ⟨.block, some .body, span, "", false⟩ []

mutual

/-- The tree with the bodies emptied in which nothing is declared. -/
def withoutBodies : Node → Node
  | .mk head children =>
    if (Node.mk head children).IsInertBody then emptyBody head.span
    else .mk head (withoutBodiesIn children)

/-- Some trees with the bodies emptied in which nothing is declared. -/
def withoutBodiesIn : List Node → List Node
  | [] => []
  | n :: rest => withoutBodies n :: withoutBodiesIn rest

end

theorem withoutBodiesIn_eq_map (ns : List Node) : withoutBodiesIn ns = ns.map withoutBodies := by
  induction ns with
  | nil => rw [withoutBodiesIn]; rfl
  | cons n rest ih => rw [withoutBodiesIn, ih]; rfl

section

variable {n : Node}

/-- A body in which nothing is extracted becomes an empty one of the same extent. -/
theorem withoutBodies_of_isInertBody (h : n.IsInertBody) : n.withoutBodies = emptyBody n.span := by
  obtain ⟨head, children⟩ := n
  rw [withoutBodies, if_pos h]
  rfl

/-- Other nodes stay, with what is below them. -/
theorem withoutBodies_of_not (h : ¬ n.IsInertBody) :
    n.withoutBodies = .mk n.head (n.children.map withoutBodies) := by
  obtain ⟨head, children⟩ := n
  rw [withoutBodies, if_neg h, withoutBodiesIn_eq_map]
  rfl

/-- Nothing is extracted from an empty body. -/
theorem isInert_emptyBody (span : Span) : (emptyBody span).IsInert := by
  intro m hm
  obtain rfl : m = emptyBody span := by simpa [emptyBody, preorder, preorderAll] using hm
  simp [emptyBody, Node.kind, Node.head, declarationKinds]

end

end Syntax.Node

open Syntax.Node

/-- All but the inside of the emptied bodies is kept. -/
theorem keepsParts_withoutBodies : KeepsParts IsInertBody withoutBodies where
  isBody h := ⟨h.kind, h.role⟩
  kind n := by
    by_cases h : n.IsInertBody
    · rw [withoutBodies_of_isInertBody h, h.kind]
      rfl
    · rw [withoutBodies_of_not h]
      rfl
  role n := by
    by_cases h : n.IsInertBody
    · rw [withoutBodies_of_isInertBody h, h.role]
      rfl
    · rw [withoutBodies_of_not h]
      rfl
  text h := by
    rw [withoutBodies_of_not h]
    rfl
  children h := by
    rw [withoutBodies_of_not h]
    rfl

theorem span_withoutBodies (n : Node) : n.withoutBodies.span = n.span := by
  by_cases h : n.IsInertBody
  · rw [withoutBodies_of_isInertBody h]
    rfl
  · rw [withoutBodies_of_not h]
    rfl

/-- **A tree without bodies has the same outline.** -/
theorem ofTree_withoutBodies (path : String) (root : Node) :
    Outline.ofTree path root.withoutBodies = Outline.ofTree path root := by
  apply keepsParts_withoutBodies.ofTree span_withoutBodies
  intro n h
  refine ⟨h.inert, ?_⟩
  rw [withoutBodies_of_isInertBody h]
  exact isInert_emptyBody n.span

/-! ## Trees that differ in one body -/

namespace Syntax.Node

/-- Two trees differ in nothing but the body of one declaration of a function or a method. Both
bodies are on the same span, and nothing is declared in either. -/
inductive DiffersInBody : Node → Node → Prop
  | body {head : Head} {before after : List Node} {b b' : Node}
      (hkind : head.kind = .functionDeclaration ∨ head.kind = .methodDeclaration)
      (hb : b.IsInertBody) (hb' : b'.IsInertBody) (hspan : b.span = b'.span) :
      DiffersInBody (.mk head (before ++ b :: after)) (.mk head (before ++ b' :: after))
  | child {head : Head} {before after : List Node} {c c' : Node} (h : DiffersInBody c c') :
      DiffersInBody (.mk head (before ++ c :: after)) (.mk head (before ++ c' :: after))

namespace DiffersInBody

variable {m n : Node}

protected theorem symm (h : DiffersInBody m n) : DiffersInBody n m := by
  induction h with
  | body hkind hb hb' hspan => exact .body hkind hb' hb hspan.symm
  | child _ ih => exact .child ih

/-- The function is declared in the tree. -/
theorem not_isInert (h : DiffersInBody m n) : ¬ m.IsInert := by
  induction h with
  | body hkind =>
    intro hinert
    apply hinert _ (mem_preorder_self _)
    rcases hkind with hkind | hkind
    · simp [Node.kind, Node.head, hkind, declarationKinds]
    · simp [Node.kind, Node.head, hkind, declarationKinds]
  | child _ ih =>
    intro hinert
    apply ih
    intro k hk
    exact hinert k (mem_preorder_iff.2 (.inr ⟨_, by simp [Node.children], hk⟩))

/-- The node is not emptied, since the function is declared in it. -/
theorem withoutBodies_left (h : DiffersInBody m n) :
    m.withoutBodies = .mk m.head (m.children.map withoutBodies) :=
  withoutBodies_of_not fun hbody => h.not_isInert hbody.inert

/-- **Without bodies, the trees are equal.** -/
theorem withoutBodies_eq (h : DiffersInBody m n) : m.withoutBodies = n.withoutBodies := by
  rw [h.withoutBodies_left, h.symm.withoutBodies_left]
  induction h with
  | body _ hb hb' hspan =>
    simp [Node.head, Node.children, withoutBodies_of_isInertBody hb,
      withoutBodies_of_isInertBody hb', hspan]
  | child h ih =>
    have hc := (h.withoutBodies_left.trans ih).trans h.symm.withoutBodies_left.symm
    simp [Node.head, Node.children, hc]

end DiffersInBody

/-! ### The difference is decidable -/

mutual

/-- Whether two trees differ in nothing but one body. -/
def differInBody : Node → Node → Bool
  | .mk head children, .mk head' children' =>
    head = head' && oneDiffers
      (head.kind = .functionDeclaration || head.kind = .methodDeclaration) children children'

/-- Whether two lists of children differ in nothing but one body, which may be one of the children
when they are those of a function. -/
def oneDiffers (ofFunction : Bool) : List Node → List Node → Bool
  | c :: rest, c' :: rest' =>
    (c = c' && oneDiffers ofFunction rest rest') ||
      (rest = rest' &&
        ((ofFunction && c.IsInertBody && c'.IsInertBody && c.span = c'.span) ||
          differInBody c c'))
  | _, _ => false

end

theorem oneDiffers_cons_iff {ofFunction : Bool} {c d : Node} {cs ds : List Node} :
    oneDiffers ofFunction (c :: cs) (d :: ds) ↔
      (c = d ∧ oneDiffers ofFunction cs ds) ∨ (cs = ds ∧
        ((ofFunction ∧ c.IsInertBody ∧ d.IsInertBody ∧ c.span = d.span) ∨ differInBody c d)) := by
  rw [oneDiffers]
  simp only [Bool.or_eq_true, Bool.and_eq_true, decide_eq_true_eq, and_assoc]

/-- The lists differ in one place, where a body or what is below differs. -/
theorem oneDiffers_iff {ofFunction : Bool} {cs ds : List Node} :
    oneDiffers ofFunction cs ds ↔ ∃ before c d after, cs = before ++ c :: after ∧
      ds = before ++ d :: after ∧
      ((ofFunction ∧ c.IsInertBody ∧ d.IsInertBody ∧ c.span = d.span) ∨ differInBody c d) := by
  constructor
  · intro h
    induction cs generalizing ds with
    | nil => simp [oneDiffers] at h
    | cons c cs ih =>
      cases ds with
      | nil => simp [oneDiffers] at h
      | cons d ds =>
        rcases oneDiffers_cons_iff.1 h with ⟨rfl, hrest⟩ | ⟨rfl, hfirst⟩
        · obtain ⟨before, c', d', after, rfl, rfl, hone⟩ := ih hrest
          exact ⟨c :: before, c', d', after, rfl, rfl, hone⟩
        · exact ⟨[], c, d, cs, rfl, rfl, hfirst⟩
  · rintro ⟨before, c, d, after, rfl, rfl, h⟩
    induction before with
    | nil => exact oneDiffers_cons_iff.2 (.inr ⟨rfl, h⟩)
    | cons b before ih => exact oneDiffers_cons_iff.2 (.inl ⟨rfl, ih⟩)

theorem differInBody_mk_iff {head head' : Head} {cs ds : List Node} :
    differInBody (.mk head cs) (.mk head' ds) ↔ head = head' ∧ oneDiffers
      (head.kind = .functionDeclaration || head.kind = .methodDeclaration) cs ds := by
  rw [differInBody, Bool.and_eq_true, decide_eq_true_eq]

/-- The test decides the relation. -/
theorem differInBody_iff {m n : Node} : differInBody m n ↔ DiffersInBody m n := by
  constructor
  · intro h
    induction m using childInduction generalizing n with
    | mk head cs ih =>
      obtain ⟨head', ds⟩ := n
      obtain ⟨rfl, hone⟩ := differInBody_mk_iff.1 h
      obtain ⟨before, c, d, after, rfl, rfl, hpair⟩ := oneDiffers_iff.1 hone
      rcases hpair with ⟨hkind, hc, hd, hspan⟩ | hdiffer
      · exact .body (by simpa using hkind) hc hd hspan
      · exact .child (ih c (by simp) hdiffer)
  · intro h
    induction h with
    | body hkind hb hb' hspan =>
      refine differInBody_mk_iff.2 ⟨rfl, oneDiffers_iff.2 ⟨_, _, _, _, rfl, rfl, .inl ?_⟩⟩
      exact ⟨by simpa using hkind, hb, hb', hspan⟩
    | child _ ih =>
      exact differInBody_mk_iff.2 ⟨rfl, oneDiffers_iff.2 ⟨_, _, _, _, rfl, rfl, .inr ih⟩⟩

instance (m n : Node) : Decidable (DiffersInBody m n) := decidable_of_iff _ differInBody_iff

end Syntax.Node

/-- **Bodies do not show in the outline.** Two accepted sources under one path whose trees differ in
nothing but the body of one function or method have the same outline, when the two bodies are on the
same span and nothing is declared in them. -/
theorem outline_eq_of_differsInBody {p q : Parsed} (hpath : p.path = q.path)
    (h : DiffersInBody p.tree q.tree) : p.outline = q.outline := by
  calc p.outline = Outline.ofTree p.path p.tree.withoutBodies :=
        (ofTree_withoutBodies p.path p.tree).symm
    _ = Outline.ofTree q.path q.tree.withoutBodies := by rw [hpath, h.withoutBodies_eq]
    _ = q.outline := ofTree_withoutBodies q.path q.tree

/-- A method with a body that is given by its text, between a struct and a function with a local
type. -/
def methodWithBody (body : String) : List UInt8 := Utf8.encode
  ("package p
type T struct \x7b X int \x7d

// M is a method.
func (t T) M() any \x7b ".toList ++ body.toList ++ " \x7d

// Local has a local type.
func Local() \x7b type L struct \x7b\x7d \x7d
".toList)

theorem outline_eq_of_differsInBody_methodWithBody :
    ∃ p q, parse "t.go" (methodWithBody "return struct\x7b A int \x7d\x7b t.X \x7d") = .ok p ∧
      parse "t.go" (methodWithBody "g(1) /* the call */; return 2") = .ok q ∧
      p.source ≠ q.source ∧ p.path = q.path ∧ DiffersInBody p.tree q.tree ∧
      p.outline = q.outline := by
  have h :
      (parse "t.go" (methodWithBody "return struct\x7b A int \x7d\x7b t.X \x7d")).toOption.any
        fun p => (parse "t.go" (methodWithBody "g(1) /* the call */; return 2")).toOption.any
          fun q => p.source ≠ q.source ∧ p.path = q.path ∧ DiffersInBody p.tree q.tree := by
    decide +kernel
  obtain ⟨p, hp, hsecond⟩ := exists_parse_eq_ok h
  obtain ⟨q, hq, hboth⟩ := exists_parse_eq_ok hsecond
  obtain ⟨hsource, hpath, htree⟩ := of_decide_eq_true hboth
  exact ⟨p, q, hp, hq, hsource, hpath, htree, outline_eq_of_differsInBody hpath htree⟩

end GoOutline
