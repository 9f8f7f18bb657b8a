import GoOutline.Proofs.Outline.Declarations
import GoOutline.Text.Utf8

/-!
# Methods and their structs

The methods of a struct are joined to it when the walk is over, by the name that the type of their
receiver is written with. The join loses nothing and adds nothing: a struct has the records of the
visited method declarations that name it, in reading order, wherever they stand.

## Main definitions

* `methodsNaming`: the method declarations of a tree whose receiver names an owner

## Main results

* `map_some_methods`: the methods of a struct, as the records of method declarations
* `mem_methods_iff`: when a struct has a method
* `bound_methods`: what is bound to structs, and what is not
-/

namespace GoOutline

open GoOutline.Syntax

/-- The visits to the method declarations whose receiver's type names an owner, in reading order. -/
def methodsNaming (root : Node) (owner : String) : List Visit :=
  (Visit.preorder root).filter fun v =>
    v.node.kind = .methodDeclaration ∧ (receiverType? v.node).map ownerOf = some owner

theorem mem_methodsNaming {root : Node} {owner : String} {v : Visit} :
    v ∈ methodsNaming root owner ↔ v ∈ Visit.preorder root ∧
      v.node.kind = .methodDeclaration ∧ (receiverType? v.node).map ownerOf = some owner := by
  rw [methodsNaming, List.mem_filter, decide_eq_true_iff]

/-- The record of a method names the owner that its receiver names. -/
theorem receiverType_of_methodOf? {v : Visit} {m : Method} (h : methodOf? v = some m) :
    m.receiverType = (receiverType? v.node).map ownerOf := by
  obtain ⟨r, hr, rfl⟩ := Option.map_eq_some_iff.1 h
  rw [hr]
  rfl

/-- The table holds, under an owner, the records of the declarations that name it. -/
theorem map_some_of_methods (root : Node) (owner : String) :
    ((collectedOf root).methods.of owner).map some = (methodsNaming root owner).map methodOf? := by
  rw [(collectedOf_holds root).methods owner, filterMap_method?_entriesOf, methodsNaming]
  induction Visit.preorder root with
  | nil => rfl
  | cons v rest ih =>
    -- a visit counts on both sides or on neither: by its kind, its receiver, and the owner named
    by_cases hk : v.node.kind = .methodDeclaration
    · cases hr : receiverType? v.node with
      | none => simpa [hk, hr, methodOf?] using ih
      | some r =>
        by_cases ho : ownerOf r = owner
        · simpa [hk, hr, ho, methodOf?] using ih
        · simpa [hk, hr, ho, methodOf?] using ih
    · simpa [hk] using ih

section

variable {path : String} {root : Node} {s : Struct}

theorem methods_of_mem_classes (hs : s ∈ (Outline.ofTree path root).classes) :
    s.methods = (collectedOf root).methods.of s.name := by
  rw [classes_ofTree] at hs
  obtain ⟨entered, -, rfl⟩ := List.mem_map.1 hs
  rfl

/-- **The methods of a struct** are the records of the method declarations that name it. -/
theorem map_some_methods (hs : s ∈ (Outline.ofTree path root).classes) :
    s.methods.map some = (methodsNaming root s.name).map methodOf? := by
  rw [methods_of_mem_classes hs]
  exact map_some_of_methods root s.name

/-- A struct has a method exactly when some method declaration that names it has that record. -/
theorem mem_methods_iff (hs : s ∈ (Outline.ofTree path root).classes) {m : Method} :
    m ∈ s.methods ↔ ∃ v ∈ methodsNaming root s.name, methodOf? v = some m := by
  rw [← List.mem_map, ← map_some_methods hs]
  simp

theorem receiverType_of_mem_methods (hs : s ∈ (Outline.ofTree path root).classes) {m : Method}
    (hm : m ∈ s.methods) : m.receiverType = some s.name := by
  obtain ⟨v, hv, hvm⟩ := (mem_methods_iff hs).1 hm
  rw [receiverType_of_methodOf? hvm]
  exact (mem_methodsNaming.1 hv).2.2

/-- A method that an interface asks for has no receiver. -/
theorem receiverType_of_mem_interfaces {i : Interface}
    (hi : i ∈ (Outline.ofTree path root).interfaces) {m : Method} (hm : m ∈ i.methods) :
    m.receiverType = none := by
  obtain ⟨v, -, spec, -, body, -, -, rfl⟩ := exists_definition_of_mem_interfaces hi
  obtain ⟨w, -, rfl⟩ := List.mem_map.1 hm
  rfl

end

/-- **Binding is an exact join.** A struct has the records of the visited method declarations whose
receiver's type is written as its name, behind at most one star, each once and in reading order;
structs of one name have the same methods. A bound method names its struct as the type of its
receiver, a method that an interface asks for names none, and the functions of the outline are those
of the visited function declarations alone. -/
theorem bound_methods (p : Parsed) :
    (∀ s ∈ p.outline.classes,
        s.methods.map some = (methodsNaming p.tree s.name).map methodOf?) ∧
      (∀ s ∈ p.outline.classes, ∀ t ∈ p.outline.classes,
        s.name = t.name → s.methods = t.methods) ∧
      (∀ s ∈ p.outline.classes, ∀ m ∈ s.methods, m.receiverType = some s.name) ∧
      (∀ i ∈ p.outline.interfaces, ∀ m ∈ i.methods, m.receiverType = none) ∧
      p.outline.functions =
        ((Visit.preorder p.tree).filter (·.node.kind = .functionDeclaration)).map functionOf := by
  refine ⟨fun s hs => map_some_methods hs, fun s hs t ht hname => ?_,
    fun s hs m hm => receiverType_of_mem_methods hs hm,
    fun i hi m hm => receiverType_of_mem_interfaces hi hm, functions_eq_map⟩
  rw [methods_of_mem_classes hs, methods_of_mem_classes ht, hname]

/-- A source is accepted when a property of what it is accepted as can be observed. -/
theorem exists_parse_eq_ok {path : String} {source : List UInt8} {q : Parsed → Bool}
    (h : (parse path source).toOption.any q) : ∃ p, parse path source = .ok p ∧ q p := by
  cases hp : parse path source with
  | error e => simp [hp, Except.toOption] at h
  | ok p => exact ⟨p, rfl, by simpa [hp, Except.toOption] using h⟩

/-- Two structs of one name, one of them local, between two methods. -/
def twoStructs : List UInt8 := Text.Utf8.encode
  "package p
func (s *S) M() \x7b\x7d
type S struct\x7b\x7d
func f() \x7b type S struct\x7b\x7d \x7d
func (S) N() \x7b\x7d
".toList

theorem bound_methods_twoStructs :
    ∃ p, parse "t.go" twoStructs = .ok p ∧ p.outline.classes.length = 2 ∧
      ∃ s ∈ p.outline.classes, s.methods.length = 2 ∧
        s.methods.map some = (methodsNaming p.tree s.name).map methodOf? := by
  have h : (parse "t.go" twoStructs).toOption.any fun p =>
      p.outline.classes.length = 2 ∧ ∃ s ∈ p.outline.classes, s.methods.length = 2 := by
    decide +kernel
  obtain ⟨p, hp, hq⟩ := exists_parse_eq_ok h
  obtain ⟨hlength, s, hs, hmethods⟩ := of_decide_eq_true hq
  exact ⟨p, hp, hlength, s, hs, hmethods, (bound_methods p).1 s hs⟩

end GoOutline
