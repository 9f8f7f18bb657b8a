import GoOutline.Outline.Collect
import GoOutline.Proofs.Outline.Preorder
import Mathlib.Algebra.GroupWithZero.Nat
import Mathlib.Data.List.Induction

/-!
# What the walk collects

A visit enters some records, one after the other. The collection after a run of visits is said in
terms of the records entered so far: each list holds those of its kind in order, the methods of an
owner are those that name it as their receiver's type, and the tally counts the symbols among them.

## Main definitions

* `OutlineEntry`, `Collected.enter`: a record, and taking it up
* `Visit.entries`: the records that a visit enters
* `Collected.Holds`: the collection after some entries
* `entriesOf`: the records that the walk over a tree enters

## Main results

* `Collected.visit_eq_foldl`: a visit takes up its entries in order
* `Collected.Holds.enter`, `Collected.holds_foldl`: the invariant, for one entry and for a run
* `collectedOf_holds`: the collection after the walk
* `countP_documentations`: the symbols among some entries, counted by kind
-/

namespace GoOutline

open GoOutline.Syntax

/-- A record that a visit enters. -/
inductive OutlineEntry where
  | struct (s : Struct)
  | interface (i : Interface)
  | function (f : Function)
  | method (m : Method)
  | imported (i : Import)
  deriving DecidableEq, Repr, Inhabited

namespace OutlineEntry

/-- The entry as a struct. -/
@[simp] def struct? : OutlineEntry → Option Struct
  | .struct s => some s
  | _ => none

/-- The entry as an interface. -/
@[simp] def interface? : OutlineEntry → Option Interface
  | .interface i => some i
  | _ => none

/-- The entry as a function. -/
@[simp] def function? : OutlineEntry → Option Function
  | .function f => some f
  | _ => none

/-- The entry as a method with a receiver. -/
@[simp] def method? : OutlineEntry → Option Method
  | .method m => some m
  | _ => none

/-- The entry as an import. -/
@[simp] def imported? : OutlineEntry → Option Import
  | .imported i => some i
  | _ => none

/-- The documentation of each symbol that an entry declares. An interface declares its methods with
itself, and an import declares nothing. -/
@[simp] def documentations : OutlineEntry → List (Option String)
  | .struct s => [s.documentation]
  | .interface i => i.documentation :: i.methods.map (·.documentation)
  | .function f => [f.documentation]
  | .method m => [m.documentation]
  | .imported _ => []

end OutlineEntry

/-! ## The entries of a visit -/

/-- The struct that a specification of a type declaration defines. -/
def structOfSpec? (doc : Option String) (spec : Node) : Option Struct :=
  (spec.child? .type).bind fun body =>
    if body.kind = .structType then some (structOf doc spec body) else none

/-- The interface that a specification of a type declaration defines. -/
def interfaceOfSpec? (doc : Option String) (spec : Node) : Option Interface :=
  (spec.child? .type).bind fun body =>
    if body.kind = .interfaceType then some (interfaceOf doc spec body) else none

/-- What a specification of a type declaration enters. -/
def entryOfSpec? (doc : Option String) (spec : Node) : Option OutlineEntry :=
  ((structOfSpec? doc spec).map .struct).or ((interfaceOfSpec? doc spec).map .interface)

/-- The records that a visit enters, in order. -/
def Visit.entries (v : Visit) : List OutlineEntry :=
  match v.node.kind with
  | .typeDeclaration => (typeSpecs v.node).filterMap (entryOfSpec? v.doc)
  | .importDeclaration => (importsOf v.node).map .imported
  | .functionDeclaration => [.function (functionOf v)]
  | .methodDeclaration => ((methodOf? v).map .method).toList
  | _ => []

section

variable {v : Visit}

theorem entries_typeDeclaration (h : v.node.kind = .typeDeclaration) :
    v.entries = (typeSpecs v.node).filterMap (entryOfSpec? v.doc) := by
  rw [Visit.entries, h]

theorem entries_importDeclaration (h : v.node.kind = .importDeclaration) :
    v.entries = (importsOf v.node).map .imported := by
  rw [Visit.entries, h]

theorem entries_functionDeclaration (h : v.node.kind = .functionDeclaration) :
    v.entries = [.function (functionOf v)] := by
  rw [Visit.entries, h]

theorem entries_methodDeclaration (h : v.node.kind = .methodDeclaration) :
    v.entries = ((methodOf? v).map .method).toList := by
  rw [Visit.entries, h]

theorem entries_eq_nil (ht : v.node.kind ≠ .typeDeclaration) (hi : v.node.kind ≠ .importDeclaration)
    (hf : v.node.kind ≠ .functionDeclaration) (hm : v.node.kind ≠ .methodDeclaration) :
    v.entries = [] := by
  unfold Visit.entries
  split
  · next h => exact absurd h ht
  · next h => exact absurd h hi
  · next h => exact absurd h hf
  · next h => exact absurd h hm
  · rfl

end

/-- The records that the walk over a tree enters, in order. -/
def entriesOf (root : Node) : List OutlineEntry := (Visit.preorder root).flatMap Visit.entries

namespace Collected

/-- Takes up a record. -/
def enter (c : Collected) : OutlineEntry → Collected
  | .struct s => c.addStruct s
  | .interface i => c.addInterface i
  | .function f => c.addFunction f
  | .method m => c.addMethod m
  | .imported i => { c with imports := c.imports ++ [i] }

theorem addTypeSpec_eq (doc : Option String) (c : Collected) (spec : Node) :
    addTypeSpec doc c spec = (entryOfSpec? doc spec).toList.foldl enter c := by
  unfold addTypeSpec entryOfSpec? structOfSpec? interfaceOfSpec?
  cases spec.child? .type with
  | none => rfl
  | some body =>
    by_cases hs : body.kind = .structType
    · simp [hs, enter]
    · by_cases hi : body.kind = .interfaceType
      · simp [hi, enter]
      · simp [hs, hi]

theorem foldl_addTypeSpec (doc : Option String) (specs : List Node) (c : Collected) :
    specs.foldl (addTypeSpec doc) c = (specs.filterMap (entryOfSpec? doc)).foldl enter c := by
  induction specs generalizing c with
  | nil => rfl
  | cons spec rest ih =>
    rw [List.foldl_cons, ih, addTypeSpec_eq]
    cases h : entryOfSpec? doc spec with
    | none => simp [h]
    | some e => simp [h]

theorem foldl_imported (imports : List Import) (c : Collected) :
    (imports.map .imported).foldl enter c = { c with imports := c.imports ++ imports } := by
  induction imports generalizing c with
  | nil => simp
  | cons i rest ih => simp [ih, enter]

/-- **A visit takes up its entries** in order, and nothing else. -/
theorem visit_eq_foldl (c : Collected) (v : Visit) : c.visit v = v.entries.foldl enter c := by
  unfold visit
  split
  · next h => rw [entries_typeDeclaration h, foldl_addTypeSpec]
  · next h => rw [entries_importDeclaration h, foldl_imported]
  · next h =>
    rw [entries_functionDeclaration h]
    rfl
  · next h =>
    rw [entries_methodDeclaration h]
    cases methodOf? v with
    | none => rfl
    | some m => rfl
  · next ht hi hf hm =>
    rw [entries_eq_nil ht hi hf hm]
    rfl

/-! ## The invariant -/

/-- The collection is the one after some entries. -/
structure Holds (c : Collected) (es : List OutlineEntry) : Prop where
  structs : c.structs = es.filterMap OutlineEntry.struct?
  functions : c.functions = es.filterMap OutlineEntry.function?
  interfaces : c.interfaces = es.filterMap OutlineEntry.interface?
  imports : c.imports = es.filterMap OutlineEntry.imported?
  /-- An owner has the methods that name it, in the order of their entries. -/
  methods : ∀ owner, c.methods.of owner =
    (es.filterMap OutlineEntry.method?).filter fun m => m.receiverType.getD "" = owner
  tally : c.tally = (es.flatMap OutlineEntry.documentations).foldl Doc.Tally.record {}

theorem holds_nil : Holds {} [] where
  structs := rfl
  functions := rfl
  interfaces := rfl
  imports := rfl
  methods _ := rfl
  tally := rfl

theorem tally_enter (c : Collected) (e : OutlineEntry) :
    (c.enter e).tally = e.documentations.foldl Doc.Tally.record c.tally := by
  cases e with
  | struct s => rfl
  | interface i => simp [enter, addInterface, List.foldl_map]
  | function f => rfl
  | method m => rfl
  | imported i => rfl

theorem methods_enter (c : Collected) (e : OutlineEntry) (owner : String) :
    (c.enter e).methods.of owner =
      c.methods.of owner ++ e.method?.toList.filter fun m => m.receiverType.getD "" = owner := by
  cases e with
  | method m =>
    rw [enter, addMethod, MethodTable.of_add]
    by_cases h : m.receiverType.getD "" = owner
    · simp [h]
    · simp [h, Ne.symm h]
  | struct s => simp [enter, addStruct]
  | interface i => simp [enter, addInterface]
  | function f => simp [enter, addFunction]
  | imported i => simp [enter]

/-- **One entry** keeps the invariant. -/
theorem Holds.enter {c : Collected} {es : List OutlineEntry} (h : c.Holds es) (e : OutlineEntry) :
    (c.enter e).Holds (es ++ [e]) where
  structs := by
    cases e <;> simp [Collected.enter, addStruct, addInterface, addFunction, addMethod,
      h.structs]
  functions := by
    cases e <;> simp [Collected.enter, addStruct, addInterface, addFunction, addMethod,
      h.functions]
  interfaces := by
    cases e <;> simp [Collected.enter, addStruct, addInterface, addFunction, addMethod,
      h.interfaces]
  imports := by
    cases e <;> simp [Collected.enter, addStruct, addInterface, addFunction, addMethod,
      h.imports]
  methods owner := by
    rw [methods_enter, h.methods owner, List.filterMap_append, List.filter_append]
    cases e <;> simp
  tally := by
    rw [tally_enter, h.tally, List.flatMap_append, List.foldl_append]
    simp

/-- **A run of entries** keeps the invariant. -/
theorem holds_foldl (es : List OutlineEntry) : Holds (es.foldl enter {}) es := by
  -- the invariant is about the entries so far, so the induction adds them at the end
  induction es using List.reverseRecOn with
  | nil => exact holds_nil
  | append_singleton es e ih =>
    rw [List.foldl_concat]
    exact ih.enter e

end Collected

/-- The collection after the walk over a tree. -/
def collectedOf (root : Node) : Collected := walkTree Collected.visit root {}

theorem collectedOf_eq (root : Node) : collectedOf root = (entriesOf root).foldl .enter {} := by
  have hvisit : Collected.visit = fun c v => v.entries.foldl Collected.enter c := by
    funext c v
    exact Collected.visit_eq_foldl c v
  rw [collectedOf, walkTree_eq_foldl, hvisit, entriesOf, List.foldl_flatMap]

/-- **The collection after the walk** is the one after the entries of the tree. -/
theorem collectedOf_holds (root : Node) : (collectedOf root).Holds (entriesOf root) := by
  rw [collectedOf_eq]
  exact Collected.holds_foldl (entriesOf root)

/-! ## The entries of a tree by kind -/

/-- What a specification enters, kind by kind. -/
theorem entryOfSpec?_eq (doc : Option String) (spec : Node) :
    (entryOfSpec? doc spec).bind OutlineEntry.struct? = structOfSpec? doc spec ∧
      (entryOfSpec? doc spec).bind OutlineEntry.interface? = interfaceOfSpec? doc spec ∧
      (entryOfSpec? doc spec).bind OutlineEntry.function? = none ∧
      (entryOfSpec? doc spec).bind OutlineEntry.method? = none ∧
      (entryOfSpec? doc spec).bind OutlineEntry.imported? = none := by
  unfold entryOfSpec? structOfSpec? interfaceOfSpec?
  cases spec.child? .type with
  | none => simp
  | some body =>
    by_cases hs : body.kind = .structType
    · simp [hs]
    · by_cases hi : body.kind = .interfaceType
      · simp [hi]
      · simp [hs, hi]

/-- Entries that only the declarations of one kind make are found in those declarations. -/
theorem filterMap_entriesOf {β : Type} {f : OutlineEntry → Option β} {kind : Kind}
    {g : Visit → List β}
    (h : ∀ v : Visit, v.entries.filterMap f = if v.node.kind = kind then g v else [])
    (root : Node) :
    (entriesOf root).filterMap f =
      ((Visit.preorder root).filter (·.node.kind = kind)).flatMap g := by
  rw [entriesOf, List.filterMap_flatMap]
  simp only [h]
  induction Visit.preorder root with
  | nil => rfl
  | cons v rest ih => by_cases hv : v.node.kind = kind <;> simp [hv, ih]

section

variable (root : Node)

/-- The structs of a tree are those that its type declarations define. -/
theorem filterMap_struct?_entriesOf :
    (entriesOf root).filterMap OutlineEntry.struct? =
      ((Visit.preorder root).filter (·.node.kind = .typeDeclaration)).flatMap fun v =>
        (typeSpecs v.node).filterMap (structOfSpec? v.doc) := by
  refine filterMap_entriesOf (fun v => ?_) root
  unfold Visit.entries
  split <;> simp_all [List.filterMap_filterMap, entryOfSpec?_eq]

/-- The interfaces of a tree are those that its type declarations define. -/
theorem filterMap_interface?_entriesOf :
    (entriesOf root).filterMap OutlineEntry.interface? =
      ((Visit.preorder root).filter (·.node.kind = .typeDeclaration)).flatMap fun v =>
        (typeSpecs v.node).filterMap (interfaceOfSpec? v.doc) := by
  refine filterMap_entriesOf (fun v => ?_) root
  unfold Visit.entries
  split <;> simp_all [List.filterMap_filterMap, entryOfSpec?_eq]

/-- The functions of a tree are those of its function declarations. -/
theorem filterMap_function?_entriesOf :
    (entriesOf root).filterMap OutlineEntry.function? =
      ((Visit.preorder root).filter (·.node.kind = .functionDeclaration)).map functionOf := by
  rw [List.map_eq_flatMap]
  refine filterMap_entriesOf (fun v => ?_) root
  unfold Visit.entries
  split <;> simp_all [List.filterMap_filterMap, entryOfSpec?_eq]

/-- The methods of a tree are those of its method declarations. -/
theorem filterMap_method?_entriesOf :
    (entriesOf root).filterMap OutlineEntry.method? =
      ((Visit.preorder root).filter (·.node.kind = .methodDeclaration)).filterMap methodOf? := by
  rw [List.filterMap_eq_flatMap_toList methodOf?]
  refine filterMap_entriesOf (fun v => ?_) root
  unfold Visit.entries
  cases hm : methodOf? v <;> split <;>
    simp_all [List.filterMap_filterMap, List.filterMap_cons, entryOfSpec?_eq]

/-- The imports of a tree are those of its import declarations. -/
theorem filterMap_imported?_entriesOf :
    (entriesOf root).filterMap OutlineEntry.imported? =
      ((Visit.preorder root).filter (·.node.kind = .importDeclaration)).flatMap fun v =>
        (importSpecs v.node).map importOf := by
  refine filterMap_entriesOf (fun v => ?_) root
  unfold Visit.entries
  split <;> simp_all [List.filterMap_filterMap, entryOfSpec?_eq, importsOf, Function.comp_def]

end

/-! ## Counting symbols -/

/-- The symbols among some entries whose documentation has a property, kind by kind. -/
theorem countP_documentations (q : Option String → Bool) (es : List OutlineEntry) :
    (es.flatMap OutlineEntry.documentations).countP q =
      (es.filterMap OutlineEntry.struct?).countP (q ·.documentation) +
      (es.filterMap OutlineEntry.interface?).countP (q ·.documentation) +
      (es.filterMap OutlineEntry.function?).countP (q ·.documentation) +
      ((es.filterMap OutlineEntry.interface?).map fun i =>
        i.methods.countP (q ·.documentation)).sum +
      (es.filterMap OutlineEntry.method?).countP (q ·.documentation) := by
  induction es with
  | nil => rfl
  | cons e rest ih =>
    rw [List.flatMap_cons, List.countP_append, ih]
    cases e with
    | struct s =>
      simp [List.filterMap_cons, List.countP_cons]
      omega
    | interface i =>
      simp [List.filterMap_cons, List.countP_cons, List.countP_map, Function.comp_def]
      omega
    | function f =>
      simp [List.filterMap_cons, List.countP_cons]
      omega
    | method m =>
      simp [List.filterMap_cons, List.countP_cons]
      omega
    | imported i => simp [List.filterMap_cons]

end GoOutline
