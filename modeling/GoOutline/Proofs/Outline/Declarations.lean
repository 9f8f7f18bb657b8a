import GoOutline.Analysis
import GoOutline.Proofs.Outline.Entries

/-!
# Every declaration once

The walk visits the nodes that are not inside a type or import declaration, each once and in reading
order, and the outline of a file holds the records of the declarations among them and no others.

## Main definitions

* `Struct.unbound`: a struct with its methods set aside

## Main results

* `classes_ofTree`, `interfaces_ofTree`, `functions_ofTree`, `imports_ofTree`,
  `documentation_ofTree`: the outline of a tree in terms of the entries of the walk
* `exists_definition_of_mem_classes`, `exists_definition_of_mem_interfaces`: where the structs and
  interfaces of an outline come from
* `outline_of_reached`: the visits of the walk, and the outline in terms of them
-/

namespace GoOutline

open GoOutline.Syntax

/-- The struct with its methods set aside. -/
def Struct.unbound (s : Struct) : Struct := { s with methods := [] }

section

variable {root : Node}

/-- A record of a type definition comes from a specification of a visited type declaration. -/
theorem exists_definition_of_mem {α : Type} (kind : Kind) (record : Option String → Node → Node → α)
    {a : α}
    (h : a ∈ ((Visit.preorder root).filter (·.node.kind = .typeDeclaration)).flatMap fun v =>
      (typeSpecs v.node).filterMap fun spec => (spec.child? .type).bind fun body =>
        if body.kind = kind then some (record v.doc spec body) else none) :
    ∃ v ∈ Visit.preorder root, ∃ spec ∈ typeSpecs v.node, ∃ body, spec.child? .type = some body ∧
      body.kind = kind ∧ a = record v.doc spec body := by
  obtain ⟨v, hv, hspecs⟩ := List.mem_flatMap.1 h
  obtain ⟨spec, hspec, hrecord⟩ := List.mem_filterMap.1 hspecs
  obtain ⟨body, hbody, hkind⟩ := Option.bind_eq_some_iff.1 hrecord
  obtain ⟨hkind, ha⟩ := Option.ite_none_right_eq_some.1 hkind
  exact ⟨v, List.mem_of_mem_filter hv, spec, hspec, body, hbody, hkind, (Option.some.inj ha).symm⟩

/-- A struct is entered from such a specification. -/
theorem exists_definition_of_mem_entriesOf {s : Struct}
    (h : s ∈ (entriesOf root).filterMap OutlineEntry.struct?) :
    ∃ v ∈ Visit.preorder root, ∃ spec ∈ typeSpecs v.node, ∃ body, spec.child? .type = some body ∧
      body.kind = .structType ∧ s = structOf v.doc spec body := by
  rw [filterMap_struct?_entriesOf] at h
  exact exists_definition_of_mem .structType structOf h

end

section

variable (path : String) (root : Node)

theorem classes_ofTree : (Outline.ofTree path root).classes =
    ((entriesOf root).filterMap OutlineEntry.struct?).map
      (Struct.bind (collectedOf root).methods) :=
  congrArg (List.map (Struct.bind (collectedOf root).methods)) (collectedOf_holds root).structs

theorem interfaces_ofTree :
    (Outline.ofTree path root).interfaces = (entriesOf root).filterMap OutlineEntry.interface? :=
  (collectedOf_holds root).interfaces

theorem functions_ofTree :
    (Outline.ofTree path root).functions = (entriesOf root).filterMap OutlineEntry.function? :=
  (collectedOf_holds root).functions

theorem imports_ofTree :
    (Outline.ofTree path root).imports = (entriesOf root).filterMap OutlineEntry.imported? :=
  (collectedOf_holds root).imports

theorem documentation_ofTree : (Outline.ofTree path root).documentation =
    (((entriesOf root).flatMap OutlineEntry.documentations).foldl Doc.Tally.record {}).toCoverage :=
  congrArg Doc.Tally.toCoverage (collectedOf_holds root).tally

/-- A struct is entered without methods. -/
theorem unbound_of_mem_entriesOf {s : Struct}
    (h : s ∈ (entriesOf root).filterMap OutlineEntry.struct?) : s.unbound = s := by
  obtain ⟨v, -, spec, -, body, -, -, rfl⟩ := exists_definition_of_mem_entriesOf h
  rfl

/-- With the methods set aside, the structs of an outline are those that were entered. -/
theorem unbound_classes_ofTree : (Outline.ofTree path root).classes.map Struct.unbound =
    (entriesOf root).filterMap OutlineEntry.struct? := by
  rw [classes_ofTree, List.map_map]
  conv_rhs => rw [← List.map_id ((entriesOf root).filterMap OutlineEntry.struct?)]
  refine List.map_congr_left fun s hs => ?_
  calc (Struct.bind (collectedOf root).methods s).unbound
    _ = s.unbound := rfl
    _ = s := unbound_of_mem_entriesOf root hs

end

section

variable {path : String} {root : Node}

/-- The functions are those of the visited function declarations. -/
theorem functions_eq_map : (Outline.ofTree path root).functions =
    ((Visit.preorder root).filter (·.node.kind = .functionDeclaration)).map functionOf := by
  rw [functions_ofTree, filterMap_function?_entriesOf]

/-- A struct of an outline comes from a specification of a visited type declaration, and its methods
are bound to it. -/
theorem exists_definition_of_mem_classes {s : Struct}
    (hs : s ∈ (Outline.ofTree path root).classes) :
    ∃ v ∈ Visit.preorder root, ∃ spec ∈ typeSpecs v.node, ∃ body, spec.child? .type = some body ∧
      body.kind = .structType ∧ s = (structOf v.doc spec body).bind (collectedOf root).methods := by
  rw [classes_ofTree] at hs
  obtain ⟨entered, hentered, rfl⟩ := List.mem_map.1 hs
  obtain ⟨v, hv, spec, hspec, body, hbody, hkind, rfl⟩ :=
    exists_definition_of_mem_entriesOf hentered
  exact ⟨v, hv, spec, hspec, body, hbody, hkind, rfl⟩

/-- An interface comes from such a specification. -/
theorem exists_definition_of_mem_interfaces {i : Interface}
    (hi : i ∈ (Outline.ofTree path root).interfaces) :
    ∃ v ∈ Visit.preorder root, ∃ spec ∈ typeSpecs v.node, ∃ body, spec.child? .type = some body ∧
      body.kind = .interfaceType ∧ i = interfaceOf v.doc spec body := by
  rw [interfaces_ofTree, filterMap_interface?_entriesOf] at hi
  exact exists_definition_of_mem .interfaceType interfaceOf hi

end

/-- **The walk visits every node that is in no type or import declaration** once and in reading
order, and no other node: for any step function it is the fold over the visits at the reached
addresses, which are listed in lexicographic order. The outline holds the records of the function
declarations among these nodes, of the struct and interface specifications directly in their type
declarations, and of the import specifications of their import declarations, each in that order. -/
theorem outline_of_reached (p : Parsed) :
    ∃ (places : List Address) (visits : List Visit),
      places.Pairwise (· < ·) ∧
      (∀ a, a ∈ places ↔ Visit.IsReached ⟨[], p.tree⟩ a) ∧
      places.map (Visit.at? ⟨[], p.tree⟩) = visits.map some ∧
      (∀ (σ : Type) (step : σ → Visit → σ) (s : σ),
        walkTree step p.tree s = visits.foldl step s) ∧
      p.outline.functions =
        (visits.filter (·.node.kind = .functionDeclaration)).map functionOf ∧
      p.outline.classes.map Struct.unbound =
        ((visits.filter (·.node.kind = .typeDeclaration)).flatMap fun v =>
          (typeSpecs v.node).filterMap (structOfSpec? v.doc)) ∧
      p.outline.interfaces =
        ((visits.filter (·.node.kind = .typeDeclaration)).flatMap fun v =>
          (typeSpecs v.node).filterMap (interfaceOfSpec? v.doc)) ∧
      p.outline.imports =
        ((visits.filter (·.node.kind = .importDeclaration)).flatMap fun v =>
          (importSpecs v.node).map importOf) := by
  refine ⟨Visit.reached p.tree, Visit.preorder p.tree, Visit.pairwise_reached p.tree,
    fun a => Visit.mem_reached_iff ⟨[], p.tree⟩, Visit.map_at?_reached [] p.tree,
    fun σ step s => walkTree_eq_foldl step p.tree s, ?_, ?_, ?_, ?_⟩
  · exact functions_eq_map
  · rw [← filterMap_struct?_entriesOf]
    exact unbound_classes_ofTree p.path p.tree
  · rw [← filterMap_interface?_entriesOf]
    exact interfaces_ofTree p.path p.tree
  · rw [← filterMap_imported?_entriesOf]
    exact imports_ofTree p.path p.tree

end GoOutline
