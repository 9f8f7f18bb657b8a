import GoOutline.Proofs.Outline.Declarations

/-!
# Symbol accounting

The tally of a file counts every struct, interface and function of its outline, every method that
an interface asks for, and every method declaration that the walk visits and whose receiver has a
type, each exactly once.

## Main definitions

* `receivedMethods`: the method declarations of a tree whose receiver has a type

## Main results

* `foldl_record`: what a run of records amounts to
* `countP_symbols`: the symbols of the walk that have a property, counted over the outline
* `symbol_accounting`: the two counts of a file, in terms of its records
-/

namespace GoOutline

open GoOutline.Syntax

theorem foldl_record (docs : List (Option String)) (t : Doc.Tally) :
    docs.foldl Doc.Tally.record t =
      ⟨t.documented + docs.countP Option.isSome, t.total + docs.length⟩ := by
  induction docs generalizing t with
  | nil => rfl
  | cons doc rest ih =>
    rw [List.foldl_cons, ih]
    cases doc with
    | none => simp [Doc.Tally.record, Nat.add_assoc, Nat.add_comm 1]
    | some text => simp [Doc.Tally.record, Nat.add_assoc, Nat.add_comm 1]

/-- The visits to method declarations whose receiver has a type. -/
def receivedMethods (root : Node) : List Visit :=
  (Visit.preorder root).filter fun v =>
    v.node.kind = .methodDeclaration ∧ (receiverType? v.node).isSome

/-- Every visit to a method declaration whose receiver has a type has a record, and the others have
none. -/
theorem map_methodOf?_receivedMethods (root : Node) :
    (receivedMethods root).map methodOf? =
      ((entriesOf root).filterMap OutlineEntry.method?).map some := by
  rw [filterMap_method?_entriesOf, receivedMethods]
  induction Visit.preorder root with
  | nil => rfl
  | cons v rest ih =>
    by_cases hk : v.node.kind = .methodDeclaration
    · cases hr : receiverType? v.node with
      | none => simpa [hk, hr, methodOf?] using ih
      | some r => simpa [hk, hr, methodOf?] using ih
    · simpa [hk] using ih

/-- A class carries the documentation of the struct that was entered. -/
theorem countP_classes_ofTree (q : Option String → Bool) (path : String) (root : Node) :
    (Outline.ofTree path root).classes.countP (q ·.documentation) =
      ((entriesOf root).filterMap OutlineEntry.struct?).countP (q ·.documentation) := by
  rw [classes_ofTree, List.countP_map]
  rfl

/-- **The symbols of the walk**, counted over the records of the outline and the received
methods. -/
theorem countP_symbols (q : Option String → Bool) (path : String) (root : Node) :
    ((entriesOf root).flatMap OutlineEntry.documentations).countP q =
      (Outline.ofTree path root).classes.countP (q ·.documentation) +
      (Outline.ofTree path root).interfaces.countP (q ·.documentation) +
      (Outline.ofTree path root).functions.countP (q ·.documentation) +
      ((Outline.ofTree path root).interfaces.map fun i =>
        i.methods.countP (q ·.documentation)).sum +
      (receivedMethods root).countP fun v => (methodOf? v).any (q ·.documentation) := by
  have hmethods : (receivedMethods root).countP (fun v => (methodOf? v).any (q ·.documentation)) =
      ((entriesOf root).filterMap OutlineEntry.method?).countP (q ·.documentation) := by
    calc (receivedMethods root).countP (fun v => (methodOf? v).any (q ·.documentation))
      _ = ((receivedMethods root).map methodOf?).countP (·.any (q ·.documentation)) := by
        rw [List.countP_map]
        rfl
      _ = ((entriesOf root).filterMap OutlineEntry.method?).countP (q ·.documentation) := by
        rw [map_methodOf?_receivedMethods, List.countP_map]
        rfl
  rw [countP_documentations, countP_classes_ofTree, interfaces_ofTree, functions_ofTree, hmethods]

/-- Every received method has a record. -/
theorem isSome_methodOf? {root : Node} {v : Visit} (h : v ∈ receivedMethods root) :
    (methodOf? v).isSome := by
  rw [receivedMethods, List.mem_filter, decide_eq_true_iff] at h
  rw [methodOf?, Option.isSome_map]
  exact h.2.2

/-- **Symbol accounting is exact.** The total is the number of structs, interfaces, functions,
methods that interfaces ask for, and visited method declarations whose receiver has a type; the
documented symbols are those of the same records that have documentation. A method declaration
counts once, whatever the number of structs that it is bound to. -/
theorem symbol_accounting (p : Parsed) :
    p.outline.documentation.totalSymbols =
        p.outline.classes.length + p.outline.interfaces.length + p.outline.functions.length +
        (p.outline.interfaces.map (·.methods.length)).sum + (receivedMethods p.tree).length ∧
      p.outline.documentation.documentedSymbols =
        p.outline.classes.countP (·.documentation.isSome) +
        p.outline.interfaces.countP (·.documentation.isSome) +
        p.outline.functions.countP (·.documentation.isSome) +
        (p.outline.interfaces.map fun i => i.methods.countP (·.documentation.isSome)).sum +
        (receivedMethods p.tree).countP (fun v => (methodOf? v).any (·.documentation.isSome)) ∧
      p.outline.documentation.documentedSymbols ≤ p.outline.documentation.totalSymbols ∧
      (p.outline.documentation.hasDocumentation ↔
        (∃ s ∈ p.outline.classes, s.documentation.isSome) ∨
        (∃ i ∈ p.outline.interfaces, i.documentation.isSome) ∨
        (∃ f ∈ p.outline.functions, f.documentation.isSome) ∨
        (∃ i ∈ p.outline.interfaces, ∃ m ∈ i.methods, m.documentation.isSome) ∨
        ∃ v ∈ receivedMethods p.tree, ∃ m, methodOf? v = some m ∧ m.documentation.isSome) := by
  have hcoverage := documentation_ofTree p.path p.tree
  rw [foldl_record] at hcoverage
  have htotal : p.outline.documentation.totalSymbols =
      ((entriesOf p.tree).flatMap OutlineEntry.documentations).length := by
    rw [Parsed.outline, hcoverage]
    exact Nat.zero_add _
  have hdocumented : p.outline.documentation.documentedSymbols =
      ((entriesOf p.tree).flatMap OutlineEntry.documentations).countP Option.isSome := by
    rw [Parsed.outline, hcoverage]
    exact Nat.zero_add _
  have hhas : p.outline.documentation.hasDocumentation ↔
      0 < p.outline.documentation.documentedSymbols := by
    rw [Parsed.outline, hcoverage]
    exact decide_eq_true_iff
  have hcount := countP_symbols Option.isSome p.path p.tree
  refine ⟨?_, hdocumented.trans hcount, ?_, ?_⟩
  · have hlength := countP_symbols (fun _ => true) p.path p.tree
    have hreceived : (receivedMethods p.tree).countP (fun v => (methodOf? v).any fun _ => true) =
        (receivedMethods p.tree).length := by
      refine List.countP_eq_length.2 fun v hv => ?_
      rw [Option.any_true]
      exact isSome_methodOf? hv
    simp only [List.countP_true, hreceived] at hlength
    exact htotal.trans hlength
  · rw [htotal, hdocumented]
    exact List.countP_le_length
  · rw [hhas, hdocumented, hcount]
    simp only [Nat.add_pos_iff_pos_or_pos, List.sum_pos_iff_exists_pos_nat, List.mem_map,
      List.countP_pos_iff, exists_exists_and_eq_and, or_assoc, Option.any_eq_true, Parsed.outline]

end GoOutline
