import GoOutline.Proofs.Outline.Binding
import GoOutline.Proofs.Syntax.Nesting

/-!
# Locations in an outline

Every location of an outline is the span of some node, and the lists of an outline follow the walk.
Over a nested tree the locations are therefore well formed, those of members lie inside those of
their owners, every list is in the order of the text, and the type definitions do not overlap, also
those that are local to the body of a function.

## Main definitions

* `InOrder`: records in the order in which they start
* `Outline.locations`: all locations of an outline
* `Outline.IsPlaced`: what the locations of an outline have in common

## Main results

* `exists_node_of_mem_locations`: every location is that of a node
* `pairwise_defined`: the type definitions of a nested tree stand one behind the other
* `isPlaced_outline`: the locations in the outline of a nested tree
-/

namespace GoOutline

open GoOutline.Syntax GoOutline.Text

/-! ## Records with a location -/

/-- The records never start earlier than those before them. -/
def InOrder {α : Type} (location : α → Location) (records : List α) : Prop :=
  records.Pairwise fun a b => (location a).start ≤ (location b).start

/-- All locations of an outline: those of its structs with their fields and bound methods, of its
functions, and of its interfaces with the methods that they ask for. -/
def Outline.locations (o : Outline) : List Location :=
  (o.classes.flatMap fun s =>
      s.location :: (s.properties.map (·.location) ++ s.methods.map (·.location))) ++
    o.functions.map (·.location) ++
    o.interfaces.flatMap fun i => i.location :: i.methods.map (·.location)

/-- The locations of an outline are well formed, nested and in the order of the text. -/
structure Outline.IsPlaced (o : Outline) : Prop where
  counted_from_one : ∀ l ∈ o.locations,
    1 ≤ l.startLine ∧ 1 ≤ l.startColumn ∧ 1 ≤ l.endLine ∧ 1 ≤ l.endColumn
  start_le_stop : ∀ l ∈ o.locations, l.start ≤ l.stop
  properties_within : ∀ s ∈ o.classes, ∀ f ∈ s.properties, f.location.IsWithin s.location
  required_within : ∀ i ∈ o.interfaces, ∀ m ∈ i.methods, m.location.IsWithin i.location
  classes : InOrder Struct.location o.classes
  interfaces : InOrder Interface.location o.interfaces
  functions : InOrder Function.location o.functions
  properties : ∀ s ∈ o.classes, InOrder Property.location s.properties
  required : ∀ i ∈ o.interfaces, InOrder Method.location i.methods
  bound : ∀ s ∈ o.classes, InOrder Method.location s.methods
  /-- No two type definitions overlap. -/
  apart : (o.classes.map (·.location) ++ o.interfaces.map (·.location)).Pairwise Location.IsApart

/-! ## The nodes that records come from -/

section

variable {path : String} {root : Node}

theorem node_mem_of_mem_preorder {v : Visit} (h : v ∈ Visit.preorder root) :
    v.node ∈ root.preorder :=
  Visit.node_mem_of_mem_under h

theorem mem_preorder_of_mem_typeSpecs {v : Visit} {spec : Node} (hv : v ∈ Visit.preorder root)
    (h : spec ∈ typeSpecs v.node) : spec ∈ root.preorder :=
  Node.mem_preorder_trans (Node.mem_preorder_of_mem_children (List.mem_of_mem_filter h))
    (node_mem_of_mem_preorder hv)

/-- The fields of a struct come from the body of a specification in the tree. -/
theorem exists_spec_of_mem_classes {s : Struct} (hs : s ∈ (Outline.ofTree path root).classes) :
    ∃ spec ∈ root.preorder, ∃ body ∈ spec.children,
      s.location = locationOf spec ∧ s.properties = (fieldVisits body).flatMap propertiesOf := by
  obtain ⟨v, hv, spec, hspec, body, hbody, -, rfl⟩ := exists_definition_of_mem_classes hs
  exact ⟨spec, mem_preorder_of_mem_typeSpecs hv hspec, body, List.mem_of_find?_eq_some hbody,
    rfl, rfl⟩

/-- The methods that an interface asks for come from the body of a specification in the tree. -/
theorem exists_spec_of_mem_interfaces {i : Interface}
    (hi : i ∈ (Outline.ofTree path root).interfaces) :
    ∃ spec ∈ root.preorder, ∃ body ∈ spec.children,
      i.location = locationOf spec ∧
        i.methods = (requiredMethodVisits body).map requiredMethodOf := by
  obtain ⟨v, hv, spec, hspec, body, hbody, -, rfl⟩ := exists_definition_of_mem_interfaces hi
  exact ⟨spec, mem_preorder_of_mem_typeSpecs hv hspec, body, List.mem_of_find?_eq_some hbody,
    rfl, rfl⟩

/-- A method declaration with a record is located where it stands. -/
theorem location_of_methodOf? {v : Visit} {m : Method} (h : methodOf? v = some m) :
    m.location = locationOf v.node := by
  obtain ⟨r, -, rfl⟩ := Option.map_eq_some_iff.1 h
  rfl

/-- All fields of one declaration are located where it stands. -/
theorem location_of_mem_propertiesOf {v : Visit} {f : Property} (h : f ∈ propertiesOf v) :
    f.location = locationOf v.node := by
  unfold propertiesOf at h
  simp only at h
  split at h
  · split at h
    · simp at h
    · rw [List.mem_singleton.1 h]
  · obtain ⟨name, -, rfl⟩ := List.mem_map.1 h
    rfl

/-- The visits to the fields of a struct type are to some children of its field list, in order. -/
theorem fieldVisits_cases (body : Node) :
    fieldVisits body = [] ∨
      ∃ list ∈ body.children, ((fieldVisits body).map (·.node)).Sublist list.children := by
  unfold fieldVisits
  split
  · exact .inl rfl
  · next list hlist =>
    refine .inr ⟨list, List.mem_of_find?_eq_some hlist, ?_⟩
    rw [← Visit.map_node_ofSiblings [] list.children]
    exact List.filter_sublist.map _

/-- The visits to the methods of an interface type are to some of its children, in order. -/
theorem map_node_requiredMethodVisits (body : Node) :
    ((requiredMethodVisits body).map (·.node)).Sublist body.children := by
  conv_rhs => rw [← Visit.map_node_ofSiblings [] body.children]
  exact List.filter_sublist.map _

/-- The fields of a struct are below its specification. -/
theorem mem_preorder_of_mem_fieldVisits {spec body : Node} (hbody : body ∈ spec.children)
    {v : Visit} (h : v ∈ fieldVisits body) : v.node ∈ spec.preorder := by
  refine Node.mem_preorder_iff.2 (.inr ⟨body, hbody, ?_⟩)
  rcases fieldVisits_cases body with hnil | ⟨list, hlist, hsub⟩
  · rw [hnil] at h
    cases h
  · have hv := hsub.subset (List.mem_map_of_mem h)
    exact Node.mem_preorder_trans (Node.mem_preorder_of_mem_children hv)
      (Node.mem_preorder_of_mem_children hlist)

/-- The methods of an interface are below its specification. -/
theorem mem_preorder_of_mem_requiredMethodVisits {spec body : Node} (hbody : body ∈ spec.children)
    {v : Visit} (h : v ∈ requiredMethodVisits body) : v.node ∈ spec.preorder := by
  have hv := (map_node_requiredMethodVisits body).subset (List.mem_map_of_mem h)
  exact Node.mem_preorder_iff.2 (.inr ⟨body, hbody, Node.mem_preorder_of_mem_children hv⟩)

/-- **Every location is that of a node** of the tree. -/
theorem exists_node_of_mem_locations {l : Location}
    (h : l ∈ (Outline.ofTree path root).locations) : ∃ n ∈ root.preorder, l = locationOf n := by
  rw [Outline.locations, List.mem_append, List.mem_append] at h
  -- structs with their fields and methods, functions, and interfaces with their methods
  rcases h with (h | h) | h
  · obtain ⟨s, hs, hl⟩ := List.mem_flatMap.1 h
    obtain ⟨spec, hspec, body, hbody, hlocation, hproperties⟩ := exists_spec_of_mem_classes hs
    rcases List.mem_cons.1 hl with rfl | hl
    · exact ⟨spec, hspec, hlocation⟩
    rcases List.mem_append.1 hl with hl | hl
    · obtain ⟨f, hf, rfl⟩ := List.mem_map.1 hl
      rw [hproperties] at hf
      obtain ⟨w, hw, hf⟩ := List.mem_flatMap.1 hf
      exact ⟨w.node, Node.mem_preorder_trans (mem_preorder_of_mem_fieldVisits hbody hw) hspec,
        location_of_mem_propertiesOf hf⟩
    · obtain ⟨m, hm, rfl⟩ := List.mem_map.1 hl
      obtain ⟨w, hw, hwm⟩ := (mem_methods_iff hs).1 hm
      exact ⟨w.node, node_mem_of_mem_preorder (mem_methodsNaming.1 hw).1,
        location_of_methodOf? hwm⟩
  · obtain ⟨f, hf, rfl⟩ := List.mem_map.1 h
    rw [functions_eq_map] at hf
    obtain ⟨v, hv, rfl⟩ := List.mem_map.1 hf
    exact ⟨v.node, node_mem_of_mem_preorder (List.mem_of_mem_filter hv), rfl⟩
  · obtain ⟨i, hi, hl⟩ := List.mem_flatMap.1 h
    obtain ⟨spec, hspec, body, hbody, hlocation, hmethods⟩ := exists_spec_of_mem_interfaces hi
    rcases List.mem_cons.1 hl with rfl | hl
    · exact ⟨spec, hspec, hlocation⟩
    · obtain ⟨m, hm, rfl⟩ := List.mem_map.1 hl
      rw [hmethods] at hm
      obtain ⟨w, hw, rfl⟩ := List.mem_map.1 hm
      exact ⟨w.node,
        Node.mem_preorder_trans (mem_preorder_of_mem_requiredMethodVisits hbody hw) hspec, rfl⟩

end

/-! ## Records in the order of the text -/

/-- Records that are located where some visits stand are in order when the visits are. -/
theorem inOrder_of_located {α : Type} {location : α → Location} {records : List α}
    {visits : List Visit}
    (hlocated : records.map location = visits.map fun v => locationOf v.node)
    (hvisits : visits.Pairwise fun v w => v.node.span.start ≤ w.node.span.start) :
    InOrder location records := by
  have hmap : (records.map location).Pairwise fun l m => l.start ≤ m.start := by
    rw [hlocated]
    refine List.pairwise_map.2 (hvisits.imp fun {v w} hvw => ?_)
    exact Point.reported_le_reported_iff.2 hvw
  rwa [List.pairwise_map] at hmap

/-- Visits to some children of a nested node, in order, start one after the other. -/
theorem pairwise_of_map_node {n : Node} (h : n.IsNested) {visits : List Visit}
    (hsub : (visits.map (·.node)).Sublist n.children) :
    visits.Pairwise fun v w => v.node.span.start ≤ w.node.span.start := by
  have hnodes := h.pairwise_start.sublist hsub
  rwa [List.pairwise_map] at hnodes

section

variable {path : String} {root : Node}

theorem inOrder_functions (h : root.IsNested) :
    InOrder Function.location (Outline.ofTree path root).functions := by
  have hvisits := ((Visit.pairwise_preorder h).imp And.left).filter
    fun v => decide (v.node.kind = .functionDeclaration)
  refine inOrder_of_located ?_ hvisits
  rw [functions_eq_map, List.map_map]
  rfl

/-- The methods of a struct are located where the declarations that name it stand. -/
theorem map_location_methods {s : Struct} (hs : s ∈ (Outline.ofTree path root).classes) :
    s.methods.map Method.location =
      (methodsNaming root s.name).map fun v => locationOf v.node := by
  apply List.map_injective_iff.2 fun _ _ => Option.some.inj
  calc (s.methods.map Method.location).map some
    _ = (s.methods.map some).map (Option.map Method.location) := by
      rw [List.map_map, List.map_map]
      rfl
    _ = ((methodsNaming root s.name).map methodOf?).map (Option.map Method.location) := by
      rw [map_some_methods hs]
    _ = ((methodsNaming root s.name).map fun v => locationOf v.node).map some := by
      rw [List.map_map, List.map_map]
      refine List.map_congr_left fun v hv => ?_
      -- a declaration that names an owner has a receiver, and with it a record
      obtain ⟨r, hr, -⟩ := Option.map_eq_some_iff.1 (mem_methodsNaming.1 hv).2.2
      simp [methodOf?, hr]

theorem inOrder_methods (h : root.IsNested) {s : Struct}
    (hs : s ∈ (Outline.ofTree path root).classes) : InOrder Method.location s.methods :=
  inOrder_of_located (map_location_methods hs)
    (((Visit.pairwise_preorder h).imp And.left).filter _)

theorem pairwise_fieldVisits {body : Node} (h : body.IsNested) :
    (fieldVisits body).Pairwise fun v w => v.node.span.start ≤ w.node.span.start := by
  rcases fieldVisits_cases body with hnil | ⟨list, hlist, hsub⟩
  · rw [hnil]
    exact List.Pairwise.nil
  · exact pairwise_of_map_node (h.of_mem_children hlist) hsub

/-- The fields of a struct are in order: those of one declaration stand at one place, and the
declarations follow each other. -/
theorem inOrder_properties {body : Node} (h : body.IsNested) :
    InOrder Property.location ((fieldVisits body).flatMap propertiesOf) := by
  refine List.pairwise_flatMap.2 ⟨fun v _ => ?_, ?_⟩
  · refine List.pairwise_of_forall_mem_list fun f hf g hg => ?_
    rw [location_of_mem_propertiesOf hf, location_of_mem_propertiesOf hg]
  · refine (pairwise_fieldVisits h).imp fun {v w} hvw f hf g hg => ?_
    rw [location_of_mem_propertiesOf hf, location_of_mem_propertiesOf hg]
    exact Point.reported_le_reported_iff.2 hvw

theorem inOrder_required {body : Node} (h : body.IsNested) :
    InOrder Method.location ((requiredMethodVisits body).map requiredMethodOf) := by
  refine inOrder_of_located ?_ (pairwise_of_map_node h (map_node_requiredMethodVisits body))
  rw [List.map_map]
  rfl

theorem isWithin_of_mem {m n : Node} (h : n.IsNested) (hm : m ∈ n.preorder) :
    (locationOf m).IsWithin (locationOf n) := by
  obtain ⟨hstart, hstop⟩ := h.span_of_mem hm
  exact ⟨Point.reported_le_reported_iff.2 hstart, Point.reported_le_reported_iff.2 hstop⟩

/-! ## Type definitions -/

/-- Where a type is defined, for an entry that defines one. -/
@[simp] def OutlineEntry.defined? : OutlineEntry → Option Location
  | .struct s => some s.location
  | .interface i => some i.location
  | _ => none

/-- A type is defined where its specification stands. -/
theorem location_of_defined? {doc : Option String} {spec : Node} {l : Location}
    (h : (entryOfSpec? doc spec).bind OutlineEntry.defined? = some l) : l = locationOf spec := by
  unfold entryOfSpec? structOfSpec? interfaceOfSpec? at h
  cases hbody : spec.child? .type with
  | none => simp [hbody] at h
  | some body =>
    by_cases hs : body.kind = .structType
    · simp only [hbody, hs, Option.bind_some, if_true, Option.map_some, Option.some_or,
        OutlineEntry.defined?, Option.some.injEq] at h
      exact h.symm
    · by_cases hi : body.kind = .interfaceType
      · simp only [hbody, hi, reduceCtorEq, Option.bind_some, if_true, if_false, Option.map_some,
          Option.map_none, Option.none_or, OutlineEntry.defined?, Option.some.injEq] at h
        exact h.symm
      · simp [hbody, hs, hi] at h

theorem filterMap_defined?_entriesOf (root : Node) :
    (entriesOf root).filterMap OutlineEntry.defined? =
      ((Visit.preorder root).filter (·.node.kind = .typeDeclaration)).flatMap fun v =>
        (typeSpecs v.node).filterMap fun spec =>
          (entryOfSpec? v.doc spec).bind OutlineEntry.defined? := by
  refine filterMap_entriesOf (fun v => ?_) root
  cases hm : methodOf? v <;> unfold Visit.entries <;> split <;>
    simp_all [List.filterMap_filterMap, List.filterMap_cons]

/-- **Type definitions stand one behind the other**: each of them ends before the next one starts.
The walk does not go on into type declarations, so none is inside another. -/
theorem pairwise_defined (h : root.IsNested) :
    ((entriesOf root).filterMap OutlineEntry.defined?).Pairwise fun l m =>
      l.start ≤ l.stop ∧ l.stop ≤ m.start := by
  have hnested {v : Visit} (hv : v ∈ Visit.preorder root) : v.node.IsNested :=
    h.of_mem (node_mem_of_mem_preorder hv)
  have hlocations {v w : Visit} {a b : Node} (hv : v ∈ Visit.preorder root)
      (ha : a ∈ v.node.children) (hab : a.span.stop ≤ b.span.start) {l m : Location}
      (hl : (entryOfSpec? v.doc a).bind OutlineEntry.defined? = some l)
      (hm : (entryOfSpec? w.doc b).bind OutlineEntry.defined? = some m) :
      l.start ≤ l.stop ∧ l.stop ≤ m.start := by
    rw [location_of_defined? hl, location_of_defined? hm]
    have ha' := ((hnested hv).of_mem_children ha).nestsChildren.start_le_stop
    exact ⟨Point.reported_le_reported_iff.2 ha', Point.reported_le_reported_iff.2 hab⟩
  rw [filterMap_defined?_entriesOf]
  refine List.pairwise_flatMap.2 ⟨fun v hv => ?_, ?_⟩
  · have hv := List.mem_of_mem_filter hv
    refine List.pairwise_filterMap.2 ?_
    refine ((hnested hv).nestsChildren.apart.filter _).imp_of_mem ?_
    intro a b ha _ hab l hl m hm
    exact hlocations hv (List.mem_of_mem_filter ha) hab hl hm
  · -- a declaration that the walk passes over ends before the next one that it visits starts
    refine ((Visit.pairwise_preorder h).filter _).imp_of_mem ?_
    intro v w hv hw hvw l hl m hm
    obtain ⟨hv, hkind⟩ := List.mem_filter.1 hv
    obtain ⟨a, ha, hl⟩ := List.mem_filterMap.1 hl
    obtain ⟨b, hb, hm⟩ := List.mem_filterMap.1 hm
    have hdescends : Visit.descends v.node = false := by
      rw [Visit.descends, of_decide_eq_true hkind]
      rfl
    have ha := List.mem_of_mem_filter ha
    have hastop := ((hnested hv).nestsChildren.within a ha).2
    have hbstart := ((hnested (List.mem_of_mem_filter hw)).nestsChildren.within b
      (List.mem_of_mem_filter hb)).1
    exact hlocations hv ha ((hastop.trans (hvw.2 hdescends)).trans hbstart) hl hm

/-- The type definitions of a run of entries, the structs before the interfaces. -/
theorem perm_filterMap_defined? (es : List OutlineEntry) :
    ((es.filterMap OutlineEntry.struct?).map (·.location) ++
        (es.filterMap OutlineEntry.interface?).map (·.location)).Perm
      (es.filterMap OutlineEntry.defined?) := by
  induction es with
  | nil => exact List.Perm.refl _
  | cons e rest ih =>
    cases e with
    | struct s => exact ih.cons s.location
    | interface i => exact List.perm_middle.trans (ih.cons i.location)
    | function f => exact ih
    | method m => exact ih
    | imported i => exact ih

theorem map_location_classes : (Outline.ofTree path root).classes.map (·.location) =
    ((entriesOf root).filterMap OutlineEntry.struct?).map (·.location) := by
  rw [classes_ofTree, List.map_map]
  rfl

/-- No two type definitions of a nested tree overlap. -/
theorem pairwise_isApart (h : root.IsNested) :
    ((Outline.ofTree path root).classes.map (·.location) ++
      (Outline.ofTree path root).interfaces.map (·.location)).Pairwise Location.IsApart := by
  rw [map_location_classes, interfaces_ofTree]
  refine ((perm_filterMap_defined? (entriesOf root)).pairwise_iff fun hlm => hlm.symm).2 ?_
  exact (pairwise_defined h).imp fun hlm => .inl hlm.2

/-- Type definitions of one kind are in order: they are some of all of them. -/
theorem inOrder_defined {α : Type} {location : α → Location} {record? : OutlineEntry → Option α}
    (hrecord : ∀ e a, record? e = some a → e.defined? = some (location a)) (h : root.IsNested) :
    InOrder location ((entriesOf root).filterMap record?) := by
  refine List.pairwise_filterMap.2 ?_
  refine (List.pairwise_filterMap.1 (pairwise_defined h)).imp ?_
  intro e f hef a ha b hb
  obtain ⟨hstop, hstart⟩ := hef _ (hrecord e a ha) _ (hrecord f b hb)
  exact hstop.trans hstart

theorem inOrder_interfaces (h : root.IsNested) :
    InOrder Interface.location (Outline.ofTree path root).interfaces := by
  rw [interfaces_ofTree]
  refine inOrder_defined (fun e a he => ?_) h
  cases e <;> cases he
  rfl

theorem inOrder_classes (h : root.IsNested) :
    InOrder Struct.location (Outline.ofTree path root).classes := by
  have hentered : InOrder Struct.location ((entriesOf root).filterMap OutlineEntry.struct?) := by
    refine inOrder_defined (fun e a he => ?_) h
    cases e <;> cases he
    rfl
  rw [classes_ofTree]
  exact List.pairwise_map.2 hentered

end

/-- **Locations are well formed, nested and in the order of the text**, for every tree whose spans
are nested. -/
theorem isPlaced_outline (p : Parsed) (h : p.tree.IsNested) : p.outline.IsPlaced where
  counted_from_one l hl := by
    obtain ⟨n, -, rfl⟩ := exists_node_of_mem_locations hl
    exact ⟨Nat.le_add_left .., Nat.le_add_left .., Nat.le_add_left .., Nat.le_add_left ..⟩
  start_le_stop l hl := by
    obtain ⟨n, hn, rfl⟩ := exists_node_of_mem_locations hl
    exact Point.reported_le_reported_iff.2 (h n hn).start_le_stop
  properties_within s hs f hf := by
    obtain ⟨spec, hspec, body, hbody, hlocation, hproperties⟩ := exists_spec_of_mem_classes hs
    rw [hproperties] at hf
    obtain ⟨w, hw, hf⟩ := List.mem_flatMap.1 hf
    -- a field is below the specification, and nested spans keep it within
    rw [hlocation, location_of_mem_propertiesOf hf]
    exact isWithin_of_mem (h.of_mem hspec) (mem_preorder_of_mem_fieldVisits hbody hw)
  required_within i hi m hm := by
    obtain ⟨spec, hspec, body, hbody, hlocation, hmethods⟩ := exists_spec_of_mem_interfaces hi
    rw [hmethods] at hm
    obtain ⟨w, hw, rfl⟩ := List.mem_map.1 hm
    rw [hlocation]
    exact isWithin_of_mem (h.of_mem hspec) (mem_preorder_of_mem_requiredMethodVisits hbody hw)
  classes := inOrder_classes h
  interfaces := inOrder_interfaces h
  functions := inOrder_functions h
  properties s hs := by
    obtain ⟨spec, hspec, body, hbody, -, hproperties⟩ := exists_spec_of_mem_classes hs
    rw [hproperties]
    exact inOrder_properties ((h.of_mem hspec).of_mem_children hbody)
  required i hi := by
    obtain ⟨spec, hspec, body, hbody, -, hmethods⟩ := exists_spec_of_mem_interfaces hi
    rw [hmethods]
    exact inOrder_required ((h.of_mem hspec).of_mem_children hbody)
  bound s hs := inOrder_methods h hs
  apart := pairwise_isApart h

/-- A struct and an interface with members, a local struct, and methods around them. -/
def nestedDeclarations : List UInt8 := Text.Utf8.encode
  "package p
func (s *S) M() \x7b type L struct\x7b\x7d \x7d
type (
	S struct\x7b
		A, B int
		*T
	\x7d
	I interface\x7b
		F()
		G()
	\x7d
)
func (S) N() \x7b\x7d
".toList

theorem isPlaced_outline_nestedDeclarations :
    ∃ p, parse "t.go" nestedDeclarations = .ok p ∧ p.tree.IsNested ∧
      (p.outline.classes.map fun s => (s.name, s.properties.length, s.methods.length)) =
        [("L", 0, 0), ("S", 3, 2)] ∧
      (p.outline.interfaces.map fun i => (i.name, i.methods.length)) = [("I", 2)] ∧
      p.outline.IsPlaced := by
  have h : (parse "t.go" nestedDeclarations).toOption.any fun p => p.tree.IsNested ∧
      (p.outline.classes.map fun s => (s.name, s.properties.length, s.methods.length)) =
        [("L", 0, 0), ("S", 3, 2)] ∧
      (p.outline.interfaces.map fun i => (i.name, i.methods.length)) = [("I", 2)] := by
    decide +kernel
  obtain ⟨p, hp, hq⟩ := exists_parse_eq_ok h
  obtain ⟨hnested, hclasses, hinterfaces⟩ := of_decide_eq_true hq
  exact ⟨p, hp, hnested, hclasses, hinterfaces, isPlaced_outline p hnested⟩

end GoOutline
