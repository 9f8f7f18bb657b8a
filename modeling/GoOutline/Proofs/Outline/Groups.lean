import GoOutline.Proofs.Outline.Locations
import GoOutline.Proofs.Outline.Owners
import GoOutline.Proofs.Syntax.Parts

/-!
# Groups of names

Fields and parameters are declared in groups: some names that share a type, or a type on its own. A
group stands for one record per name, and for one record when it has no name. The records of a
struct body or of a parameter list are those of its groups, one group after the other, so no name is
lost, repeated or moved, and what a record says besides its name it takes from its own group.

## Main definitions

* `ExpandsTo`: records that are those of some groups, one group after the other
* `IsFieldGroup`, `IsParameterGroup`: the records of one group
* `DeclaresFields`, `DeclaresParameters`: the records of a struct body and of a parameter list
* `TakesParameters`: the parameters of what has a parameter list
* `Parsed.ExpandsGroups`: the fields and the parameters of a source

## Main results

* `head?_renderNode`: which types are written with a star in front
* `isFieldGroup_propertiesOf`, `isParameterGroup_groupParameters`: single groups
* `expandsGroups_of_parse`: the fields and the parameters of an accepted source
-/

namespace GoOutline

open GoOutline.Syntax GoOutline.Text

/-! ## Expansions -/

/-- The records are those of the groups, one group after the other: as many as a group has names,
and one for a group without names. -/
structure ExpandsTo {α β : Type} (names : α → List String) (IsGroup : α → List β → Prop)
    (groups : List α) (records : List β) : Prop where
  parts : ∃ parts, List.Forall₂ IsGroup groups parts ∧ records = parts.flatten
  length : records.length = (groups.map fun g => max 1 (names g).length).sum

/-- Expanding one group after the other is an expansion. -/
theorem expandsTo_flatMap {α β : Type} {names : α → List String} {IsGroup : α → List β → Prop}
    {groups : List α} {expand : α → List β}
    (hlength : ∀ g ps, IsGroup g ps → ps.length = max 1 (names g).length)
    (hgroup : ∀ g ∈ groups, IsGroup g (expand g)) :
    ExpandsTo names IsGroup groups (groups.flatMap expand) := by
  constructor
  · refine ⟨groups.map expand, ?_, List.flatMap_def ..⟩
    exact List.forall₂_map_right_iff.2 (List.forall₂_same.2 hgroup)
  · rw [List.length_flatMap]
    exact congrArg List.sum (List.map_congr_left fun g hg => hlength g _ (hgroup g hg))

/-- Records that carry some names are as many as the names. -/
theorem length_eq_max_of_map_eq {β : Type} {name : β → String} {names : List String} {ps : List β}
    (h : ps.map name = names) (hne : names ≠ []) : ps.length = max 1 names.length := by
  subst h
  rw [List.length_map]
  refine (max_eq_right (List.length_pos_iff.2 ?_)).symm
  rintro rfl
  exact hne rfl

/-! ## Fields -/

/-- The records of one declaration of fields: one for each name, exported as that name is, all with
the type of the declaration; or one that is named after the embedded type, with a star in front of
it exactly when the declaration has one. -/
structure IsFieldGroup (v : Visit) (ps : List Property) : Prop where
  names : groupNameTexts v.node ≠ [] → ps.map (·.name) = groupNameTexts v.node
  named : groupNameTexts v.node ≠ [] → ∃ type, v.node.child? .type = some type ∧
    ∀ p ∈ ps, p.type = some (TypeExpr.renderNode type) ∧ p.isExported = isExportedName p.name
  embedded : groupNameTexts v.node = [] → ∃ type property, v.node.child? .type = some type ∧
    ps = [property] ∧ property.type = some property.name ∧ property.isExported ∧
      property.name = (if hasStar v.node then "*" else "") ++ TypeExpr.renderNode type ∧
      (property.name.toList.head? = some '*' ↔ hasStar v.node)
  documentation : ∀ p ∈ ps, p.documentation = v.doc
  location : ∀ p ∈ ps, p.location = locationOf v.node

theorem IsFieldGroup.length_eq {v : Visit} {ps : List Property} (h : IsFieldGroup v ps) :
    ps.length = max 1 (groupNameTexts v.node).length := by
  by_cases hnames : groupNameTexts v.node = []
  · obtain ⟨type, property, -, rfl, -⟩ := h.embedded hnames
    rw [hnames]
    rfl
  · exact length_eq_max_of_map_eq (h.names hnames) hnames

/-- The visits to the field declarations of a list. -/
def fieldGroups (list : Node) : List Visit :=
  (Visit.children list).filter (·.node.kind == .fieldDeclaration)

/-- The fields of a struct body are those of the declarations in its only list of fields. -/
def DeclaresFields (body : Node) (ps : List Property) : Prop :=
  ∃ list, body.children.filter (·.kind == .fieldDeclarationList) = [list] ∧
    ExpandsTo (fun v => groupNameTexts v.node) IsFieldGroup (fieldGroups list) ps

section

variable {n : Node}

/-- **Only pointers are written with a star in front**: names and packages are words. -/
theorem head?_renderNode (hspelled : n.Spelled) (hfit : n.AllFit) (hkind : n.kind ≠ .pointerType) :
    (TypeExpr.renderNode n).toList.head? ≠ some '*' := by
  have hword : ∀ c : Node, c.Spelled → c.kind.isName → c.text.toList.head? ≠ some '*' := by
    intro c hc hname hstar
    obtain ⟨rest, hrest⟩ := List.head?_eq_some_iff.1 hstar
    exact (hc.head.word hname).ne_star rest hrest
  rw [TypeExpr.renderNode]
  cases he : TypeExpr.ofNode n with
  | named name =>
    obtain ⟨hname, rfl⟩ := TypeExpr.isName_of_ofNode_eq_named he
    exact hword n hspelled hname
  | pointer e => exact absurd (TypeExpr.pointee_of_ofNode_eq_pointer he).1 hkind
  | qualified package name =>
    obtain ⟨⟨c, hpackage, rfl⟩, -⟩ := TypeExpr.parts_of_ofNode_eq_qualified he
    obtain ⟨hc, hrole⟩ := Node.of_child? hpackage
    have hc' := hspelled.children c hc
    have hname : c.kind.isName := (hfit.children c hc).fits.role _ hrole
    obtain ⟨first, rest, htext⟩ := List.exists_cons_of_ne_nil (hc'.head.word hname).1
    have hfirst := hword c hc' hname
    rw [Node.text, htext] at hfirst
    simpa [TypeExpr.render, Node.text, htext] using hfirst
  | slice e => simp [TypeExpr.render]
  | map key value => simp [TypeExpr.render]
  | interface => simp [TypeExpr.render]
  | chan e => simp [TypeExpr.render]
  | func => simp [TypeExpr.render]
  | unknown => simp [TypeExpr.render]

end

section

variable {v : Visit} {type : Node}

theorem propertiesOf_of_ne_nil (hnames : groupNameTexts v.node ≠ []) :
    propertiesOf v = (groupNameTexts v.node).map fun name =>
      { name := name, type := (v.node.child? .type).map TypeExpr.renderNode, documentation := v.doc,
        location := locationOf v.node, isExported := isExportedName name } := by
  unfold propertiesOf
  simp only
  split
  · next heq => exact absurd heq hnames
  · rfl

theorem propertiesOf_of_eq_nil (hnames : groupNameTexts v.node = [])
    (htype : v.node.child? .type = some type) :
    propertiesOf v =
      [{ name := (if hasStar v.node then "*" else "") ++ TypeExpr.renderNode type,
         type := some ((if hasStar v.node then "*" else "") ++ TypeExpr.renderNode type),
         documentation := v.doc, location := locationOf v.node, isExported := true }] := by
  rw [groupNameTexts] at hnames
  rw [propertiesOf, hnames, htype]

/-- A declaration without names has no part in the role of a name. -/
theorem not_holdsPart_of_eq_nil {n : Node} (hnames : groupNameTexts n = []) :
    ¬ HoldsPart .name n.children := by
  rintro ⟨c, hc, hrole, -⟩
  have hmem : c ∈ n.childrenWith .name := List.mem_filter.2 ⟨hc, beq_iff_eq.2 hrole⟩
  rw [List.map_eq_nil_iff.1 hnames] at hmem
  cases hmem

/-- The embedded type of a declaration is written with a star exactly when the declaration has
one. -/
theorem head?_embedded (hspelled : v.node.Spelled) (hfit : v.node.AllFit)
    (hkind : v.node.kind = .fieldDeclaration) (hnames : groupNameTexts v.node = [])
    (htype : v.node.child? .type = some type) :
    ((if hasStar v.node then "*" else "") ++ TypeExpr.renderNode type).toList.head? = some '*' ↔
      hasStar v.node := by
  have hmem : type ∈ v.node.children := List.mem_of_find?_eq_some htype
  have hpointer : type.kind ≠ .pointerType := by
    have hembedded := hfit.fits.kind.embedded hkind
    exact hembedded.resolve_left (not_holdsPart_of_eq_nil hnames) type hmem
  have hrender := head?_renderNode (hspelled.children type hmem) (hfit.children type hmem) hpointer
  cases hstar : hasStar v.node with
  | true => simp
  | false => simpa using hrender

/-- **The records of one declaration of fields.** -/
theorem isFieldGroup_propertiesOf (hspelled : v.node.Spelled) (hfit : v.node.AllFit)
    (hkind : v.node.kind = .fieldDeclaration) : IsFieldGroup v (propertiesOf v) := by
  obtain ⟨type, htype⟩ := hfit.fits.exists_child? hkind (List.mem_singleton_self Role.type)
  by_cases hnames : groupNameTexts v.node = []
  · rw [propertiesOf_of_eq_nil hnames htype]
    constructor
    · exact fun hne => absurd hnames hne
    · exact fun hne => absurd hnames hne
    · intro _
      have hhead := head?_embedded hspelled hfit hkind hnames htype
      exact ⟨type, _, htype, rfl, rfl, rfl, rfl, hhead⟩
    · exact List.forall_mem_singleton.2 rfl
    · exact List.forall_mem_singleton.2 rfl
  · rw [propertiesOf_of_ne_nil hnames, htype]
    constructor
    · intro _
      rw [List.map_map]
      exact List.map_id _
    · exact fun _ => ⟨type, htype, List.forall_mem_map.2 fun name _ => ⟨rfl, rfl⟩⟩
    · exact fun hnil => absurd hnil hnames
    · exact List.forall_mem_map.2 fun _ _ => rfl
    · exact List.forall_mem_map.2 fun _ _ => rfl

end

/-- The only list of fields of a body is the one that is read. -/
theorem fieldVisits_eq {body list : Node}
    (h : body.children.filter (·.kind == .fieldDeclarationList) = [list]) :
    fieldVisits body = fieldGroups list := by
  have hfind : body.children.find? (·.kind == .fieldDeclarationList) = some list := by
    rw [← List.head?_filter, h]
    rfl
  rw [fieldVisits, hfind]
  rfl

/-- **The fields of a struct body** in a spelled tree whose nodes have their parts. -/
theorem declaresFields_fieldVisits {body : Node} (hspelled : body.Spelled) (hfit : body.AllFit)
    (hkind : body.kind = .structType) :
    DeclaresFields body ((fieldVisits body).flatMap propertiesOf) := by
  obtain ⟨list, hlist⟩ := hfit.fits.kind.fields hkind
  have hmem : list ∈ body.children := by
    refine List.mem_of_mem_filter (p := fun n : Node => n.kind == .fieldDeclarationList) ?_
    rw [hlist]
    exact List.mem_singleton_self list
  refine ⟨list, hlist, ?_⟩
  rw [fieldVisits_eq hlist]
  have hgroup : ∀ v ∈ fieldGroups list,
      v.node.Spelled ∧ v.node.AllFit ∧ v.node.kind = .fieldDeclaration := by
    intro v hv
    obtain ⟨hv, hfield⟩ := List.mem_filter.1 hv
    have hnode : v.node ∈ list.children := by
      rw [← Visit.map_node_ofSiblings [] list.children]
      exact List.mem_map_of_mem hv
    exact ⟨(hspelled.children list hmem).children _ hnode,
      (hfit.children list hmem).children _ hnode, eq_of_beq hfield⟩
  apply expandsTo_flatMap
  · exact fun v ps hps => hps.length_eq
  · intro v hv
    obtain ⟨hspelled, hfit, hkind⟩ := hgroup v hv
    exact isFieldGroup_propertiesOf hspelled hfit hkind

/-! ## Parameters -/

/-- The parameters of one group: one for each name, or one without a name, all of the type of the
group, which is not spelled out when the group is variadic. -/
structure IsParameterGroup (group : Node) (ps : List Parameter) : Prop where
  named : groupNameTexts group ≠ [] → ps.map (·.name) = groupNameTexts group
  unnamed : groupNameTexts group = [] → ps.map (·.name) = ["_"]
  variadic : group.kind = .variadicParameterDeclaration → ∀ p ∈ ps, p.type = some "unknown"
  typed : group.kind ≠ .variadicParameterDeclaration → ∃ type, group.child? .type = some type ∧
    ∀ p ∈ ps, p.type = some (TypeExpr.renderNode type)

theorem IsParameterGroup.length_eq {group : Node} {ps : List Parameter}
    (h : IsParameterGroup group ps) : ps.length = max 1 (groupNameTexts group).length := by
  by_cases hnames : groupNameTexts group = []
  · rw [hnames, ← List.length_map (f := fun p : Parameter => p.name), h.unnamed hnames]
    rfl
  · exact length_eq_max_of_map_eq (h.named hnames) hnames

/-- The parameters of a list are those of its groups. -/
def DeclaresParameters (list : Node) (ps : List Parameter) : Prop :=
  ExpandsTo groupNameTexts IsParameterGroup (list.children.filter isParameterGroup) ps

/-- The node has a parameter list, which declares the parameters. -/
def TakesParameters (n : Node) (ps : List Parameter) : Prop :=
  ∃ list, n.child? .parameters = some list ∧ list.kind = .parameterList ∧
    DeclaresParameters list ps

section

variable {group list n : Node}

theorem map_name_groupParameters :
    (groupParameters group).map (·.name) =
      if groupNameTexts group = [] then [unnamedParameter] else groupNameTexts group := by
  unfold groupParameters
  split
  · next heq =>
    rw [heq]
    rfl
  · next hne =>
    rw [if_neg hne, List.map_map]
    exact List.map_id _

theorem type_of_mem_groupParameters {p : Parameter} (h : p ∈ groupParameters group) :
    p.type = groupType group := by
  unfold groupParameters at h
  split at h
  · rw [List.mem_singleton.1 h]
  · obtain ⟨name, -, rfl⟩ := List.mem_map.1 h
    rfl

/-- **The parameters of one group.** -/
theorem isParameterGroup_groupParameters (hfit : group.Fits) (hgroup : isParameterGroup group) :
    IsParameterGroup group (groupParameters group) := by
  constructor
  · intro hne
    rw [map_name_groupParameters, if_neg hne]
  · intro hnil
    rw [map_name_groupParameters, if_pos hnil]
    rfl
  · intro hkind p hp
    rw [type_of_mem_groupParameters hp, groupType, hkind]
    rfl
  · intro hkind
    have hplain : group.kind = .parameterDeclaration := by
      rcases Bool.or_eq_true_iff.1 hgroup with hplain | hvariadic
      · exact eq_of_beq hplain
      · exact absurd (eq_of_beq hvariadic) hkind
    obtain ⟨type, htype⟩ := hfit.exists_child? hplain (List.mem_singleton_self Role.type)
    refine ⟨type, htype, fun p hp => ?_⟩
    rw [type_of_mem_groupParameters hp, groupType, hplain, htype]
    rfl

/-- **The parameters of a list** whose nodes have their parts. -/
theorem declaresParameters_parametersOf (hfit : list.AllFit) :
    DeclaresParameters list (parametersOf (some list)) := by
  apply expandsTo_flatMap
  · exact fun group ps hps => hps.length_eq
  · intro group hgroup
    obtain ⟨hmem, hkind⟩ := List.mem_filter.1 hgroup
    exact isParameterGroup_groupParameters (hfit.children group hmem).fits hkind

/-- What has a parameter list takes the parameters that are read from it. -/
theorem takesParameters_parametersOf {kind : Kind} (hfit : n.AllFit) (hkind : n.kind = kind)
    (hparts : .parameters ∈ kind.partRoles) :
    TakesParameters n (parametersOf (n.child? .parameters)) := by
  obtain ⟨list, hlist⟩ := hfit.fits.exists_child? hkind hparts
  obtain ⟨hlistFit, hlistKind⟩ := hfit.child? hlist
  refine ⟨list, hlist, hlistKind, ?_⟩
  rw [hlist]
  exact declaresParameters_parametersOf hlistFit

end

/-! ## Accepted sources -/

/-- Groups expand exactly: in every struct body and every parameter list of the source, and in every
record of its outline that has fields or parameters. -/
structure Parsed.ExpandsGroups (p : Parsed) : Prop where
  bodies : ∀ body ∈ p.tree.preorder, body.kind = .structType → ∀ doc spec,
    DeclaresFields body (structOf doc spec body).properties
  lists : ∀ list ∈ p.tree.preorder, list.kind = .parameterList →
    DeclaresParameters list (parametersOf (some list))
  /-- A struct has the fields of the body that it is defined with. -/
  structs : ∀ s ∈ p.outline.classes, ∃ spec ∈ p.tree.preorder, ∃ body,
    s.location = locationOf spec ∧ spec.child? .type = some body ∧ body.kind = .structType ∧
      DeclaresFields body s.properties
  functions : List.Forall₂ (fun v (f : Function) => TakesParameters v.node f.parameters)
    ((Visit.preorder p.tree).filter (·.node.kind = .functionDeclaration)) p.outline.functions
  /-- A method that is bound has the parameters of a declaration with its record. -/
  methods : ∀ s ∈ p.outline.classes, ∀ m ∈ s.methods, ∃ v ∈ Visit.preorder p.tree,
    v.node.kind = .methodDeclaration ∧ methodOf? v = some m ∧ TakesParameters v.node m.parameters
  required : ∀ i ∈ p.outline.interfaces, ∃ spec ∈ p.tree.preorder, ∃ body,
    i.location = locationOf spec ∧ spec.child? .type = some body ∧
      List.Forall₂ (fun v (m : Method) => TakesParameters v.node m.parameters)
        (requiredMethodVisits body) i.methods

section

variable {path : String} {source : List UInt8} {p : Parsed}

/-- **Groups expand exactly** in every accepted source. -/
theorem expandsGroups_of_parse (hp : parse path source = .ok p) : p.ExpandsGroups := by
  -- every node of the tree is spelled as written and has its parts, which is what the lemmas on
  -- single nodes ask for
  have hspelled := (spelled_of_parse hp).of_mem
  have hfit : ∀ n ∈ p.tree.preorder, n.AllFit := fun n hn => (fits_of_parse hp).of_mem hn
  constructor
  · exact fun body hbody hkind _ _ =>
      declaresFields_fieldVisits (hspelled body hbody) (hfit body hbody) hkind
  · exact fun list hlist _ => declaresParameters_parametersOf (hfit list hlist)
  · intro s hs
    obtain ⟨v, hv, spec, hspec, body, hbody, hkind, rfl⟩ := exists_definition_of_mem_classes hs
    have hmem := mem_preorder_of_mem_typeSpecs hv hspec
    have hbodyMem := Node.mem_preorder_trans
      (Node.mem_preorder_of_mem_children (List.mem_of_find?_eq_some hbody)) hmem
    refine ⟨spec, hmem, body, rfl, hbody, hkind, ?_⟩
    exact declaresFields_fieldVisits (hspelled body hbodyMem) (hfit body hbodyMem) hkind
  · rw [Parsed.outline, functions_eq_map]
    refine List.forall₂_map_right_iff.2 (List.forall₂_same.2 fun v hv => ?_)
    obtain ⟨hv, hkind⟩ := List.mem_filter.1 hv
    exact takesParameters_parametersOf (hfit v.node (node_mem_of_mem_preorder hv))
      (of_decide_eq_true hkind) (List.mem_singleton_self _)
  · intro s hs m hm
    obtain ⟨v, hv, hmethod⟩ := (mem_methods_iff hs).1 hm
    obtain ⟨hv, hkind, -⟩ := mem_methodsNaming.1 hv
    refine ⟨v, hv, hkind, hmethod, ?_⟩
    obtain ⟨receiver, -, rfl⟩ := Option.map_eq_some_iff.1 hmethod
    exact takesParameters_parametersOf (hfit v.node (node_mem_of_mem_preorder hv)) hkind
      (List.mem_singleton_self _)
  · intro i hi
    obtain ⟨v, hv, spec, hspec, body, hbody, -, rfl⟩ := exists_definition_of_mem_interfaces hi
    have hmem := mem_preorder_of_mem_typeSpecs hv hspec
    refine ⟨spec, hmem, body, rfl, hbody, ?_⟩
    refine List.forall₂_map_right_iff.2 (List.forall₂_same.2 fun w hw => ?_)
    have hbody := List.mem_of_find?_eq_some hbody
    have hwMem := Node.mem_preorder_trans (mem_preorder_of_mem_requiredMethodVisits hbody hw) hmem
    obtain ⟨-, hkind⟩ := List.mem_filter.1 hw
    exact takesParameters_parametersOf (hfit w.node hwMem)
      (eq_of_beq (Bool.and_eq_true_iff.1 hkind).1) (List.mem_singleton_self _)

end

/-- Fields in groups with comments between them, embedded fields with and without a star, and
parameter lists with a variadic group and with a group without names. -/
def groupedNames : List UInt8 := Text.Utf8.encode
  "package p

type S struct \x7b
	// Both of them.
	A, /* and */ b int
	*T
	q.U
\x7d

func f(a, /* and */ b int, /* the rest */ c ...string) \x7b\x7d

func g(int, /* or */ *S) \x7b\x7d
".toList

theorem expandsGroups_of_parse_groupedNames :
    ∃ p, parse "t.go" groupedNames = .ok p ∧
      (p.outline.classes.map fun s => s.properties.map fun f => (f.name, f.type, f.isExported)) =
        [[("A", some "int", true), ("b", some "int", false), ("*T", some "*T", true),
          ("q.U", some "q.U", true)]] ∧
      (p.outline.functions.map fun f => f.parameters.map fun q => (q.name, q.type)) =
        [[("a", some "int"), ("b", some "int"), ("c", some "unknown")],
          [("_", some "int"), ("_", some "*S")]] ∧
      p.ExpandsGroups := by
  have h : (parse "t.go" groupedNames).toOption.any fun p =>
      (p.outline.classes.map fun s => s.properties.map fun f => (f.name, f.type, f.isExported)) =
        [[("A", some "int", true), ("b", some "int", false), ("*T", some "*T", true),
          ("q.U", some "q.U", true)]] ∧
      (p.outline.functions.map fun f => f.parameters.map fun q => (q.name, q.type)) =
        [[("a", some "int"), ("b", some "int"), ("c", some "unknown")],
          [("_", some "int"), ("_", some "*S")]] := by
    decide +kernel
  obtain ⟨p, hp, hq⟩ := exists_parse_eq_ok h
  obtain ⟨hfields, hparameters⟩ := of_decide_eq_true hq
  exact ⟨p, hp, hfields, hparameters, expandsGroups_of_parse hp⟩

end GoOutline
