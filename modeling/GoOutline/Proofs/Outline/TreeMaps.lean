import GoOutline.Proofs.Outline.Entries
import GoOutline.Proofs.Syntax.Nesting

/-!
# Maps of trees that the outline does not see

A map of trees may change the inside of some blocks that are the body of something, as long as it
keeps the kind and the role of every node and goes on to the children of all others. The readings of
types, signatures, comments and declarations are the same after such a map, since none of them looks
into a body. If moreover nothing is declared in the blocks that it changes, the outline is the same.

## Main definitions

* `KeepsParts`: the maps that change at most the inside of hidden bodies
* `Visit.map`: a map of trees on visits
* `Node.IsInert`: nothing is declared in a tree

## Main results

* `KeepsParts.ofNode`, `KeepsParts.parametersOf`, `KeepsParts.returnTypeOf`: types and signatures
* `KeepsParts.doc`: documentation
* `KeepsParts.entries`: what a visit enters
* `KeepsParts.ofTree`: the outline
-/

namespace GoOutline

open GoOutline.Syntax

/-- A map of trees that keeps the kind and the role of every node. The text of a node is kept too,
and its children are mapped in turn, unless the node is hidden. Only blocks in the role of a body
may be hidden. -/
structure KeepsParts (hidden : Node → Prop) (f : Node → Node) : Prop where
  isBody : ∀ {n}, hidden n → n.kind = .block ∧ n.role = some .body
  kind : ∀ n, (f n).kind = n.kind
  role : ∀ n, (f n).role = n.role
  text : ∀ {n}, ¬ hidden n → (f n).text = n.text
  children : ∀ {n}, ¬ hidden n → (f n).children = n.children.map f

/-- A block does not stand for a type. -/
theorem TypeExpr.ofNode_block {n : Node} (h : n.kind = .block) : ofNode n = .unknown := by
  obtain ⟨head, children⟩ := n
  change head.kind = .block at h
  rw [ofNode, h]

/-- The type that a node stands for is read off its kind, its text and some of its children. -/
theorem TypeExpr.ofNode_congr {m n : Node} (hkind : m.kind = n.kind) (htext : m.text = n.text)
    (hfirst : ofFirstNamed m.children = ofFirstNamed n.children)
    (hrole : ∀ r, ofRole r m.children = ofRole r n.children)
    (hpackage : (m.child? .package).map (·.text) = (n.child? .package).map (·.text))
    (hname : (m.child? .name).map (·.text) = (n.child? .name).map (·.text)) :
    ofNode m = ofNode n := by
  obtain ⟨head, children⟩ := m
  obtain ⟨head', children'⟩ := n
  change head.kind = head'.kind at hkind
  change head.text = head'.text at htext
  simp only [Node.child?, Node.children] at hfirst hrole hpackage hname
  rw [ofNode, ofNode, hkind, htext, hfirst, hrole, hrole, hrole]
  cases h : children.find? (·.role == some .package) <;>
    cases h' : children'.find? (·.role == some .package) <;>
    cases g : children.find? (·.role == some .name) <;>
    cases g' : children'.find? (·.role == some .name) <;>
    simp_all

/-- Documentation is made of the texts of comments. -/
theorem Doc.docText_congr {cs ds : List Node} (h : cs.map (·.text) = ds.map (·.text)) :
    docText cs = docText ds := by
  have hempty : cs.isEmpty = ds.isEmpty := by
    rw [← List.isEmpty_map, h, List.isEmpty_map]
  rw [docText, docText, hempty, h]

theorem kind_of_mem_importSpecs {n c : Node} (h : c ∈ importSpecs n) : c.kind = .importSpec := by
  obtain ⟨d, -, hc⟩ := List.mem_flatMap.1 h
  split at hc
  · next hd => simpa [List.mem_singleton.1 hc] using hd
  · split at hc
    · simpa using (List.mem_filter.1 hc).2
    · simp at hc

namespace Visit

/-- The visit after a map of trees. -/
def map (f : Node → Node) (v : Visit) : Visit := ⟨v.before.map f, f v.node⟩

/-- The visits to changed siblings are the changed visits. -/
theorem ofSiblings_map (f : Node → Node) (before ns : List Node) :
    ofSiblings (before.map f) (ns.map f) = (ofSiblings before ns).map (map f) := by
  induction ns generalizing before with
  | nil => rfl
  | cons n rest ih =>
    rw [List.map_cons, ofSiblings, ofSiblings, List.map_cons, ← ih (n :: before)]
    rfl

end Visit

/-- The kinds of the nodes that enter records. -/
def declarationKinds : List Kind :=
  [.typeDeclaration, .importDeclaration, .functionDeclaration, .methodDeclaration]

/-- Nothing is declared in a tree. -/
def Syntax.Node.IsInert (n : Node) : Prop := ∀ m ∈ n.preorder, m.kind ∉ declarationKinds

instance (n : Node) : Decidable n.IsInert :=
  inferInstanceAs (Decidable (∀ m ∈ n.preorder, m.kind ∉ declarationKinds))

/-- A walk over a tree in which nothing is declared enters nothing. -/
theorem Syntax.Node.IsInert.entries_under {n : Node} (h : n.IsInert) (before : List Node) :
    (Visit.under before n).flatMap Visit.entries = [] := by
  refine List.flatMap_eq_nil_iff.2 fun v hv => ?_
  have hkind := h v.node (Visit.node_mem_of_mem_under hv)
  simp only [declarationKinds, List.mem_cons, List.not_mem_nil, or_false, not_or] at hkind
  obtain ⟨htype, himport, hfunction, hmethod⟩ := hkind
  exact entries_eq_nil htype himport hfunction hmethod

namespace KeepsParts

variable {hidden : Node → Prop} {f : Node → Node}

/-! ## Children -/

section

variable (hf : KeepsParts hidden f) {n c : Node} {k : Kind} {r : Role}

include hf

/-- Only blocks are hidden. -/
theorem not_hidden_of_kind (h : n.kind = k) (hk : k ≠ .block) : ¬ hidden n := by
  intro hn
  exact hk (h.symm.trans (hf.isBody hn).1)

/-- Only bodies are hidden. -/
theorem not_hidden_of_role (h : n.role = some r) (hr : r ≠ .body) : ¬ hidden n := by
  intro hn
  have hrole := h.symm.trans (hf.isBody hn).2
  exact hr (Option.some.inj hrole)

theorem not_hidden_of_child? (h : n.child? r = some c) (hr : r ≠ .body) : ¬ hidden c :=
  hf.not_hidden_of_role (by simpa using List.find?_some h) hr

/-- The first node of a kind is the first among the changed nodes. -/
theorem find?_kind (ns : List Node) (k : Kind) :
    (ns.map f).find? (·.kind == k) = (ns.find? (·.kind == k)).map f := by
  rw [List.find?_map]
  simp only [Function.comp_def, hf.kind]

/-- The nodes of a kind are changed one by one. -/
theorem filter_kind (ns : List Node) (k : Kind) :
    (ns.map f).filter (·.kind == k) = (ns.filter (·.kind == k)).map f := by
  rw [List.filter_map]
  simp only [Function.comp_def, hf.kind]

theorem find?_role (ns : List Node) (r : Role) :
    (ns.map f).find? (·.role == some r) = (ns.find? (·.role == some r)).map f := by
  rw [List.find?_map]
  simp only [Function.comp_def, hf.role]

/-- A child in a role is the changed child. -/
theorem child? (hn : ¬ hidden n) (r : Role) : (f n).child? r = (n.child? r).map f := by
  rw [Node.child?, hf.children hn, hf.find?_role]
  rfl

/-- The text of a child that is no body stays. -/
theorem text_child? (hn : ¬ hidden n) (hr : r ≠ .body) :
    ((f n).child? r).map (·.text) = (n.child? r).map (·.text) := by
  rw [hf.child? hn, Option.map_map]
  refine Option.map_congr fun c hc => ?_
  exact hf.text (hf.not_hidden_of_child? hc hr)

theorem texts_childrenWith (hn : ¬ hidden n) (hr : r ≠ .body) :
    ((f n).childrenWith r).map (·.text) = (n.childrenWith r).map (·.text) := by
  rw [Node.childrenWith, Node.childrenWith, hf.children hn, List.filter_map, List.map_map]
  simp only [Function.comp_def, hf.role]
  refine List.map_congr_left fun c hc => ?_
  have hrole := (List.mem_filter.1 hc).2
  exact hf.text (hf.not_hidden_of_role (by simpa using hrole) hr)

/-- Names stay. -/
theorem nameOf (hn : ¬ hidden n) : nameOf (f n) = nameOf n := by
  rw [GoOutline.nameOf, GoOutline.nameOf, hf.text_child? hn (by decide)]

/-! ## Types and signatures -/

/-- The type in a role stays when every type does. -/
theorem ofRole_map {ns : List Node}
    (h : ∀ n ∈ ns, TypeExpr.ofNode (f n) = TypeExpr.ofNode n) (r : Role) :
    TypeExpr.ofRole r (ns.map f) = TypeExpr.ofRole r ns := by
  induction ns with
  | nil => rfl
  | cons n rest ih =>
    obtain ⟨hn, hrest⟩ := List.forall_mem_cons.1 h
    rw [List.map_cons, TypeExpr.ofRole, TypeExpr.ofRole, hf.role, hn, ih hrest]

theorem ofFirstNamed_map {ns : List Node}
    (h : ∀ n ∈ ns, TypeExpr.ofNode (f n) = TypeExpr.ofNode n) :
    TypeExpr.ofFirstNamed (ns.map f) = TypeExpr.ofFirstNamed ns := by
  induction ns with
  | nil => rfl
  | cons n rest ih =>
    obtain ⟨hn, hrest⟩ := List.forall_mem_cons.1 h
    rw [List.map_cons, TypeExpr.ofFirstNamed, TypeExpr.ofFirstNamed, Node.isNamed, hf.kind, hn,
      ih hrest]
    rfl

/-- The type that a node stands for is kept. -/
theorem ofNode (n : Node) : TypeExpr.ofNode (f n) = TypeExpr.ofNode n := by
  induction n using Node.childInduction with
  | mk head children ih =>
    by_cases hn : hidden (.mk head children)
    · have hkind := (hf.isBody hn).1
      rw [TypeExpr.ofNode_block hkind, TypeExpr.ofNode_block ((hf.kind _).trans hkind)]
    · apply TypeExpr.ofNode_congr (hf.kind _) (hf.text hn)
      · rw [hf.children hn]
        exact hf.ofFirstNamed_map ih
      · intro r
        rw [hf.children hn]
        exact hf.ofRole_map ih r
      · exact hf.text_child? hn (by decide)
      · exact hf.text_child? hn (by decide)

/-- Types stay as they are written. -/
theorem renderNode (n : Node) : TypeExpr.renderNode (f n) = TypeExpr.renderNode n :=
  congrArg TypeExpr.render (hf.ofNode n)

theorem groupType (hn : ¬ hidden n) : groupType (f n) = groupType n := by
  rw [GoOutline.groupType, GoOutline.groupType, hf.kind, hf.child? hn, Option.map_map]
  simp only [Function.comp_def, hf.renderNode]

/-- The parameters of a group stay. -/
theorem groupParameters (hn : ¬ hidden n) : groupParameters (f n) = groupParameters n := by
  rw [GoOutline.groupParameters, GoOutline.groupParameters, groupNameTexts, groupNameTexts,
    hf.texts_childrenWith hn (by decide), hf.groupType hn]

theorem parameterGroups (hn : ¬ hidden n) :
    parameterGroups (f n) = (parameterGroups n).map f := by
  have hgroup : isParameterGroup ∘ f = isParameterGroup := by
    funext c
    rw [Function.comp_apply, isParameterGroup, isParameterGroup, hf.kind]
  rw [GoOutline.parameterGroups, GoOutline.parameterGroups, hf.children hn, List.filter_map,
    hgroup]

theorem not_hidden_of_mem_parameterGroups (h : c ∈ GoOutline.parameterGroups n) : ¬ hidden c := by
  refine hf.not_hidden_of_kind rfl fun hkind => ?_
  simp [GoOutline.parameterGroups, isParameterGroup, hkind] at h

/-- The parameters of a list are kept. -/
theorem parametersOf {list : Option Node} (h : ∀ l ∈ list, ¬ hidden l) :
    parametersOf (list.map f) = parametersOf list := by
  cases list with
  | none => rfl
  | some list =>
    rw [Option.map_some, GoOutline.parametersOf, GoOutline.parametersOf,
      hf.parameterGroups (h list rfl), List.flatMap_map]
    refine List.flatMap_congr fun c hc => ?_
    exact hf.groupParameters (hf.not_hidden_of_mem_parameterGroups hc)

/-- The text of a result is kept. -/
theorem returnTypeOf {result : Option Node} (h : ∀ l ∈ result, ¬ hidden l) :
    returnTypeOf (result.map f) = returnTypeOf result := by
  cases result with
  | none => rfl
  | some result =>
    have htype : ∀ c ∈ GoOutline.parameterGroups result,
        GoOutline.groupType (f c) = GoOutline.groupType c :=
      fun c hc => hf.groupType (hf.not_hidden_of_mem_parameterGroups hc)
    have hname : ∀ c ∈ GoOutline.parameterGroups result,
        (f c).child? .name = (c.child? .name).map f :=
      fun c hc => hf.child? (hf.not_hidden_of_mem_parameterGroups hc) .name
    rw [Option.map_some, GoOutline.returnTypeOf, GoOutline.returnTypeOf, hf.kind, hf.renderNode,
      hf.parameterGroups (h result rfl)]
    generalize GoOutline.parameterGroups result = groups at htype hname
    rcases groups with _ | ⟨group, _ | ⟨second, groups⟩⟩
    · rfl
    · simp [htype, hname]
    · have htypes : ((group :: second :: groups).map f).filterMap GoOutline.groupType =
          (group :: second :: groups).filterMap GoOutline.groupType := by
        rw [List.filterMap_map]
        exact List.filterMap_congr htype
      simp only [List.map_cons, ← htypes]

/-- The signature of a node is kept. -/
theorem signature (hn : ¬ hidden n) :
    GoOutline.parametersOf ((f n).child? .parameters) =
        GoOutline.parametersOf (n.child? .parameters) ∧
      GoOutline.returnTypeOf ((f n).child? .result) =
        GoOutline.returnTypeOf (n.child? .result) := by
  rw [hf.child? hn, hf.child? hn]
  constructor
  · exact hf.parametersOf fun l hl => hf.not_hidden_of_child? hl (by decide)
  · exact hf.returnTypeOf fun l hl => hf.not_hidden_of_child? hl (by decide)

/-- The type of the receiver is the changed one, which is written as before. -/
theorem receiverType? (hn : ¬ hidden n) : receiverType? (f n) = (receiverType? n).map f := by
  unfold GoOutline.receiverType?
  rw [hf.child? hn]
  cases hlist : n.child? .receiver with
  | none => rfl
  | some list =>
    simp only [Option.map_some, Option.bind_eq_bind, Option.bind_some]
    rw [hf.parameterGroups (hf.not_hidden_of_child? hlist (by decide)), List.head?_map]
    cases hgroup : (GoOutline.parameterGroups list).head? with
    | none => rfl
    | some group =>
      have hmem := List.mem_of_mem_head? hgroup
      exact hf.child? (hf.not_hidden_of_mem_parameterGroups hmem) .type

/-- The owner that a receiver names stays. -/
theorem ownerOf (receiver : Node) : ownerOf (f receiver) = ownerOf receiver := by
  rw [GoOutline.ownerOf, GoOutline.ownerOf, hf.renderNode]

theorem importSpecs (hn : ¬ hidden n) : importSpecs (f n) = (importSpecs n).map f := by
  rw [GoOutline.importSpecs, GoOutline.importSpecs, hf.children hn, List.flatMap_map,
    List.map_flatMap]
  refine List.flatMap_congr fun c _ => ?_
  rw [hf.kind]
  split
  · rfl
  · split
    · next h =>
      have hc := hf.not_hidden_of_kind (beq_iff_eq.1 h) (by decide)
      rw [hf.children hc, hf.filter_kind]
    · rfl

/-- Imports stay. -/
theorem importOf (hn : ¬ hidden n) : importOf (f n) = importOf n := by
  have hpath := congrArg (Option.map withoutQuotes) (hf.text_child? hn (r := .path) (by decide))
  rw [Option.map_map, Option.map_map] at hpath
  rw [GoOutline.importOf, GoOutline.importOf, hf.text_child? hn (by decide)]
  exact congrArg (Import.mk _ <| Option.getD · "") hpath

/-- The imports of a declaration are kept. -/
theorem importsOf (hn : ¬ hidden n) : importsOf (f n) = importsOf n := by
  rw [GoOutline.importsOf, GoOutline.importsOf, hf.importSpecs hn, List.map_map]
  refine List.map_congr_left fun c hc => ?_
  exact hf.importOf (hf.not_hidden_of_kind (kind_of_mem_importSpecs hc) (by decide))

/-! ## Visits -/

/-- What is visited below is changed one by one. -/
theorem visits (hn : ¬ hidden n) : Visit.children (f n) = (Visit.children n).map (Visit.map f) := by
  rw [Visit.children, hf.children hn]
  exact Visit.ofSiblings_map f [] n.children

/-- So are the fields. -/
theorem fieldVisits (hn : ¬ hidden n) :
    fieldVisits (f n) = (fieldVisits n).map (Visit.map f) := by
  unfold GoOutline.fieldVisits
  rw [hf.children hn, hf.find?_kind]
  cases hlist : n.children.find? (·.kind == .fieldDeclarationList) with
  | none => rfl
  | some list =>
    have hkind : list.kind = .fieldDeclarationList := by simpa using List.find?_some hlist
    have hl := hf.not_hidden_of_kind hkind (by decide)
    simp only [Option.map_some, hf.visits hl, List.filter_map]
    simp only [Function.comp_def, Visit.map, hf.kind]

/-- So are the methods of interfaces. -/
theorem requiredMethodVisits (hn : ¬ hidden n) :
    requiredMethodVisits (f n) = (requiredMethodVisits n).map (Visit.map f) := by
  rw [GoOutline.requiredMethodVisits, GoOutline.requiredMethodVisits, hf.visits hn,
    List.filter_map]
  congr 1
  refine List.filter_congr fun v _ => ?_
  by_cases hv : v.node.kind = .methodElem
  · have hnode := hf.not_hidden_of_kind hv (by decide)
    simp [Visit.map, hf.kind, hf.child? hnode]
  · simp [Visit.map, hf.kind, beq_eq_false_iff_ne.2 hv]

theorem not_hidden_of_mem_fieldVisits {v : Visit} (h : v ∈ GoOutline.fieldVisits n) :
    ¬ hidden v.node := by
  refine hf.not_hidden_of_kind rfl fun hkind => ?_
  unfold GoOutline.fieldVisits at h
  split at h
  · simp at h
  · simp [hkind] at h

theorem not_hidden_of_mem_requiredMethodVisits {v : Visit}
    (h : v ∈ GoOutline.requiredMethodVisits n) : ¬ hidden v.node := by
  refine hf.not_hidden_of_kind rfl fun hkind => ?_
  simp [GoOutline.requiredMethodVisits, hkind] at h

end

/-! ## Documentation and declarations -/

section

variable (hf : KeepsParts hidden f) (hspan : ∀ n, (f n).span = n.span)

include hf hspan

/-- Whether a comment trails code stays. -/
theorem trailsCode (c : Node) (before : List Node) :
    Doc.trailsCode (f c) (before.map f) = Doc.trailsCode c before := by
  cases before with
  | nil => rfl
  | cons b rest =>
    simp only [List.map_cons, Doc.trailsCode, Node.isComment, Node.endRow, Node.startRow, hf.kind,
      hspan]

/-- The texts of the comments above a row are kept. -/
theorem texts_leadingComments (row : Nat) (ns : List Node) :
    (Doc.leadingComments row (ns.map f)).map (·.text) =
      (Doc.leadingComments row ns).map (·.text) := by
  induction ns generalizing row with
  | nil => rfl
  | cons c before ih =>
    have hcomment : (f c).isComment = c.isComment := by rw [Node.isComment, hf.kind]; rfl
    have hend : (f c).endRow = c.endRow := by rw [Node.endRow, hspan]; rfl
    have hstart : (f c).startRow = c.startRow := by rw [Node.startRow, hspan]; rfl
    rw [List.map_cons, Doc.leadingComments, Doc.leadingComments, hcomment, hend, hstart,
      hf.trailsCode hspan]
    split
    · next h =>
      have hkind : c.kind = .comment := by
        simp only [Node.isComment, Bool.and_eq_true, beq_iff_eq] at h
        exact h.1.1
      have htext := hf.text (hf.not_hidden_of_kind hkind (by decide))
      rw [List.map_cons, List.map_cons, htext, ih]
    · rfl

/-- The documentation above a visited node is kept. -/
theorem doc (v : Visit) : (v.map f).doc = v.doc := by
  have hsignificant : Node.significant (v.before.map f) = (Node.significant v.before).map f := by
    rw [Node.significant, Node.significant, List.filter_map]
    simp only [Function.comp_def, hf.kind]
  have hrow : (f v.node).startRow = v.node.startRow := by rw [Node.startRow, hspan]; rfl
  have htexts := hf.texts_leadingComments hspan v.node.startRow (Node.significant v.before)
  rw [Visit.doc, Visit.doc, Visit.map, Doc.leadingDoc, Doc.leadingDoc, hsignificant, hrow]
  apply Doc.docText_congr
  rw [List.map_reverse, List.map_reverse, htexts]

/-- Properties stay. -/
theorem propertiesOf {v : Visit} (hv : ¬ hidden v.node) :
    propertiesOf (v.map f) = propertiesOf v := by
  have hstar : hasStar (f v.node) = hasStar v.node := by
    rw [hasStar, hasStar, hf.children hv, List.any_map]
    simp only [Function.comp_def, hf.kind]
  have hlocation : locationOf (f v.node) = locationOf v.node := by
    rw [locationOf, locationOf, hspan]
  unfold GoOutline.propertiesOf
  rw [hf.doc hspan]
  simp only [Visit.map, hf.texts_childrenWith hv (r := .name) (by decide), hf.child? hv, hstar,
    hlocation]
  cases v.node.child? .type with
  | none => rfl
  | some type => simp [hf.renderNode]

/-- The members of a struct are kept. -/
theorem structOf (doc : Option String) {spec body : Node} (hspec : ¬ hidden spec)
    (hbody : ¬ hidden body) : structOf doc (f spec) (f body) = structOf doc spec body := by
  have hproperties : (GoOutline.fieldVisits (f body)).flatMap GoOutline.propertiesOf =
      (GoOutline.fieldVisits body).flatMap GoOutline.propertiesOf := by
    rw [hf.fieldVisits hbody, List.flatMap_map]
    refine List.flatMap_congr fun v hv => ?_
    exact hf.propertiesOf hspan (hf.not_hidden_of_mem_fieldVisits hv)
  rw [GoOutline.structOf, GoOutline.structOf, hf.nameOf hspec, locationOf, hspan, hproperties]
  rfl

theorem requiredMethodOf {v : Visit} (hv : ¬ hidden v.node) :
    requiredMethodOf (v.map f) = requiredMethodOf v := by
  obtain ⟨hparameters, hresult⟩ := hf.signature hv
  rw [GoOutline.requiredMethodOf, GoOutline.requiredMethodOf, hf.doc hspan]
  simp only [Visit.map, hf.nameOf hv, locationOf, hspan, hparameters, hresult]

theorem interfaceOf (doc : Option String) {spec body : Node} (hspec : ¬ hidden spec)
    (hbody : ¬ hidden body) : interfaceOf doc (f spec) (f body) = interfaceOf doc spec body := by
  have hmethods : (GoOutline.requiredMethodVisits (f body)).map GoOutline.requiredMethodOf =
      (GoOutline.requiredMethodVisits body).map GoOutline.requiredMethodOf := by
    rw [hf.requiredMethodVisits hbody, List.map_map]
    refine List.map_congr_left fun v hv => ?_
    exact hf.requiredMethodOf hspan (hf.not_hidden_of_mem_requiredMethodVisits hv)
  rw [GoOutline.interfaceOf, GoOutline.interfaceOf, hf.nameOf hspec, locationOf, hspan, hmethods]
  rfl

/-- Functions stay, since their bodies are not looked at. -/
theorem functionOf {v : Visit} (hv : ¬ hidden v.node) : functionOf (v.map f) = functionOf v := by
  obtain ⟨hparameters, hresult⟩ := hf.signature hv
  rw [GoOutline.functionOf, GoOutline.functionOf, hf.doc hspan]
  simp only [Visit.map, hf.nameOf hv, locationOf, hspan, hparameters, hresult]

/-- Methods stay in the same way. -/
theorem methodOf? {v : Visit} (hv : ¬ hidden v.node) : methodOf? (v.map f) = methodOf? v := by
  obtain ⟨hparameters, hresult⟩ := hf.signature hv
  rw [GoOutline.methodOf?, GoOutline.methodOf?, hf.doc hspan]
  simp only [Visit.map, hf.receiverType? hv, Option.map_map, Function.comp_def, hf.ownerOf,
    hf.nameOf hv, locationOf, hspan, hparameters, hresult]

/-- What a specification of a type declaration enters is kept. -/
theorem entryOfSpec? (doc : Option String) {spec : Node} (hspec : ¬ hidden spec) :
    entryOfSpec? doc (f spec) = entryOfSpec? doc spec := by
  unfold GoOutline.entryOfSpec? structOfSpec? interfaceOfSpec?
  rw [hf.child? hspec]
  cases hbody : spec.child? .type with
  | none => rfl
  | some body =>
    have hb := hf.not_hidden_of_child? hbody (by decide)
    simp only [Option.map_some, Option.bind_some, hf.kind, hf.structOf hspan doc hspec hb,
      hf.interfaceOf hspan doc hspec hb]

/-- The structs and interfaces of a declaration stay. -/
theorem entries_typeSpecs (doc : Option String) {n : Node} (hn : ¬ hidden n) :
    (typeSpecs (f n)).filterMap (GoOutline.entryOfSpec? doc) =
      (typeSpecs n).filterMap (GoOutline.entryOfSpec? doc) := by
  have hspecs : typeSpecs (f n) = (typeSpecs n).map f := by
    rw [typeSpecs, typeSpecs, hf.children hn, List.filter_map]
    simp only [Function.comp_def, hf.kind]
  rw [hspecs, List.filterMap_map]
  refine List.filterMap_congr fun spec hspec => ?_
  refine hf.entryOfSpec? hspan doc (hf.not_hidden_of_kind rfl fun hkind => ?_)
  simp [typeSpecs, hkind] at hspec

/-- **What a visit enters** is kept. -/
theorem entries (v : Visit) : (v.map f).entries = v.entries := by
  have hkind : (v.map f).node.kind = v.node.kind := hf.kind v.node
  by_cases hv : v.node.kind = .block
  · rw [entries_eq_nil, entries_eq_nil] <;> simp [hkind, hv]
  have hn := hf.not_hidden_of_kind rfl hv
  unfold Visit.entries
  rw [hkind, hf.doc hspan, hf.functionOf hspan hn, hf.methodOf? hspan hn]
  split
  · exact hf.entries_typeSpecs hspan v.doc hn
  · exact congrArg (List.map OutlineEntry.imported) (hf.importsOf hn)
  · rfl
  · rfl
  · rfl

/-! ## The walk -/

omit hf hspan in
/-- What a walk over siblings enters is kept when this is so below each of them. -/
theorem entries_underAll {ns : List Node}
    (h : ∀ n ∈ ns, ∀ before, (Visit.under (before.map f) (f n)).flatMap Visit.entries =
      (Visit.under before n).flatMap Visit.entries) (before : List Node) :
    (Visit.underAll (before.map f) (ns.map f)).flatMap Visit.entries =
      (Visit.underAll before ns).flatMap Visit.entries := by
  induction ns generalizing before with
  | nil => simp
  | cons n rest ih =>
    obtain ⟨hn, hrest⟩ := List.forall_mem_cons.1 h
    rw [List.map_cons, Visit.underAll_cons, Visit.underAll_cons, List.flatMap_append,
      List.flatMap_append, hn before, ← ih hrest (n :: before)]
    rfl

variable (hinert : ∀ n, hidden n → n.IsInert ∧ (f n).IsInert)

include hinert

/-- **What the walk enters** is kept when nothing is declared in the hidden bodies, neither before
nor after the map. -/
theorem entries_under (n : Node) (before : List Node) :
    (Visit.under (before.map f) (f n)).flatMap Visit.entries =
      (Visit.under before n).flatMap Visit.entries := by
  induction n using Node.childInduction generalizing before with
  | mk head children ih =>
    by_cases hn : hidden (.mk head children)
    · -- the walk goes into the body, but it enters nothing there, whatever the map has left
      obtain ⟨hbefore, hafter⟩ := hinert _ hn
      rw [hbefore.entries_under, hafter.entries_under]
    · have hdescends : Visit.descends (f (.mk head children)) =
          Visit.descends (.mk head children) := by
        rw [Visit.descends, Visit.descends, hf.kind]
      have hvisit := hf.entries hspan ⟨before, .mk head children⟩
      rw [Visit.under_eq, Visit.under_eq, hdescends, hf.children hn, List.flatMap_cons,
        List.flatMap_cons]
      refine congr_arg₂ _ hvisit ?_
      -- the siblings before a child are mapped with it, so the hypothesis is for all of them
      split
      · exact entries_underAll ih []
      · rfl

/-- **The outline is kept** by a map that changes at most bodies in which nothing is declared. -/
theorem ofTree (path : String) (root : Node) :
    Outline.ofTree path (f root) = Outline.ofTree path root := by
  have hentries : entriesOf (f root) = entriesOf root :=
    hf.entries_under hspan hinert root []
  have hcollected : collectedOf (f root) = collectedOf root := by
    rw [collectedOf_eq, collectedOf_eq, hentries]
  exact congrArg (Collected.finish · path) hcollected

end

end KeepsParts

end GoOutline
