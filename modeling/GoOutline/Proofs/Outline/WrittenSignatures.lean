import GoOutline.Proofs.Outline.Declarations
import GoOutline.Proofs.Syntax.Reading.Functions
import Mathlib.Data.List.Forall2

/-!
# Signatures that are written and read

The parameters and the results of a function are written into a source and read from it again. What
the outline reports are the groups that the two lists are read as. These are the groups that were
written, except that a name alone in front of a channel or a map may be taken for a name that shares
a type with the word `chan` or `map`.

## Main definitions

* `functionSource`: a source with one function
* `ParameterGroup.parameters`, `ParameterGroup.resultText`: what the groups of a list say

## Main results

* `Syntax.Node.Lists.parametersOf_eq`, `Syntax.Node.Lists.returnTypeOf_eq`: what a parameter list
  says
* `functions_of_isFunction`: the functions of a file around one function
* `exists_analyze_functionSource`: the signature in the outline of the source
-/

namespace GoOutline

open GoOutline.Syntax GoOutline.Text

namespace ParameterGroup

/-- The parameters of a group: one for each name, or a single one that is not named. -/
def parameters (group : ParameterGroup) : List Parameter :=
  match group.names with
  | [] => [{ name := "_", type := some group.type.render }]
  | names => names.map fun name => { name := name, type := some group.type.render }

/-- The text of results: none for no groups, a type for a group without names, and types in
parentheses otherwise. -/
def resultText : List ParameterGroup → Option String
  | [] => none
  | [⟨[], type⟩] => some type.render
  | groups => some ("(" ++ String.intercalate ", " (groups.map (·.type.render)) ++ ")")

end ParameterGroup

/-! ## What lists say -/

namespace Syntax

section

variable {names : List String} {t : Node} {e : TypeExpr}

theorem groupNameTexts_groupTree (names : List String) (t : Node) :
    groupNameTexts (groupTree names t) = names := by
  have hnames : ((nameTrees names).filter (·.role == some .name)).map (·.text) = names := by
    induction names with
    | nil => rfl
    | cons name names ih =>
      by_cases hnil : names = []
      · subst hnil
        rfl
      · rw [nameTrees_cons hnil]
        exact congrArg (name :: ·) ih
  have htype : [t.withRole .type].filter (·.role == some .name) = [] := by
    rw [List.filter_singleton, TypeExpr.role_withRole]
    rfl
  change ((nameTrees names ++ [t.withRole .type]).filter (·.role == some .name)).map (·.text) = _
  rw [List.filter_append, htype, List.append_nil, hnames]

theorem groupType_groupTree (h : t.StandsFor e) :
    groupType (groupTree names t) = some e.render := by
  have hnames : (nameTrees names).find? (·.role == some .type) = none := by
    refine List.find?_eq_none.2 fun n hn => ?_
    rcases mem_nameTrees hn with rfl | ⟨name, -, rfl⟩
    · exact Bool.false_ne_true
    · exact Bool.false_ne_true
  have htype : [t.withRole .type].find? (·.role == some .type) = some (t.withRole .type) := by
    rw [List.find?_cons_of_pos]
    rw [TypeExpr.role_withRole]
    rfl
  change ((nameTrees names ++ [t.withRole .type]).find? (·.role == some .type)).map
    TypeExpr.renderNode = _
  rw [List.find?_append, hnames, htype, Option.none_or, Option.map_some, TypeExpr.renderNode,
    TypeExpr.ofNode_withRole, h.ofNode_eq]

theorem isNone_child?_name (n : Node) : (n.child? .name).isNone = (groupNameTexts n).isEmpty := by
  rw [groupNameTexts, Node.child?, Node.childrenWith, ← List.head?_filter]
  cases n.children.filter (·.role == some .name) <;> rfl

theorem groupParameters_groupTree {group : ParameterGroup} (h : t.StandsFor group.type) :
    groupParameters (groupTree group.names t) = group.parameters := by
  rw [groupParameters, groupNameTexts_groupTree, groupType_groupTree h]
  rfl

end

section

variable {ns : List Node} {groups : List ParameterGroup}

/-- The groups among nodes that declare some. -/
theorem Declares.forall₂ (h : Declares ns groups) :
    List.Forall₂ (fun n group => ∃ t : Node, t.StandsFor group.type ∧ n = groupTree group.names t)
      (ns.filter isParameterGroup) groups := by
  induction h with
  | nil => exact .nil
  | comma _ ih => exact ih
  | group _ ht _ ih => exact .cons ⟨_, ht, rfl⟩ ih

end

namespace Node.Lists

variable {n : Node} {groups : List ParameterGroup}

theorem forall₂ (h : n.Lists groups) :
    List.Forall₂ (fun n group => ∃ t : Node, t.StandsFor group.type ∧ n = groupTree group.names t)
      (parameterGroups n) groups := by
  obtain ⟨ns, rfl, hns⟩ := h
  have hgroups : parameterGroups (around .parameterList (mark "(" :: (ns ++ [mark ")"]))) =
      ns.filter isParameterGroup := by
    change (mark "(" :: (ns ++ [mark ")"])).filter isParameterGroup = _
    rw [List.filter_cons, List.filter_append]
    exact List.append_nil _
  rw [hgroups]
  exact hns.forall₂

theorem withRole (h : n.Lists groups) (r : Role) :
    (n.withRole r).kind = .parameterList ∧ parameterGroups (n.withRole r) = parameterGroups n := by
  obtain ⟨ns, rfl, -⟩ := h
  exact ⟨rfl, rfl⟩

/-- **The parameters of a list** are those of its groups. -/
theorem parametersOf_eq (h : n.Lists groups) (r : Role) :
    parametersOf (some (n.withRole r)) = groups.flatMap ParameterGroup.parameters := by
  rw [parametersOf, (h.withRole r).2]
  have hgroups := h.forall₂
  generalize parameterGroups n = trees at hgroups ⊢
  clear h
  induction hgroups with
  | nil => rfl
  | cons hgroup _ ih =>
    obtain ⟨t, ht, rfl⟩ := hgroup
    rw [List.flatMap_cons, List.flatMap_cons, groupParameters_groupTree ht, ih]

theorem filterMap_groupType {trees : List Node}
    (h : List.Forall₂ (fun n group => ∃ t : Node, t.StandsFor group.type ∧
      n = groupTree group.names t) trees groups) :
    trees.filterMap groupType = groups.map (·.type.render) := by
  induction h with
  | nil => rfl
  | cons hgroup _ ih =>
    obtain ⟨t, ht, rfl⟩ := hgroup
    rw [List.filterMap_cons_some (groupType_groupTree ht), ih, List.map_cons]

/-- **The text of a result list** is that of its groups. -/
theorem returnTypeOf_eq (h : n.Lists groups) (r : Role) :
    returnTypeOf (some (n.withRole r)) = ParameterGroup.resultText groups := by
  rw [returnTypeOf, (h.withRole r).1, beq_self_eq_true, if_pos rfl, (h.withRole r).2]
  have hgroups := h.forall₂
  have htypes := filterMap_groupType hgroups
  generalize parameterGroups n = trees at hgroups htypes ⊢
  cases hgroups with
  | nil => rfl
  | @cons _ group _ _ hgroup hrest =>
    cases hrest with
    | nil =>
      obtain ⟨t, ht, rfl⟩ := hgroup
      simp only [isNone_child?_name, groupNameTexts_groupTree, groupType_groupTree ht]
      obtain ⟨names, type⟩ := group
      cases names with
      | nil => rfl
      | cons name names => rfl
    | cons =>
      simp only [htypes]
      obtain ⟨names, type⟩ := group
      cases names with
      | nil => rfl
      | cons name names => rfl

end Node.Lists

/-! ## Places -/

section

/-- The parameters of a list do not depend on places. -/
theorem parametersOf_unplaced (list : Option Node) :
    parametersOf (list.map Node.unplaced) = parametersOf list :=
  keepsParts_unplaced.parametersOf fun _ _ => not_false

/-- The text of a result does not depend on places. -/
theorem returnTypeOf_unplaced (result : Option Node) :
    returnTypeOf (result.map Node.unplaced) = returnTypeOf result :=
  keepsParts_unplaced.returnTypeOf fun _ _ => not_false

theorem quiet_of_unplaced {n : Node} (h : n.unplaced.Quiet) : n.Quiet := by
  generalize hm : n.unplaced = m at h
  induction h generalizing n with
  | @mk head children hhead _ ih =>
    obtain ⟨head', children'⟩ := n
    rw [Node.unplaced, Node.mk.injEq] at hm
    obtain ⟨rfl, rfl⟩ := hm
    refine .mk ⟨hhead.ne_error, hhead.not_missing, hhead.ne_function⟩ fun c hc => ?_
    refine ih c.unplaced ?_ rfl
    rw [Node.unplacedAll_eq_map]
    exact List.mem_map_of_mem hc

end

end Syntax

/-! ## The functions of a file -/

theorem filter_underAll {q : Visit → Bool} {ns : List Node}
    (h : ∀ n ∈ ns, ∀ before, (Visit.under before n).filter q = []) (before : List Node) :
    (Visit.underAll before ns).filter q = [] := by
  induction ns generalizing before with
  | nil => rw [Visit.underAll_nil, List.filter_nil]
  | cons n rest ih =>
    obtain ⟨hn, hrest⟩ := List.forall_mem_cons.1 h
    rw [Visit.underAll_cons, List.filter_append, hn, ih hrest, List.append_nil]

/-- No functions are visited in a tree that has none. -/
theorem filter_under_of_quiet {n : Node} (h : n.Quiet) (before : List Node) :
    (Visit.under before n).filter (·.node.kind = .functionDeclaration) = [] := by
  induction h generalizing before with
  | @mk head children hhead _ ih =>
    have hkind : (decide ((Node.mk head children).kind = .functionDeclaration)) = false :=
      decide_eq_false hhead.ne_function
    rw [Visit.under_eq, List.filter_cons, hkind, if_neg Bool.false_ne_true]
    split
    · exact filter_underAll ih []
    · exact List.filter_nil

/-- A function without functions in it is visited once. -/
theorem filter_under_function {n : Node} (hkind : n.kind = .functionDeclaration)
    (h : ∀ c ∈ n.children, c.Quiet) (before : List Node) :
    (Visit.under before n).filter (·.node.kind = .functionDeclaration) = [⟨before, n⟩] := by
  have hinside := filter_underAll (fun c hc => filter_under_of_quiet (h c hc)) []
  rw [Visit.under_eq, List.filter_cons, if_pos (decide_eq_true hkind)]
  split
  · rw [hinside]
  · rw [List.filter_nil]

/-- A file of four parts, of which the third is a function and the others hold none. -/
theorem filter_preorder_function {root clause newline function newline' : Node}
    (hkind : root.kind = .sourceFile)
    (hchildren : root.children = [clause, newline, function, newline']) (hclause : clause.Quiet)
    (hnewline : newline.Quiet) (hfunction : function.kind = .functionDeclaration)
    (hinside : ∀ c ∈ function.children, c.Quiet) (hnewline' : newline'.Quiet) :
    (Visit.preorder root).filter (·.node.kind = .functionDeclaration) =
      [⟨[newline, clause], function⟩] := by
  have hother : (decide (root.kind = .functionDeclaration)) = false := by
    rw [hkind]
    rfl
  have hdescends : Visit.descends root := by
    rw [Visit.descends, hkind]
    rfl
  rw [Visit.preorder, Visit.under_eq, List.filter_cons, hother, if_neg Bool.false_ne_true,
    if_pos hdescends, hchildren]
  simp only [Visit.underAll_cons, Visit.underAll_nil, List.filter_append,
    filter_under_of_quiet hclause, filter_under_of_quiet hnewline,
    filter_under_of_quiet hnewline', filter_under_function hfunction hinside,
    List.nil_append, List.append_nil]

/-- The record of a function with two lists. -/
theorem functionOf_isFunction {v : Visit} {name : String} {parameters results : List ParameterGroup}
    (h : v.node.unplaced.IsFunction name parameters results) :
    (functionOf v).name = name ∧
      (functionOf v).parameters = parameters.flatMap ParameterGroup.parameters ∧
      (functionOf v).returnType = ParameterGroup.resultText results := by
  obtain ⟨list, list', htree, hlist, hlist'⟩ := h
  have hchild := Node.child?_unplaced v.node
  rw [htree] at hchild
  have hname : (functionTree name list list').child? .name = some (nameTree name) := rfl
  have hparameters : (functionTree name list list').child? .parameters =
      some (list.withRole .parameters) := by
    obtain ⟨ns, rfl, -⟩ := hlist
    rfl
  have hresult : (functionTree name list list').child? .result = some (list'.withRole .result) := by
    obtain ⟨ns, rfl, -⟩ := hlist
    obtain ⟨ms, rfl, -⟩ := hlist'
    rfl
  refine ⟨?_, ?_, ?_⟩
  · obtain ⟨c, hc, htext⟩ := Option.map_eq_some_iff.1 ((hchild .name).symm.trans hname)
    rw [functionOf, nameOf, hc, Option.map_some, Option.getD_some, ← Node.text_unplaced, htext]
    rfl
  · rw [functionOf, ← parametersOf_unplaced, ← hchild, hparameters, hlist.parametersOf_eq]
  · rw [functionOf, ← returnTypeOf_unplaced, ← hchild, hresult, hlist'.returnTypeOf_eq]

/-- The function of a file around one function, and nothing else, is in the outline. -/
theorem functions_of_isFunction {root : Node} {name : String} {n : Node}
    {parameters results : List ParameterGroup} (h : n.IsFunction name parameters results)
    (hroot : root.unplaced =
      .around .sourceFile [packageTree, .mark "\n", n, .mark "\n"]) (path : String) :
    ∃ f, (Outline.ofTree path root).functions = [f] ∧ f.name = name ∧
      f.parameters = parameters.flatMap ParameterGroup.parameters ∧
      f.returnType = ParameterGroup.resultText results := by
  have hkind : root.kind = .sourceFile := by
    rw [← Node.kind_unplaced, hroot]
    rfl
  have hchildren := congrArg Node.children hroot
  rw [Node.children_unplaced, Node.unplacedAll_eq_map] at hchildren
  -- the file has four parts, of which the third is the function
  obtain ⟨clause, rest, hrest, hclause, hmap⟩ := List.map_eq_cons_iff.1 hchildren
  obtain ⟨newline, rest, rfl, hnewline, hmap⟩ := List.map_eq_cons_iff.1 hmap
  obtain ⟨function, rest, rfl, hfunction, hmap⟩ := List.map_eq_cons_iff.1 hmap
  obtain ⟨newline', rest, rfl, hnewline', hmap⟩ := List.map_eq_cons_iff.1 hmap
  obtain rfl := List.map_eq_nil_iff.1 hmap
  have hquiet : clause.Quiet ∧ newline.Quiet ∧ newline'.Quiet := by
    refine ⟨quiet_of_unplaced ?_, quiet_of_unplaced ?_, quiet_of_unplaced ?_⟩
    · rw [hclause]
      exact quiet_packageTree
    · rw [hnewline]
      exact Node.quiet_mark "\n"
    · rw [hnewline']
      exact Node.quiet_mark "\n"
  obtain ⟨hclause, hnewline, hnewline'⟩ := hquiet
  have hfunctionKind : function.kind = .functionDeclaration := by
    rw [← Node.kind_unplaced, hfunction, h.kind_eq]
  have hinside : ∀ c ∈ function.children, c.Quiet := by
    intro c hc
    refine quiet_of_unplaced (h.quiet_children c.unplaced ?_)
    rw [← hfunction, Node.children_unplaced, Node.unplacedAll_eq_map]
    exact List.mem_map_of_mem hc
  refine ⟨functionOf ⟨[newline, clause], function⟩, ?_, functionOf_isFunction (hfunction ▸ h)⟩
  rw [functions_eq_map,
    filter_preorder_function hkind hrest hclause hnewline hfunctionKind hinside hnewline']
  rfl

/-! ## Sources -/

/-- The source of a file with one function, which has the groups as parameters and results. -/
def functionSource (parameters results : List ParameterGroup) : String :=
  "package p\n\nfunc f(" ++ ParameterGroup.listText parameters ++ ") (" ++
    ParameterGroup.listText results ++ ") \x7b\x7d\n"

section

variable (parameters results : List ParameterGroup) (rest : List Char)

theorem itemsText_append (ss : List String) (rest more : List Char) :
    itemsText ss rest ++ more = itemsText ss (rest ++ more) := by
  have hafter : ∀ ss : List String, afterItems ss rest ++ more = afterItems ss (rest ++ more) := by
    intro ss
    induction ss with
    | nil => rfl
    | cons s ss ih => simp [afterItems, ih]
  cases ss with
  | nil => rfl
  | cons s ss => rw [itemsText, itemsText, List.append_assoc, hafter]

theorem functionText_append (name : String) (more : List Char) :
    functionText name parameters results rest ++ more =
      functionText name parameters results (rest ++ more) := by
  simp [functionText, signatureText, itemsText_append]

theorem toList_functionSource : (functionSource parameters results).toList =
    fileAround (functionText "f" parameters results []) := by
  have happend : ∀ a b c d e : String, (a ++ b ++ c ++ d ++ e).toList =
      a.toList ++ (b.toList ++ (c.toList ++ (d.toList ++ e.toList))) := by
    simp
  have hassoc : ∀ a b c d t : List Char,
      a ++ (' ' :: (b ++ ('\n' :: '\n' :: (c ++ (' ' :: (d ++ ['(']))))))  ++ t =
        a ++ (' ' :: (b ++ ('\n' :: '\n' :: (c ++ (' ' :: (d ++ ('(' :: t))))))) := by
    simp
  have hstart : "package p\n\nfunc f(".toList = "package".toList ++ (' ' :: ("p".toList ++
      ('\n' :: '\n' :: ("func".toList ++ (' ' :: ("f".toList ++ ['('])))))) := rfl
  have hmiddle : ∀ t : List Char, ") (".toList ++ t = ')' :: ' ' :: '(' :: t := fun _ => rfl
  have hend : ") \x7b\x7d\n".toList =
      ')' :: ' ' :: ("\x7b".toList ++ ("\x7d".toList ++ ['\n'])) := rfl
  have hresults : ") (".toList ++ ((ParameterGroup.listText results).toList ++
      ") \x7b\x7d\n".toList) = ')' :: ' ' :: '(' :: itemsText (results.map ParameterGroup.text)
        (')' :: ' ' :: ("\x7b".toList ++ ("\x7d".toList ++ ['\n']))) :=
    (hmiddle _).trans (congrArg (')' :: ' ' :: '(' :: ·)
      ((congrArg (_ ++ ·) hend).trans (ParameterGroup.toList_listText results)))
  calc (functionSource parameters results).toList
      = "package p\n\nfunc f(".toList ++ ((ParameterGroup.listText parameters).toList ++ _) :=
        happend _ _ _ _ _
    _ = _ ++ itemsText (parameters.map ParameterGroup.text) _ :=
        congrArg ("package p\n\nfunc f(".toList ++ ·)
          ((congrArg (_ ++ ·) hresults).trans (ParameterGroup.toList_listText parameters))
    _ = _ := congrArg (· ++ _) hstart
    _ = _ := hassoc _ _ _ _ _
    _ = fileAround (functionText "f" parameters results []) :=
        congrArg (fun item => "package".toList ++ (' ' :: ("p".toList ++ ('\n' :: '\n' :: item))))
          (functionText_append parameters results [] "f" ['\n']).symm

end

/-! ### Lengths -/

section

variable {parameters results : List ParameterGroup} {group : ParameterGroup}

theorem length_rest_itemsText (ss : List String) (rest : List Char) :
    rest.length ≤ (itemsText ss rest).length := by
  cases ss with
  | nil => exact le_refl _
  | cons s ss =>
    have hafter := length_afterItems ss rest
    rw [itemsText, List.length_append]
    omega

theorem length_mem_itemsText {ss : List String} {s : String} (h : s ∈ ss) (rest : List Char) :
    s.toList.length ≤ (itemsText ss rest).length := by
  induction ss with
  | nil => cases h
  | cons t ss ih =>
    rcases List.mem_cons.1 h with rfl | hmem
    · rw [itemsText, List.length_append]
      exact Nat.le_add_right _ _
    · have hrest := ih hmem
      rw [itemsText_cons (List.ne_nil_of_mem hmem), List.length_append, List.length_cons,
        List.length_cons]
      omega

theorem ParameterGroup.length_type_le (group : ParameterGroup) :
    group.type.render.toList.length ≤ group.text.toList.length := by
  unfold ParameterGroup.text
  split
  · exact le_refl _
  · rw [String.toList_append, List.length_append]
    exact Nat.le_add_left _ _

theorem length_functionText_pos (name : String) (parameters results : List ParameterGroup)
    (rest : List Char) :
    0 < (functionText name parameters results rest).length := by
  rw [functionText, List.length_append, List.length_cons]
  omega

/-- The types in a function are nested no deeper than its text is long. -/
theorem height_lt_length_functionText (name : String) (rest : List Char)
    (h : group ∈ parameters ++ results) (hwritable : group.Writable) :
    group.type.height < (functionText name parameters results rest).length := by
  have hheight := hwritable.type.height_le.trans group.length_type_le
  have hlists : group.text.toList.length < (signatureText parameters results rest).length := by
    rw [signatureText, List.length_cons]
    rcases List.mem_append.1 h with hmem | hmem
    · exact Nat.lt_succ_of_le (length_mem_itemsText (List.mem_map_of_mem hmem) _)
    · have htext := length_mem_itemsText (List.mem_map_of_mem (f := ParameterGroup.text) hmem)
        (')' :: ' ' :: ("\x7b".toList ++ ("\x7d".toList ++ rest)))
      refine Nat.lt_succ_of_le (le_trans ?_ (length_rest_itemsText _ _))
      rw [List.length_cons, List.length_cons, List.length_cons]
      omega
  rw [functionText, List.length_append, List.length_cons, List.length_append]
  omega

end

/-! ## The outline of the source -/

section

open ParameterGroup

variable {parameters results : List ParameterGroup}

/-- **The signature of a function** in the outline is that of the groups that its lists are read
as. -/
theorem exists_outline_functionSource (path : String) (hparameters : IsList parameters)
    (hresults : IsList results) :
    ∃ o f, analyze path (Utf8.encode (functionSource parameters results).toList) = .ok o ∧
      o.functions = [f] ∧ f.name = "f" ∧
      f.parameters = (asRead parameters).flatMap ParameterGroup.parameters ∧
      f.returnType = resultText (asRead results) := by
  have hname : IsIdentifier "f" := ⟨⟨by decide, by decide⟩, by decide, by decide⟩
  have hwritable : ∀ group ∈ parameters ++ results, group.Writable :=
    List.forall_mem_append.2 ⟨hparameters.writable, hresults.writable⟩
  have hlead : Leads false (functionText "f" parameters results [] ++ ['\n'])
      (functionText "f" parameters results [] ++ ['\n']) := by
    rw [functionText_append]
    exact isWord_func.leads
  have hitem : ∀ depth, (functionText "f" parameters results []).length ≤ depth →
      (topLevel (grammar depth)).ReadsOne
        ('\n' :: (functionText "f" parameters results [] ++ ['\n'])) ['\n']
        (·.IsFunction "f" (asRead parameters) (asRead results)) := by
    intro depth hdepth
    have hpos := length_functionText_pos "f" parameters results []
    obtain ⟨d, rfl⟩ := Nat.exists_eq_add_one_of_ne_zero (hpos.trans_le hdepth).ne'
    rw [functionText_append] at hlead ⊢
    refine reads_function hname hparameters hresults ?_ hlead.newline
    intro group hgroup
    have hheight := height_lt_length_functionText "f" [] hgroup (hwritable group hgroup)
    omega
  obtain ⟨n, hn, htree⟩ := exists_unplaced_ofSource hlead hitem
  obtain ⟨p, hp, hroot⟩ := exists_parse_fileAround path htree hn.sound
  obtain ⟨f, hf⟩ := functions_of_isFunction hn hroot p.path
  refine ⟨p.outline, f, ?_, hf⟩
  rw [toList_functionSource]
  exact analyze_eq_ok_iff.2 ⟨p, hp, rfl⟩

/-- **Signatures are read as they are written**, but for names alone that clash with what follows
them. A source with a function is accepted, and its outline has that function only. The parameters
and the result are those of the groups that the two lists are read as, and so those that were
written where no two groups clash. -/
theorem exists_analyze_functionSource (path : String) (hparameters : IsList parameters)
    (hresults : IsList results) :
    ∃ o f, analyze path (Utf8.encode (functionSource parameters results).toList) = .ok o ∧
      o.functions = [f] ∧
      f.parameters = (asRead parameters).flatMap ParameterGroup.parameters ∧
      f.returnType = resultText (asRead results) ∧
      (IsUnambiguous parameters → f.parameters = parameters.flatMap ParameterGroup.parameters) ∧
      (IsUnambiguous results → f.returnType = resultText results) := by
  obtain ⟨o, f, ho, hf, -, hfparameters, hfresult⟩ :=
    exists_outline_functionSource path hparameters hresults
  refine ⟨o, f, ho, hf, hfparameters, hfresult, ?_, ?_⟩
  · intro hplain
    rw [hfparameters, asRead_eq_self_iff.2 hplain]
  · intro hplain
    rw [hfresult, asRead_eq_self_iff.2 hplain]

theorem exists_analyze_functionSource_namedAndUnnamed :
    ∃ o f, analyze "test.go" (Utf8.encode (functionSource
        [⟨["a", "b"], .map (.named "string") (.slice (.named "int"))⟩,
          ⟨["c"], .chan (.pointer (.qualified "io" "Reader"))⟩]
        [⟨[], .named "any"⟩, ⟨[], .map .interface (.named "int")⟩]).toList) = .ok o ∧
      o.functions = [f] ∧
      f.parameters = [⟨"a", some "map[string][]int", false, none⟩,
        ⟨"b", some "map[string][]int", false, none⟩, ⟨"c", some "chan *io.Reader", false, none⟩] ∧
      f.returnType = some "(any, map[interface\x7b\x7d]int)" := by
  have hparameters : IsList [⟨["a", "b"], .map (.named "string") (.slice (.named "int"))⟩,
      ⟨["c"], .chan (.pointer (.qualified "io" "Reader"))⟩] := by decide
  have hresults : IsList [⟨[], .named "any"⟩, ⟨[], .map .interface (.named "int")⟩] := by decide
  obtain ⟨o, f, ho, hf, -, -, hread, hresult⟩ :=
    exists_analyze_functionSource "test.go" hparameters hresults
  exact ⟨o, f, ho, hf, hread (by decide), hresult (by decide)⟩

/-- Not every signature is read as it is written: a name in front of a map whose key is a name is
read as a parameter of a type that was not written, and so is the word `map`. -/
theorem not_forall_signature_read : ¬ ∀ (path : String) (parameters results : List ParameterGroup),
    IsList parameters → IsList results →
    ∃ o f, analyze path (Utf8.encode (functionSource parameters results).toList) = .ok o ∧
      o.functions = [f] ∧ f.parameters = parameters.flatMap ParameterGroup.parameters ∧
      f.returnType = resultText results := by
  intro h
  have hparameters : IsList [⟨[], .named "any"⟩,
      ⟨[], .map (.qualified "p" "T") (.named "int")⟩] := by decide
  have hresults : IsList [] := by decide
  obtain ⟨o, f, ho, hf, hread, -⟩ := h "test.go" _ _ hparameters hresults
  obtain ⟨o', f', ho', hf', -, hread', -⟩ :=
    exists_outline_functionSource "test.go" hparameters hresults
  obtain rfl := Except.ok.inj (ho.symm.trans ho')
  obtain rfl := List.head_eq_of_cons_eq (hf.symm.trans hf')
  have hne : (asRead [⟨[], .named "any"⟩, ⟨[], .map (.qualified "p" "T") (.named "int")⟩]).flatMap
      ParameterGroup.parameters ≠ [⟨[], .named "any"⟩,
        ⟨[], .map (.qualified "p" "T") (.named "int")⟩].flatMap ParameterGroup.parameters := by
    decide
  exact hne (hread'.symm.trans hread)

end

end GoOutline
