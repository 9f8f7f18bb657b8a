import GoOutline.Proofs.Syntax.Reading.File

/-!
# Types that are written and read

A type is written into a source and read from it again.

## Main definitions

* `typeSource`: a source that defines one type
* `firstType?`: the type that the first definition of a file is given by

## Main results

* `exists_parse_typeSource`: the type that is read is the one that was written
-/

namespace GoOutline

open GoOutline.Syntax GoOutline.Text

/-- The source of a file that defines one type, which is given by a text. -/
def typeSource (type : String) : String := "package p\n\ntype X " ++ type ++ "\n"

/-- The type that the first definition of a file is given by: the type of the first definition in
the first type declaration. -/
def firstType? (root : Node) : Option Node := do
  let declaration ← root.children.find? (·.kind == .typeDeclaration)
  let spec ← declaration.children.find? (·.kind == .typeSpec)
  spec.child? .type

/-- The declaration in the source. -/
def typeItem (type : String) : List Char :=
  "type".toList ++ (' ' :: ("X".toList ++ (' ' :: type.toList)))

theorem toList_typeSource (type : String) :
    (typeSource type).toList = fileAround (typeItem type) := by
  have hassoc : ∀ a b c d t : List Char,
      a ++ (' ' :: (b ++ ('\n' :: '\n' :: (c ++ (' ' :: (d ++ [' '])))))) ++ t ++ ['\n'] =
        a ++ (' ' :: (b ++ ('\n' :: '\n' :: (c ++ (' ' :: (d ++ (' ' :: t))) ++ ['\n'])))) := by
    simp
  have hstart : "package p\n\ntype X ".toList = "package".toList ++ (' ' :: ("p".toList ++
      ('\n' :: '\n' :: ("type".toList ++ (' ' :: ("X".toList ++ [' '])))))) := rfl
  have happend : ∀ a b c : String, (a ++ b ++ c).toList = a.toList ++ b.toList ++ c.toList := by
    simp
  calc (typeSource type).toList
      = "package p\n\ntype X ".toList ++ type.toList ++ ['\n'] := happend _ _ _
    _ = _ := congrArg (· ++ type.toList ++ ['\n']) hstart
    _ = fileAround (typeItem type) :=
        hassoc "package".toList "p".toList "type".toList "X".toList type.toList

theorem typeItem_append (type : String) : typeItem type ++ ['\n'] =
    "type".toList ++ (' ' :: ("X".toList ++ (' ' :: (type.toList ++ ['\n'])))) := by
  have hassoc : ∀ a b t : List Char, a ++ (' ' :: (b ++ (' ' :: t))) ++ ['\n'] =
      a ++ (' ' :: (b ++ (' ' :: (t ++ ['\n'])))) := by simp
  exact hassoc _ _ _

theorem length_lt_typeItem (type : String) : type.toList.length < (typeItem type).length := by
  have hlength : ∀ a b t : List Char, t.length < (a ++ (' ' :: (b ++ (' ' :: t)))).length := by
    intro a b t
    simp only [List.length_append, List.length_cons]
    omega
  exact hlength _ _ _

theorem isWord_type : Lexeme.IsWord "type".toList := ⟨by decide, by decide⟩

/-- The declaration is read at the top level of a file. -/
theorem reads_typeItem {e : TypeExpr} (he : e.Writable) {depth : Nat}
    (hdepth : (typeItem e.render).length ≤ depth) :
    (topLevel (grammar depth)).ReadsAs ('\n' :: (typeItem e.render ++ ['\n'])) ['\n']
      [.around .typeDeclaration [.mark "type", typeSpecTree "X" e]] := by
  have hlength := length_lt_typeItem e.render
  obtain ⟨d, rfl⟩ : ∃ d, depth = d + 1 := Nat.exists_eq_add_one_of_ne_zero (by omega)
  have htype : (grammar d).ReadsType e := by
    refine readsType_grammar he ?_
    have hheight := he.height_le
    omega
  have hlead : Leads false ('\n' :: ("type".toList ++
      (' ' :: ("X".toList ++ (' ' :: (e.render.toList ++ ['\n']))))))
      ("type".toList ++ (' ' :: ("X".toList ++ (' ' :: (e.render.toList ++ ['\n']))))) :=
    isWord_type.leads.newline
  have hword : Lexeme.word ("type".toList ++
      (' ' :: ("X".toList ++ (' ' :: (e.render.toList ++ ['\n']))))) = "type".toList :=
    isWord_type.word_append (Lexeme.endsWord_cons (by decide))
  have hname : IsIdentifier "X" := ⟨⟨by decide, by decide⟩, by decide, by decide⟩
  rw [typeItem_append]
  refine (Rule.looks_nextWord false).bind hlead ?_
  simp only [hword, String.ofList_toList]
  refine (Rule.looks_nextWord false).bind hlead ?_
  simp only [hword, String.ofList_toList]
  exact reads_typeDeclaration hname he htype endsType_newline hlead

theorem find?_unplacedAll (kind : Kind) (ns : List Node) :
    (Node.unplacedAll ns).find? (·.kind == kind) =
      (ns.find? (·.kind == kind)).map Node.unplaced := by
  rw [Node.unplacedAll_eq_map]
  exact keepsParts_unplaced.find?_kind ns kind

theorem firstType?_unplaced (root : Node) :
    firstType? root.unplaced = (firstType? root).map Node.unplaced := by
  unfold firstType?
  rw [Node.children_unplaced, find?_unplacedAll]
  cases root.children.find? (·.kind == .typeDeclaration) with
  | none => rfl
  | some declaration =>
    simp only [Option.map_some, Option.bind_eq_bind, Option.bind_some]
    rw [Node.children_unplaced, find?_unplacedAll]
    cases declaration.children.find? (·.kind == .typeSpec) with
    | none => rfl
    | some spec =>
      simp only [Option.map_some, Option.bind_some]
      exact Node.child?_unplaced spec .type

theorem child?_typeSpecTree (name : String) (e : TypeExpr) :
    (typeSpecTree name e).child? .type = some (e.tree.withRole .type) := by
  change List.find? (fun n : Node => n.role == some .type) [e.tree.withRole .type] = _
  rw [List.find?_cons_of_pos]
  rw [TypeExpr.role_withRole]
  rfl

/-- **Types are read as they are written.** A source that defines a type by the text of a type is
accepted, and the type that is read from it is the one that was written. So is its text. -/
theorem exists_parse_typeSource (path : String) {e : TypeExpr} (he : e.Writable) :
    ∃ p, parse path (Utf8.encode (typeSource e.render).toList) = .ok p ∧
      ∃ type, firstType? p.tree = some type ∧ TypeExpr.ofNode type = e ∧
        TypeExpr.renderNode type = e.render := by
  have hlead : Leads false (typeItem e.render ++ ['\n']) (typeItem e.render ++ ['\n']) := by
    rw [typeItem_append]
    exact isWord_type.leads
  obtain ⟨_, rfl, htree⟩ := exists_unplaced_ofSource
    (q := (· = .around .typeDeclaration [.mark "type", typeSpecTree "X" e])) hlead
    fun depth hdepth => (reads_typeItem he hdepth).readsOne rfl
  have hspec : (typeSpecTree "X" e).Quiet := by
    refine Node.quiet_around (by decide) ?_
    simp [(Node.quiet_leaf .typeIdentifier (by decide)).withRole, e.quiet_tree.withRole]
  have hdeclaration : (Node.around .typeDeclaration [.mark "type", typeSpecTree "X" e]).Quiet :=
    Node.quiet_around (by decide) (by simp [Node.quiet_mark, hspec])
  obtain ⟨p, hp, hroot⟩ := exists_parse_fileAround path htree hdeclaration.sound
  have hfirst := firstType?_unplaced p.tree
  rw [hroot] at hfirst
  have htype : firstType? (.around .sourceFile [packageTree, .mark "\n",
      .around .typeDeclaration [.mark "type", typeSpecTree "X" e], .mark "\n"]) =
      some (e.tree.withRole .type) := child?_typeSpecTree "X" e
  obtain ⟨type, hfirst, htype⟩ := Option.map_eq_some_iff.1 (hfirst.symm.trans htype)
  have hof : TypeExpr.ofNode type = e := by
    rw [← TypeExpr.ofNode_unplaced, htype, TypeExpr.ofNode_withRole, TypeExpr.ofNode_tree]
  refine ⟨p, ?_, type, hfirst, hof, congrArg TypeExpr.render hof⟩
  rw [toList_typeSource]
  exact hp

theorem exists_parse_typeSource_map :
    ∃ p, parse "test.go" (Utf8.encode (typeSource "map[string][]chan *io.Reader").toList) = .ok p ∧
      ∃ type, firstType? p.tree = some type ∧ TypeExpr.ofNode type =
        .map (.named "string") (.slice (.chan (.pointer (.qualified "io" "Reader")))) := by
  have he : (TypeExpr.map (.named "string")
      (.slice (.chan (.pointer (.qualified "io" "Reader"))))).Writable := by decide
  obtain ⟨p, hp, type, hfirst, hof, -⟩ := exists_parse_typeSource "test.go" he
  exact ⟨p, hp, type, hfirst, hof⟩

end GoOutline
