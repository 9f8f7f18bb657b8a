import GoOutline.Analysis
import GoOutline.Proofs.Syntax.Faults
import GoOutline.Proofs.Syntax.Reading.Types
import GoOutline.Proofs.Text.Utf8

/-!
# Reading written files

A file of a package clause and one more declaration is accepted when the declaration is read, and
its tree is made of the two.

## Main definitions

* `fileAround`: the text of a file around a declaration
* `packageTree`: the tree of its package clause

## Main results

* `exists_unplaced_ofSource`: the tree of the file
* `exists_parse_fileAround`: the file is accepted
* `reads_typeDeclaration`: a type declaration is read as its tree
-/

namespace GoOutline

open GoOutline.Syntax GoOutline.Text

namespace Syntax

open Rule

/-! ## Files -/

/-- The text of a file with a package clause and one declaration. -/
def fileAround (item : List Char) : List Char :=
  "package".toList ++ (' ' :: ("p".toList ++ ('\n' :: '\n' :: (item ++ ['\n']))))

/-- The tree of the package clause. -/
def packageTree : Node :=
  .around .packageClause [.mark "package", .leaf .packageIdentifier nowhere "p"]

theorem quiet_packageTree : packageTree.Quiet :=
  Node.quiet_around (by decide)
    (by simp [Node.quiet_mark, Node.quiet_leaf .packageIdentifier (by decide)])

theorem isWord_package : Lexeme.IsWord "package".toList := ⟨by decide, by decide⟩

theorem reads_packageClause (item : List Char) :
    packageClause.ReadsAs (fileAround item) ('\n' :: '\n' :: (item ++ ['\n'])) [packageTree] := by
  refine reads_enclosed ?_ rfl
  refine .bind (reads_keyword isWord_package.leads isWord_package Lexeme.endsWord_space)
    fun head hhead => ?_
  have hlead : Leads false (' ' :: ("p".toList ++ ('\n' :: '\n' :: (item ++ ['\n']))))
      ("p".toList ++ ('\n' :: '\n' :: (item ++ ['\n']))) := (leads_token (by decide)).space
  refine .bind (reads_word hlead ⟨by decide, by decide⟩ (Lexeme.endsWord_cons (by decide)))
    fun name hname => .pure ?_
  rw [Node.unplacedAll_append, hhead, hname]
  rfl

/-- The end of a line ends a statement. -/
theorem reads_terminator? (rest : List Char) :
    terminator?.Reads ('\n' :: rest) rest fun o =>
      ∃ ns, o = some ns ∧ Node.unplacedAll ns = [.mark "\n"] := by
  intro p
  let q := p.advance '\n' (Utf8.width '\n')
  exact ⟨some [.leaf (.token "\n") ⟨p, q⟩ "\n"], q, rfl, _, rfl, Node.unplacedAll_leaf _ _ _⟩

/-- An item of a file with the end of its line, and what follows. -/
theorem reads_fileItems_item {g : Grammar} {text token rest : List Char} {q : Node → Prop}
    {post : List Node → Prop} {rounds : Nat} (hlead : Leads false text token) (htoken : token ≠ [])
    (hitem : (topLevel g).ReadsOne text ('\n' :: rest) q)
    (hrest : (fileItems g rounds).Reads rest [] post) :
    (fileItems g (rounds + 1)).Reads text [] fun ns => ∃ n ms, q n ∧ post ms ∧
      Node.unplacedAll ns = n :: .mark "\n" :: Node.unplacedAll ms := by
  refine (looks_upcoming false).bind hlead ?_
  rw [id_eq, List.isEmpty_eq_false_iff.2 htoken, if_neg Bool.false_ne_true]
  refine .bind hitem ?_
  rintro first ⟨n, hfirst, hn⟩
  refine .bind (reads_terminator? rest) ?_
  rintro _ ⟨last, rfl, hlast⟩
  refine .bind hrest fun more hmore => .pure ⟨n, more, hn, hmore, ?_⟩
  rw [Node.unplacedAll_append, Node.unplacedAll_append, hfirst, hlast]
  rfl

/-- Nothing more is in a file. -/
theorem reads_fileItems_end (g : Grammar) (rounds : Nat) :
    (fileItems g (rounds + 1)).ReadsAs [] [] [] := by
  refine (looks_upcoming false).bind (leads_nil false) ?_
  exact fun p => ⟨[], p, rfl, Node.unplacedAll_nil⟩

theorem leads_fileAround (item : List Char) : Leads false (fileAround item) (fileAround item) :=
  isWord_package.leads

theorem word_fileAround (item : List Char) : Lexeme.word (fileAround item) = "package".toList :=
  isWord_package.word_append (Lexeme.endsWord_cons (by decide))

theorem length_fileAround (item : List Char) : (fileAround item).length = item.length + 12 := by
  have hlength : ∀ a b : List Char,
      (a ++ (' ' :: (b ++ ('\n' :: '\n' :: (item ++ ['\n']))))).length =
        item.length + (a.length + b.length + 4) := by
    intro a b
    simp only [List.length_append, List.length_cons, List.length_nil]
    omega
  exact hlength "package".toList "p".toList

/-- A file is read when its declaration is. -/
theorem reads_fileItems {g : Grammar} {item : List Char} {q : Node → Prop} (rounds : Nat)
    (hlead : Leads false (item ++ ['\n']) (item ++ ['\n']))
    (hitem : (topLevel g).ReadsOne ('\n' :: (item ++ ['\n'])) ['\n'] q) :
    (fileItems g (rounds + 3)).Reads (fileAround item) [] fun ns =>
      ∃ n, q n ∧ Node.unplacedAll ns = [packageTree, .mark "\n", n, .mark "\n"] := by
  have hpackage : (topLevel g).ReadsAs (fileAround item) ('\n' :: '\n' :: (item ++ ['\n']))
      [packageTree] := by
    refine (looks_nextWord false).bind (leads_fileAround item) ?_
    simp only [word_fileAround, String.ofList_toList]
    exact reads_packageClause item
  have htoken : item ++ ['\n'] ≠ [] := List.append_ne_nil_of_right_ne_nil _ (List.cons_ne_nil _ _)
  have hrest := reads_fileItems_item hlead.newline htoken hitem (reads_fileItems_end g rounds)
  have hne : fileAround item ≠ [] := List.ne_nil_of_length_pos (by rw [length_fileAround]; omega)
  refine (reads_fileItems_item (q := (· = packageTree)) (leads_fileAround item) hne
    (hpackage.readsOne rfl) hrest).mono ?_
  rintro ns ⟨_, _, rfl, ⟨n, last, hn, hlast, hms⟩, hns⟩
  refine ⟨n, hn, ?_⟩
  rw [hns, hms, hlast]

/-- **The tree of a file** around a declaration that is read. -/
theorem exists_unplaced_ofSource {item : List Char} {q : Node → Prop}
    (hlead : Leads false (item ++ ['\n']) (item ++ ['\n']))
    (hitem : ∀ depth, item.length ≤ depth →
      (topLevel (grammar depth)).ReadsOne ('\n' :: (item ++ ['\n'])) ['\n'] q) :
    ∃ n, q n ∧ (Tree.ofSource (fileAround item)).unplaced =
      .around .sourceFile [packageTree, .mark "\n", n, .mark "\n"] := by
  have hdepth : item.length ≤ depthFor (fileAround item).length := by
    rw [depthFor, length_fileAround]
    omega
  have hrounds : (fileAround item).length + 1 = item.length + 10 + 3 := by
    rw [length_fileAround]
  obtain ⟨items, p, hread, n, hn, hitems⟩ :=
    reads_fileItems (item.length + 10) hlead (hitem _ hdepth) Point.origin
  have hstart : Cursor.start (fileAround item) = ⟨fileAround item, Point.origin⟩ := rfl
  have hfile : fileRule ⟨fileAround item, Point.origin⟩ = .ok (items, ⟨[], p⟩) := by
    rw [← hread, ← hrounds]
    rfl
  have hfragment : Tree.isFragment items = false := by
    have hlength := congrArg List.length hitems
    rw [Node.unplacedAll_eq_map, List.length_map] at hlength
    match items, hlength with
    | [_, _, _, _], _ => rfl
  refine ⟨n, hn, ?_⟩
  rw [Tree.ofSource, hstart, hfile]
  simp only [hfragment, Bool.false_eq_true, if_false, Tree.root]
  rw [Node.unplaced, hitems]
  rfl

/-! ## Type declarations -/

section

variable {g : Grammar} {text rest : List Char} {name : String} {e : TypeExpr}

/-- The tree of a type definition. -/
def typeSpecTree (name : String) (e : TypeExpr) : Node :=
  .around .typeSpec
    [(Node.leaf .typeIdentifier nowhere name).withRole .name, e.tree.withRole .type]

/-- A slice is not read as type parameters. -/
theorem stops_typeParameterList {after : List Char}
    (hlead : Leads false text ("[".toList ++ ("]".toList ++ after))) :
    (typeParameterList g).Stops text := by
  have hgroup : (typeParameterGroup g).Stops ("]".toList ++ after) := by
    refine Stops.map (Stops.bind (stops_leadingNames (leads_token (by decide)) ?_))
    exact Lexeme.word_eq_nil (by decide)
  refine Stops.map (Reads.bind_stops (reads_symbol hlead) fun opening _ => ?_)
  exact Stops.bind (.bounded (Stops.bind hgroup))

theorem reads_typeDefinition (hname : IsIdentifier name) (he : e.Writable) (h : g.ReadsType e)
    (hrest : EndsType true rest)
    (hlead : Leads false text (name.toList ++ (' ' :: (e.render.toList ++ rest)))) :
    (typeDefinition g).ReadsAs text rest [typeSpecTree name e] := by
  have hplain : (inRole .type (g (.type true))).ReadsAs (' ' :: (e.render.toList ++ rest)) rest
      [e.tree.withRole .type] := reads_inRole_one (h he.leads.space hrest) e.isComment_tree
  rw [typeSpecTree]
  refine reads_enclosed ?_ rfl
  refine .bind (reads_inRole_one (reads_word hlead hname.isWord Lexeme.endsWord_space) rfl)
    fun first hfirst => ?_
  rw [String.ofList_toList] at hfirst
  refine (looks_nextIs false '[').bind he.leads.space ?_
  split
  · next hbracket =>
    obtain ⟨element, rfl⟩ := he.exists_eq_slice hbracket
    have hslice : Leads false ((TypeExpr.slice element).render.toList ++ rest)
        ((TypeExpr.slice element).render.toList ++ rest) := he.leads
    rw [TypeExpr.toList_render_slice] at hplain hslice ⊢
    refine .bind (Reads.heavier_left hplain ?_) fun type htype => .pure ?_
    · exact Stops.bind (Stops.map (stops_typeParameterList hslice.space))
    · rw [Node.unplacedAll_append, hfirst, htype]
      rfl
  · refine .bind hplain fun type htype => .pure ?_
    rw [Node.unplacedAll_append, hfirst, htype]
    rfl

theorem reads_typeSpec (hname : IsIdentifier name) (he : e.Writable) (h : g.ReadsType e)
    (hrest : EndsType true rest)
    (hlead : Leads false text (name.toList ++ (' ' :: (e.render.toList ++ rest)))) :
    (typeSpec g).ReadsAs text rest [typeSpecTree name e] := by
  refine .get fun p => .bind (reads_word hlead hname.isWord Lexeme.endsWord_space) fun _ _ => ?_
  refine (looks_nextIs false '=').bind he.leads.space (.set ?_)
  rw [he.head?_ne (by decide) (by decide), if_neg Bool.false_ne_true]
  exact reads_typeDefinition hname he h hrest hlead

/-- **A type declaration** is read as the definition of its type. -/
theorem reads_typeDeclaration (hname : IsIdentifier name) (he : e.Writable) (h : g.ReadsType e)
    (hrest : EndsType true rest)
    (hlead : Leads false text ("type".toList ++
      (' ' :: (name.toList ++ (' ' :: (e.render.toList ++ rest)))))) :
    (typeDeclaration g).ReadsAs text rest
      [.around .typeDeclaration [.mark "type", typeSpecTree name e]] := by
  have hspec : Leads false (' ' :: (name.toList ++ (' ' :: (e.render.toList ++ rest))))
      (name.toList ++ (' ' :: (e.render.toList ++ rest))) := hname.isWord.leads.space
  refine reads_enclosed ?_ rfl
  refine .bind (reads_keyword hlead ⟨by decide, by decide⟩ Lexeme.endsWord_space)
    fun head hhead => ?_
  have hspecs : (specGroup (typeSpec g)).ReadsAs
      (' ' :: (name.toList ++ (' ' :: (e.render.toList ++ rest)))) rest [typeSpecTree name e] := by
    refine (looks_nextIs false '(').bind hspec ?_
    rw [hname.isWord.head?_ne (by decide), if_neg Bool.false_ne_true]
    exact reads_typeSpec hname he h hrest hspec
  refine .bind hspecs fun specs hspecs => .pure ?_
  rw [Node.unplacedAll_append, hhead, hspecs]
  rfl

end

end Syntax

/-! ## Acceptance -/

/-- **The file is accepted** when its declaration is read without faults. -/
theorem exists_parse_fileAround (path : String) {item : List Char} {n : Node}
    (htree : (Tree.ofSource (fileAround item)).unplaced =
      .around .sourceFile [packageTree, .mark "\n", n, .mark "\n"]) (hn : n.Sound) :
    ∃ p, parse path (Utf8.encode (fileAround item)) = .ok p ∧ p.tree.unplaced =
      .around .sourceFile [packageTree, .mark "\n", n, .mark "\n"] := by
  have hsound : (Tree.ofSource (fileAround item)).Sound := by
    rw [← Node.sound_unplaced, htree]
    refine Node.sound_around (by decide) ?_
    simp [quiet_packageTree.sound, hn]
  have hclause : Tree.hasPackageClause (Tree.ofSource (fileAround item)) := by
    have hchildren := congrArg Node.children htree
    rw [Node.children_unplaced, Node.unplacedAll_eq_map] at hchildren
    obtain ⟨first, hfirst, hkind⟩ : ∃ first ∈ (Tree.ofSource (fileAround item)).children,
        first.unplaced = packageTree := by
      refine List.mem_map.1 ?_
      rw [hchildren]
      exact List.mem_cons_self
    refine List.any_eq_true.2 ⟨first, hfirst, ?_⟩
    rw [← Node.kind_unplaced, hkind]
    rfl
  refine ⟨⟨path, Utf8.encode (fileAround item), Tree.ofSource (fileAround item)⟩, ?_, htree⟩
  exact parse_eq_ok_iff.2 ⟨fileAround item, Utf8.decode_encode _, Tree.firstFault?_eq_none hsound,
    hclause, rfl⟩

end GoOutline
