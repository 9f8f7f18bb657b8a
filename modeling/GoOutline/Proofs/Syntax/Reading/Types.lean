import GoOutline.Proofs.Outline.TreeMaps
import GoOutline.Proofs.Syntax.Reading.Basic
import GoOutline.Syntax.Grammar.File
import GoOutline.TypeExpr

/-!
# Reading written types

The text of a type is read as a type of the same form, wherever a type may stand.

## Main definitions

* `IsIdentifier`: the names that declarations may introduce
* `TypeExpr.Writable`: the types whose text can be read back
* `TypeExpr.tree`: the tree of a type
* `TypeExpr.height`: how deep the types in a type are nested
* `EndsType`: what may follow a type

## Main results

* `TypeExpr.ofNode_tree`: the type that a tree stands for
* `readsType_grammar`: the text of a type is read as its tree
-/

namespace GoOutline

open GoOutline.Syntax GoOutline.Text

/-! ## Types and their trees -/

/-- The words that are kept for the grammar. -/
def keywords : List String :=
  ["break", "case", "chan", "const", "continue", "default", "defer", "else", "fallthrough", "for",
    "func", "go", "goto", "if", "import", "interface", "map", "package", "range", "return",
    "select", "struct", "switch", "type", "var"]

/-- The text is an identifier, other than a keyword and the blank one. -/
structure IsIdentifier (name : String) : Prop where
  isWord : Lexeme.IsWord name.toList
  not_keyword : name ∉ keywords
  ne_blank : name ≠ "_"

instance (name : String) : Decidable (IsIdentifier name) :=
  have : Decidable (Lexeme.IsWord name.toList) :=
    inferInstanceAs (Decidable (name.toList ≠ [] ∧ Lexeme.word name.toList = name.toList))
  decidable_of_iff (Lexeme.IsWord name.toList ∧ name ∉ keywords ∧ name ≠ "_")
    ⟨fun h => ⟨h.1, h.2.1, h.2.2⟩, fun h => ⟨h.1, h.2, h.3⟩⟩

theorem IsIdentifier.not_typeKeyword {name : String} (h : IsIdentifier name) :
    name ∉ typeKeywords := by
  have hsubset : ∀ word ∈ typeKeywords, word ∈ keywords := by decide
  exact fun hname => h.not_keyword (hsubset name hname)

/-- A dot in front of an identifier is one dot only. -/
theorem IsIdentifier.not_dots {name : String} (h : IsIdentifier name) {rest : List Char} :
    Lexeme.startsWith "..." (".".toList ++ (name.toList ++ rest)) = false := by
  have hdots : Lexeme.startsWith ".." (name.toList ++ rest) = false :=
    Lexeme.startsWith_eq_false rfl (h.isWord.head?_ne (by decide))
  exact (Bool.true_and _).trans hdots

/-- Without places a tree keeps all that types and signatures are read from. -/
theorem keepsParts_unplaced : KeepsParts (fun _ => False) Node.unplaced where
  isBody := False.elim
  kind := Node.kind_unplaced
  role := Node.role_unplaced
  text _ := Node.text_unplaced _
  children _ := by rw [Node.children_unplaced, Node.unplacedAll_eq_map]

namespace TypeExpr

/-- The types that are written as they are: from identifiers, and without the words that stand for
types of many shapes. -/
inductive Writable : TypeExpr → Prop where
  | named {name : String} : IsIdentifier name → Writable (.named name)
  | pointer {e : TypeExpr} : Writable e → Writable (.pointer e)
  | slice {e : TypeExpr} : Writable e → Writable (.slice e)
  | map {key value : TypeExpr} : Writable key → Writable value → Writable (.map key value)
  | qualified {package name : String} :
    IsIdentifier package → IsIdentifier name → Writable (.qualified package name)
  | interface : Writable .interface
  | chan {e : TypeExpr} : Writable e → Writable (.chan e)

instance decidableWritable : (e : TypeExpr) → Decidable e.Writable
  | .named name => decidable_of_iff (IsIdentifier name) ⟨.named, fun | .named h => h⟩
  | .pointer e =>
    have := decidableWritable e
    decidable_of_iff e.Writable ⟨.pointer, fun | .pointer h => h⟩
  | .slice e =>
    have := decidableWritable e
    decidable_of_iff e.Writable ⟨.slice, fun | .slice h => h⟩
  | .map key value =>
    have := decidableWritable key
    have := decidableWritable value
    decidable_of_iff (key.Writable ∧ value.Writable)
      ⟨fun h => .map h.1 h.2, fun | .map hkey hvalue => ⟨hkey, hvalue⟩⟩
  | .qualified package name =>
    decidable_of_iff (IsIdentifier package ∧ IsIdentifier name)
      ⟨fun h => .qualified h.1 h.2, fun | .qualified hpackage hname => ⟨hpackage, hname⟩⟩
  | .interface => .isTrue .interface
  | .chan e =>
    have := decidableWritable e
    decidable_of_iff e.Writable ⟨.chan, fun | .chan h => h⟩
  | .func => .isFalse nofun
  | .unknown => .isFalse nofun

/-- The tree of a type. -/
def tree : TypeExpr → Node
  | .named name => .leaf .typeIdentifier nowhere name
  | .pointer e => .around .pointerType [.mark "*", e.tree]
  | .slice e => .around .sliceType [.mark "[", .mark "]", e.tree.withRole .element]
  | .map key value => .around .mapType [.mark "map", .mark "[", key.tree.withRole .key, .mark "]",
      value.tree.withRole .value]
  | .qualified package name => .around .qualifiedType
      [(Node.leaf .packageIdentifier nowhere package).withRole .package, .mark ".",
        (Node.leaf .typeIdentifier nowhere name).withRole .name]
  | .interface => .around .interfaceType [.mark "interface", .mark "\x7b", .mark "\x7d"]
  | .chan e => .around .channelType [.mark "chan", e.tree.withRole .value]
  | .func => .around .functionType []
  | .unknown => .around .structType []

/-- How deep the types in a type are nested. -/
def height : TypeExpr → Nat
  | .pointer e | .slice e | .chan e => e.height + 1
  | .map key value => max key.height value.height + 1
  | _ => 1

theorem ofNode_withRole (n : Node) (r : Role) : ofNode (n.withRole r) = ofNode n := by
  obtain ⟨head, children⟩ := n
  rw [Node.withRole, ofNode, ofNode]

theorem isComment_tree (e : TypeExpr) : e.tree.isComment = false := by
  cases e <;> rfl

theorem isNamed_tree (e : TypeExpr) : e.tree.isNamed := by
  cases e <;> rfl

section

variable {n : Node} {rest : List Node} {r r' : Role} {spelling : String}

theorem ofRole_mark : ofRole r (.mark spelling :: rest) = ofRole r rest := by
  rw [ofRole]
  rfl

theorem role_withRole (n : Node) (r : Role) : (n.withRole r).role = some r := by
  obtain ⟨head, children⟩ := n
  rfl

theorem ofRole_withRole : ofRole r (n.withRole r :: rest) = ofNode n := by
  rw [ofRole, role_withRole, beq_self_eq_true, if_pos rfl, ofNode_withRole]

theorem ofRole_withRole_ne (h : r' ≠ r) : ofRole r (n.withRole r' :: rest) = ofRole r rest := by
  have hrole : (some r' == some r) = false := by simpa using h
  rw [ofRole, role_withRole, hrole]
  rfl

theorem ofFirstNamed_mark : ofFirstNamed (.mark spelling :: rest) = ofFirstNamed rest := by
  rw [ofFirstNamed]
  rfl

theorem ofFirstNamed_cons (h : n.isNamed) : ofFirstNamed (n :: rest) = ofNode n := by
  rw [ofFirstNamed, h, if_pos rfl]

end

/-- **The tree of a type** stands for it. -/
theorem ofNode_tree (e : TypeExpr) : ofNode e.tree = e := by
  induction e with
  | named name => rfl
  | pointer e ih =>
    change TypeExpr.pointer (ofFirstNamed [.mark "*", e.tree]) = _
    rw [ofFirstNamed_mark, ofFirstNamed_cons e.isNamed_tree, ih]
  | slice e ih =>
    change TypeExpr.slice (ofRole .element [.mark "[", .mark "]", e.tree.withRole .element]) = _
    rw [ofRole_mark, ofRole_mark, ofRole_withRole, ih]
  | map key value ihk ihv =>
    change TypeExpr.map
      (ofRole .key [.mark "map", .mark "[", key.tree.withRole .key, .mark "]",
        value.tree.withRole .value])
      (ofRole .value [.mark "map", .mark "[", key.tree.withRole .key, .mark "]",
        value.tree.withRole .value]) = _
    rw [ofRole_mark, ofRole_mark, ofRole_withRole, ofRole_mark, ofRole_mark,
      ofRole_withRole_ne (by decide), ofRole_mark, ofRole_withRole, ihk, ihv]
  | qualified package name => rfl
  | interface => rfl
  | chan e ih =>
    change TypeExpr.chan (ofRole .value [.mark "chan", e.tree.withRole .value]) = _
    rw [ofRole_mark, ofRole_withRole, ih]
  | func => rfl
  | unknown => rfl

theorem quiet_tree (e : TypeExpr) : e.tree.Quiet := by
  induction e with
  | named name => exact Node.quiet_leaf _ (by decide)
  | pointer e ih =>
    refine Node.quiet_around (by decide) ?_
    simp [Node.quiet_mark, ih]
  | slice e ih =>
    refine Node.quiet_around (by decide) ?_
    simp [Node.quiet_mark, ih.withRole]
  | map key value ihk ihv =>
    refine Node.quiet_around (by decide) ?_
    simp [Node.quiet_mark, ihk.withRole, ihv.withRole]
  | qualified package name =>
    refine Node.quiet_around (by decide) ?_
    simp [Node.quiet_mark, (Node.quiet_leaf .packageIdentifier (by decide)).withRole,
      (Node.quiet_leaf .typeIdentifier (by decide)).withRole]
  | interface =>
    refine Node.quiet_around (by decide) ?_
    simp [Node.quiet_mark]
  | chan e ih =>
    refine Node.quiet_around (by decide) ?_
    simp [Node.quiet_mark, ih.withRole]
  | func => exact Node.quiet_around (by decide) fun _ hn => absurd hn List.not_mem_nil
  | unknown => exact Node.quiet_around (by decide) fun _ hn => absurd hn List.not_mem_nil

/-- The type that a node stands for does not depend on its place. -/
theorem ofNode_unplaced (n : Node) : ofNode n.unplaced = ofNode n := keepsParts_unplaced.ofNode n

/-! ## The texts of types -/

section

variable {rest : List Char}

theorem toList_render_pointer (e : TypeExpr) :
    (pointer e).render.toList ++ rest = "*".toList ++ (e.render.toList ++ rest) := by
  rw [render, String.toList_append, List.append_assoc]

theorem toList_render_slice (e : TypeExpr) :
    (slice e).render.toList ++ rest = "[".toList ++ ("]".toList ++ (e.render.toList ++ rest)) := by
  rw [render, String.toList_append, List.append_assoc]
  rfl

theorem toList_render_map (key value : TypeExpr) :
    (map key value).render.toList ++ rest = "map".toList ++ ("[".toList ++
      (key.render.toList ++ ("]".toList ++ (value.render.toList ++ rest)))) := by
  simp only [render, String.toList_append, List.append_assoc]
  rfl

theorem toList_render_qualified (package name : String) :
    (qualified package name).render.toList ++ rest =
      package.toList ++ (".".toList ++ (name.toList ++ rest)) := by
  simp only [render, String.toList_append, List.append_assoc]

theorem toList_render_interface :
    interface.render.toList ++ rest =
      "interface".toList ++ ("\x7b".toList ++ ("\x7d".toList ++ rest)) := rfl

theorem toList_render_chan (e : TypeExpr) :
    (chan e).render.toList ++ rest = "chan".toList ++ (' ' :: (e.render.toList ++ rest)) := by
  rw [render, String.toList_append, List.append_assoc]
  rfl

/-- A type starts with a word, a star or a bracket. -/
theorem Writable.exists_cons {e : TypeExpr} (h : e.Writable) :
    ∃ c more, e.render.toList = c :: more ∧ (Identifier.isStart c ∨ c ∈ ['*', '[']) := by
  have hword : ∀ name : List Char, Lexeme.IsWord name → ∀ after, ∃ c more,
      name ++ after = c :: more ∧ (Identifier.isStart c ∨ c ∈ ['*', '[']) := by
    intro name hname after
    obtain ⟨c, cs, rfl, hc, -⟩ := hname.exists_cons
    exact ⟨c, cs ++ after, rfl, .inl hc⟩
  cases h with
  | @named name hname =>
    have hcons := hword _ hname.isWord []
    rwa [List.append_nil] at hcons
  | @qualified package name hpackage =>
    rw [render, String.toList_append, String.toList_append, List.append_assoc]
    exact hword _ hpackage.isWord _
  | @pointer e => exact ⟨'*', _, by rw [render, String.toList_append]; rfl, by decide⟩
  | @slice e => exact ⟨'[', _, by rw [render, String.toList_append]; rfl, by decide⟩
  | @map key value =>
    refine ⟨'m', "ap[".toList ++ (key.render.toList ++ ("]".toList ++ value.render.toList)), ?_,
      by decide⟩
    simp only [render, String.toList_append, List.append_assoc]
    rfl
  | interface => exact ⟨'i', "nterface\x7b\x7d".toList, rfl, by decide⟩
  | @chan e => exact ⟨'c', _, by rw [render, String.toList_append]; rfl, by decide⟩

/-- Every level of a type takes a character of its text. -/
theorem Writable.height_le {e : TypeExpr} (h : e.Writable) : e.height ≤ e.render.toList.length := by
  have hlength : ∀ {e : TypeExpr}, e.Writable → 1 ≤ e.render.toList.length := by
    intro e he
    obtain ⟨c, more, hcons, -⟩ := he.exists_cons
    rw [hcons]
    exact Nat.succ_le_succ (Nat.zero_le _)
  induction h with
  | named hname => exact hlength (.named hname)
  | qualified hpackage hname => exact hlength (.qualified hpackage hname)
  | interface => exact hlength .interface
  | pointer he ih =>
    simp only [render, height, String.toList_append, List.length_append]
    change _ ≤ 1 + _
    omega
  | slice he ih =>
    simp only [render, height, String.toList_append, List.length_append]
    change _ ≤ 2 + _
    omega
  | chan he ih =>
    simp only [render, height, String.toList_append, List.length_append]
    change _ ≤ 5 + _
    omega
  | map hkey hvalue ihk ihv =>
    simp only [render, height, String.toList_append, List.length_append]
    change _ ≤ 4 + _ + 1 + _
    omega

/-- A type starts a token. -/
theorem Writable.leads {e : TypeExpr} (h : e.Writable) {line : Bool} :
    Leads line (e.render.toList ++ rest) (e.render.toList ++ rest) := by
  obtain ⟨c, more, hcons, hc⟩ := h.exists_cons
  rw [hcons]
  refine leads_token ?_
  rcases hc with hstart | hc
  · exact startsToken_of_isStart hstart
  · obtain rfl | rfl : c = '*' ∨ c = '[' := by simpa using hc
    · cases line <;> decide
    · cases line <;> decide

/-- A type starts with none of the characters that end one. -/
theorem Writable.head?_ne {e : TypeExpr} (h : e.Writable) {c : Char}
    (hstart : Identifier.isStart c = false) (hmark : c ∉ ['*', '[']) :
    ((e.render.toList ++ rest).head? == some c) = false := by
  obtain ⟨d, more, hcons, hd⟩ := h.exists_cons
  rw [hcons, List.cons_append, List.head?_cons, beq_eq_false_iff_ne]
  rintro heq
  cases heq
  rcases hd with hd | hd
  · exact absurd (hstart.symm.trans hd) Bool.false_ne_true
  · exact hmark hd

/-- Only slices start with a bracket. -/
theorem Writable.exists_eq_slice {e : TypeExpr} (h : e.Writable)
    (hhead : ((e.render.toList ++ rest).head? == some '[') = true) : ∃ e', e = .slice e' := by
  cases h with
  | slice => exact ⟨_, rfl⟩
  | named hname =>
    rw [render, hname.isWord.head?_ne (by decide)] at hhead
    cases hhead
  | qualified hpackage =>
    rw [toList_render_qualified, hpackage.isWord.head?_ne (by decide)] at hhead
    cases hhead
  | pointer => rw [toList_render_pointer] at hhead; cases hhead
  | map => rw [toList_render_map] at hhead; cases hhead
  | interface => cases hhead
  | chan => rw [toList_render_chan] at hhead; cases hhead

end

end TypeExpr

/-! ## What follows a type -/

/-- A type may end before the text: a closing bracket, a comma or a parenthesis comes next, or with
`line` the end of the line. -/
def EndsType (line : Bool) (rest : List Char) : Prop :=
  ∃ c more, rest = c :: more ∧ (c ∈ [']', ',', ')'] ∨ line = true ∧ c = '\n')

section

variable {line : Bool} {rest : List Char}

theorem endsType_cons {c : Char} (h : c ∈ [']', ',', ')']) : EndsType line (c :: rest) :=
  ⟨c, rest, rfl, .inl h⟩

theorem endsType_newline : EndsType true ('\n' :: rest) := ⟨'\n', rest, rfl, .inr ⟨rfl, rfl⟩⟩

/-- What follows a type goes on with neither a word, a name of a package, nor type arguments. -/
theorem EndsType.facts (h : EndsType line rest) :
    Leads line rest rest ∧ Lexeme.EndsWord rest ∧ (rest.head? == some '.') = false ∧
      (rest.head? == some '[') = false := by
  obtain ⟨c, more, rfl, hc | ⟨rfl, rfl⟩⟩ := h
  · have hfacts : startsToken line c ∧ Identifier.isContinue c = false ∧ c ≠ '.' ∧ c ≠ '[' := by
      obtain rfl | rfl | rfl : c = ']' ∨ c = ',' ∨ c = ')' := by simpa using hc
      all_goals cases line <;> decide
    obtain ⟨hstarts, hcontinue, hdot, hbracket⟩ := hfacts
    exact ⟨leads_token hstarts, Lexeme.endsWord_cons hcontinue, by simpa using hdot,
      by simpa using hbracket⟩
  · exact ⟨leads_token (by decide), Lexeme.endsWord_cons (by decide), rfl, rfl⟩

end

/-! ## Reading -/

namespace Syntax

open Rule

/-- The grammar reads the text of a type as its tree, wherever a type may stand. -/
def Grammar.ReadsType (g : Grammar) (e : TypeExpr) : Prop :=
  ∀ {line text rest}, Leads false text (e.render.toList ++ rest) → EndsType line rest →
    (g (.type line)).ReadsAs text rest [e.tree]

section

variable {g : Grammar} {line : Bool} {text rest token : List Char}

/-- A star starts a pointer. -/
theorem readsType_pointer {e : TypeExpr} (he : e.Writable) (h : g.ReadsType e) :
    Grammar.ReadsType (ruleOf g) (.pointer e) := by
  intro line text rest hlead hrest
  rw [TypeExpr.toList_render_pointer] at hlead
  refine (looks_upcoming false).bind hlead (reads_enclosed ?_ rfl)
  refine .bind (reads_symbol hlead) fun star hstar => ?_
  refine .bind (h he.leads hrest) fun pointee hpointee => .pure ?_
  rw [Node.unplacedAll_append, hstar, hpointee]
  rfl

/-- An empty pair of brackets starts a slice. -/
theorem reads_bracketType {e : TypeExpr} (he : e.Writable) (h : g.ReadsType e)
    (hlead : Leads false text ((TypeExpr.slice e).render.toList ++ rest))
    (hrest : EndsType line rest) :
    (bracketType g line).ReadsAs text rest [(TypeExpr.slice e).tree] := by
  rw [TypeExpr.toList_render_slice] at hlead
  refine .bind (reads_symbol hlead) fun opening hopening => ?_
  have hclose : Leads false ("]".toList ++ (e.render.toList ++ rest))
      ("]".toList ++ (e.render.toList ++ rest)) := leads_token (by decide)
  refine (looks_nextIs false ']').bind hclose ?_
  refine .bind (reads_symbol hclose) fun close hclosed => ?_
  refine .bind (reads_inRole_one (h he.leads hrest) e.isComment_tree) fun element helement =>
    .pure ?_
  refine Node.unplacedAll_enclose (.mark "[") ?_ rfl
  rw [Node.unplacedAll_append, Node.unplacedAll_append, hopening, hclosed, helement]
  rfl

theorem readsType_slice {e : TypeExpr} (he : e.Writable) (h : g.ReadsType e) :
    Grammar.ReadsType (ruleOf g) (.slice e) := by
  intro line text rest hlead hrest
  have hread := reads_bracketType he h hlead hrest
  rw [TypeExpr.toList_render_slice] at hlead
  exact (looks_upcoming false).bind hlead hread

/-- The word `map` starts a map. -/
theorem reads_mapType {key value : TypeExpr} (hkey : key.Writable) (hvalue : value.Writable)
    (hk : g.ReadsType key) (hv : g.ReadsType value)
    (hlead : Leads false text ((TypeExpr.map key value).render.toList ++ rest))
    (hrest : EndsType line rest) :
    (mapType g line).ReadsAs text rest [(TypeExpr.map key value).tree] := by
  rw [TypeExpr.toList_render_map] at hlead
  refine reads_enclosed ?_ rfl
  have hends : Lexeme.EndsWord ("[".toList ++ (key.render.toList ++ ("]".toList ++
      (value.render.toList ++ rest)))) := Lexeme.endsWord_cons (by decide)
  refine .bind (reads_keyword hlead ⟨by decide, by decide⟩ hends) fun head hhead => ?_
  refine .bind (reads_symbol (leads_token (by decide))) fun opening hopening => ?_
  refine .bind (reads_inRole_one (hk hkey.leads (endsType_cons (by decide))) key.isComment_tree)
    fun key' hkey' => ?_
  refine .bind (reads_symbol (leads_token (by decide))) fun close hclose => ?_
  refine .bind (reads_inRole_one (hv hvalue.leads hrest) value.isComment_tree)
    fun value' hvalue' => .pure ?_
  simp only [Node.unplacedAll_append, hhead, hopening, hkey', hclose, hvalue']
  rfl

theorem readsType_map {key value : TypeExpr} (hkey : key.Writable) (hvalue : value.Writable)
    (hk : g.ReadsType key) (hv : g.ReadsType value) :
    Grammar.ReadsType (ruleOf g) (.map key value) := by
  intro line text rest hlead hrest
  have hread := reads_mapType hkey hvalue hk hv hlead hrest
  rw [TypeExpr.toList_render_map] at hlead
  exact (looks_upcoming false).bind hlead hread

/-- The word `chan` starts a channel. -/
theorem readsType_chan {e : TypeExpr} (he : e.Writable) (h : g.ReadsType e) :
    Grammar.ReadsType (ruleOf g) (.chan e) := by
  intro line text rest hlead hrest
  rw [TypeExpr.toList_render_chan] at hlead
  refine (looks_upcoming false).bind hlead (reads_enclosed ?_ rfl)
  refine (looks_nextStarts false "<-").bind hlead ?_
  refine .bind reads_nil fun before hbefore => ?_
  refine .bind (reads_keyword hlead ⟨by decide, by decide⟩ Lexeme.endsWord_space)
    fun head hhead => ?_
  have harrow : Lexeme.startsWith "<-" (e.render.toList ++ rest) = false := by
    refine Lexeme.startsWith_eq_false (c := '<') rfl ?_
    exact he.head?_ne (by decide) (by decide)
  refine (looks_nextStarts false "<-").bind he.leads.space ?_
  rw [harrow, Bool.and_false, if_neg Bool.false_ne_true]
  refine .bind reads_nil fun after hafter => ?_
  refine .bind (reads_inRole_one (h he.leads.space hrest) e.isComment_tree)
    fun value hvalue => .pure ?_
  simp only [Node.unplacedAll_append, hbefore, hhead, hafter, hvalue]
  rfl

/-- The word `interface` and empty braces are an interface. -/
theorem readsType_interface : Grammar.ReadsType (ruleOf g) .interface := by
  intro line text rest hlead hrest
  rw [TypeExpr.toList_render_interface] at hlead
  refine (looks_upcoming false).bind hlead (reads_enclosed ?_ rfl)
  have hends : Lexeme.EndsWord ("\x7b".toList ++ ("\x7d".toList ++ rest)) :=
    Lexeme.endsWord_cons (by decide)
  refine .bind (reads_keyword hlead ⟨by decide, by decide⟩ hends) fun head hhead => ?_
  refine .bind (reads_symbol (leads_token (by decide))) fun opening hopening => ?_
  have hclose : Leads false ("\x7d".toList ++ rest) ("\x7d".toList ++ rest) :=
    leads_token (by decide)
  have helements : (bounded (terminatedItems '}' (interfaceElement g))).ReadsAs
      ("\x7d".toList ++ rest) ("\x7d".toList ++ rest) [] :=
    .bounded ((looks_nextIs false '}').bind hclose reads_nil)
  refine .bind helements fun elements helements => ?_
  refine .bind (reads_symbol hclose) fun close hclosed => .pure ?_
  simp only [Node.unplacedAll_append, hhead, hopening, helements, hclosed]
  rfl

/-- A word that starts no other type is a name. -/
theorem reads_typeRule_name {name : String} {after : List Char} {post : List Node → Prop}
    (hname : IsIdentifier name) (hlead : Leads false text (name.toList ++ after))
    (hends : Lexeme.EndsWord after) (hread : (namedType g line).Reads text rest post) :
    (typeRule g line).Reads text rest post := by
  refine (looks_upcoming false).bind hlead ?_
  have hnot : ∀ c more, Identifier.isStart c = false → name.toList ++ after ≠ c :: more :=
    fun c more hc => hname.isWord.append_ne_cons hc
  have hword : String.ofList (Lexeme.word (name.toList ++ after)) = name := by
    rw [hname.isWord.word_append hends, String.ofList_toList]
  have hkeyword := hname.not_typeKeyword
  rw [← hword] at hkeyword
  dsimp only [id_eq]
  split
  case h_6 =>
    split
    case h_6 => exact hread
    all_goals next heq => exact absurd heq fun h => hkeyword (h ▸ by decide)
  all_goals next heq => exact absurd heq (hnot _ _ (by decide))

/-- A name is a type. -/
theorem readsType_named {name : String} (hname : IsIdentifier name) :
    Grammar.ReadsType (ruleOf g) (.named name) := by
  intro line text rest hlead hrest
  obtain ⟨hleads, hends, hdot, hbracket⟩ := hrest.facts
  refine reads_typeRule_name hname hlead hends ?_
  refine .bind (reads_word hlead hname.isWord hends) fun first hfirst => ?_
  refine (looks_nextIs line '.').bind hleads ?_
  refine (looks_nextStarts line "...").bind hleads ?_
  rw [hdot, Bool.false_and, if_neg Bool.false_ne_true]
  refine .bind (reads_pure hfirst) fun base hbase => ?_
  refine (looks_nextIs line '[').bind hleads ?_
  rw [hbracket, if_neg Bool.false_ne_true]
  refine .pure ?_
  rw [hbase, String.ofList_toList]
  rfl

/-- A name of a package and a name behind a dot are a type. -/
theorem readsType_qualified {package name : String} (hpackage : IsIdentifier package)
    (hname : IsIdentifier name) : Grammar.ReadsType (ruleOf g) (.qualified package name) := by
  intro line text rest hlead hrest
  obtain ⟨hleads, hends, -, hbracket⟩ := hrest.facts
  rw [TypeExpr.toList_render_qualified] at hlead
  have hdots : Lexeme.EndsWord (".".toList ++ (name.toList ++ rest)) :=
    Lexeme.endsWord_cons (by decide)
  refine reads_typeRule_name hpackage hlead hdots ?_
  refine .bind (reads_word hlead hpackage.isWord hdots) fun first hfirst => ?_
  have hdot : Leads line (".".toList ++ (name.toList ++ rest))
      (".".toList ++ (name.toList ++ rest)) := leads_token (by cases line <;> decide)
  refine (looks_nextIs line '.').bind hdot ?_
  refine (looks_nextStarts line "...").bind hdot ?_
  rw [hname.not_dots]
  obtain ⟨m, rfl, hm⟩ := Node.exists_of_unplacedAll_eq_singleton hfirst
  have hcomment : m.isComment = false := by rw [← Node.isComment_unplaced, hm]; rfl
  have htext : m.text = package := by
    rw [← Node.text_unplaced, hm]
    exact String.ofList_toList
  refine .bind (reads_symbol (leads_token (by decide))) fun dot hdotted => ?_
  refine .bind (reads_word hname.isWord.leads hname.isWord hends) fun last hlast => ?_
  -- the first word turns out to be the name of a package
  have hbase : Node.unplacedAll (Node.enclose .qualifiedType
      (Node.labelled .package ([m].map fun n =>
        if n.isComment then n else .leaf .packageIdentifier n.span n.text) ++ dot ++
        Node.labelled .name last)) = [(TypeExpr.qualified package name).tree] := by
    refine Node.unplacedAll_enclose
      ((Node.leaf .packageIdentifier nowhere package).withRole .package) ?_ rfl
    rw [List.map_singleton, hcomment, Node.unplacedAll_append, Node.unplacedAll_append,
      Node.unplacedAll_labelled, Node.unplacedAll_labelled, hdotted, hlast, String.ofList_toList,
      htext]
    simp only [Bool.false_eq_true, if_false, Node.unplacedAll_leaf]
    rfl
  refine .bind (reads_pure hbase) fun base hbase => ?_
  refine (looks_nextIs line '[').bind hleads ?_
  rw [hbracket, if_neg Bool.false_ne_true]
  exact .pure hbase

end

/-! ## Names that types may follow -/

/-- No names start where no word does. -/
theorem stops_leadingNames {text token : List Char} (hlead : Leads false text token)
    (hword : Lexeme.word token = []) : leadingNames.Stops text := by
  refine (looks_nextWord false).bind_stops hlead ?_
  rw [hword, if_neg (by decide)]
  refine .bounded (Stops.bind ?_)
  exact Stops.map (stops_word hlead hword)

/-- **Types are read back.** A grammar of the height of a type, or more, reads its text. -/
theorem readsType_grammar {e : TypeExpr} (he : e.Writable) {depth : Nat} (h : e.height ≤ depth) :
    (grammar depth).ReadsType e := by
  -- by induction on the type, with a level of the grammar for each of its levels
  induction he generalizing depth with
  | named hname =>
    obtain ⟨d, rfl⟩ := Nat.exists_eq_add_of_le' h
    exact readsType_named hname
  | qualified hpackage hname =>
    obtain ⟨d, rfl⟩ := Nat.exists_eq_add_of_le' h
    exact readsType_qualified hpackage hname
  | interface =>
    obtain ⟨d, rfl⟩ := Nat.exists_eq_add_of_le' h
    exact readsType_interface
  | pointer he ih =>
    obtain ⟨d, rfl⟩ := Nat.exists_eq_add_of_le' (Nat.one_le_of_lt h)
    exact readsType_pointer he (ih (Nat.le_of_succ_le_succ h))
  | slice he ih =>
    obtain ⟨d, rfl⟩ := Nat.exists_eq_add_of_le' (Nat.one_le_of_lt h)
    exact readsType_slice he (ih (Nat.le_of_succ_le_succ h))
  | chan he ih =>
    obtain ⟨d, rfl⟩ := Nat.exists_eq_add_of_le' (Nat.one_le_of_lt h)
    exact readsType_chan he (ih (Nat.le_of_succ_le_succ h))
  | map hkey hvalue ihk ihv =>
    obtain ⟨d, rfl⟩ := Nat.exists_eq_add_of_le' (Nat.one_le_of_lt h)
    obtain ⟨hk, hv⟩ := Nat.max_le.1 (Nat.le_of_succ_le_succ h)
    exact readsType_map hkey hvalue (ihk hk) (ihv hv)

end Syntax

end GoOutline
