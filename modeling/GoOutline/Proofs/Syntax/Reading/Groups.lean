import GoOutline.Proofs.Syntax.Reading.Expressions
import GoOutline.Proofs.Syntax.Reading.Names

/-!
# Reading groups of parameters

A group of parameters is names that share a type, or a type alone. After names, the words `chan` and
`map` fit twice: they start a type, and they are one more name in front of a type.

## Main definitions

* `groupTree`: the tree of a group
* `Node.StandsFor`: a tree stands for a type
* `TypeExpr.weight`: the weight of a type wherever it stands
* `KeywordAhead`: a keyword stands in front of what may be a type

## Main results

* `reads_named`: names and their type are a group
* `reads_bare`: a type alone is a group, when no names with a type are ahead
* `KeywordAhead.reads_shared`: names in front of a keyword share the type that follows it
* `KeywordAhead.reads_separate`: they are types of their own, when no type follows it
-/

namespace GoOutline

open GoOutline.Syntax GoOutline.Text

namespace Syntax

open Rule

/-! ## Types -/

/-- The tree stands for the type, and has neither faults nor functions. -/
structure Node.StandsFor (t : Node) (e : TypeExpr) : Prop where
  isComment : t.isComment = false
  ofNode_eq : TypeExpr.ofNode t = e
  quiet : t.Quiet

theorem standsFor_tree (e : TypeExpr) : e.tree.StandsFor e :=
  ⟨e.isComment_tree, e.ofNode_tree, e.quiet_tree⟩

/-- The tree of an array. -/
def arrayTree (length : Node) (e : TypeExpr) : Node :=
  .around .arrayType
    [.mark "[", length.withRole .length, .mark "]", e.tree.withRole .element]

/-- The length of an array is dropped. -/
theorem standsFor_arrayTree {n : Node} (h : n.IsValue) (e : TypeExpr) :
    (arrayTree n e).StandsFor (.slice e) := by
  refine ⟨rfl, ?_, ?_⟩
  · change TypeExpr.slice (TypeExpr.ofRole .element [.mark "[", n.withRole .length, .mark "]",
      e.tree.withRole .element]) = _
    rw [TypeExpr.ofRole_mark, TypeExpr.ofRole_withRole_ne (by decide), TypeExpr.ofRole_mark,
      TypeExpr.ofRole_withRole, e.ofNode_tree]
  · refine Node.quiet_around (by decide) ?_
    simp [Node.quiet_mark, h.quiet.withRole, e.quiet_tree.withRole]

section

variable {g : Grammar} {line : Bool} {text rest : List Char} {key value : TypeExpr}

/-- A bracket, an expression, a bracket and a type are an array. -/
theorem reads_array (hkey : key.Writable) (hvalue : value.Writable) (hk : g.ReadsOperand key)
    (hv : g.ReadsType value) (hrest : EndsType line rest)
    (hlead : Leads false text
      ("[".toList ++ (key.render.toList ++ ("]".toList ++ (value.render.toList ++ rest))))) :
    (ruleOf g (.type line)).ReadsOne text rest fun t => ∃ n, n.IsValue ∧ t = arrayTree n value := by
  refine (looks_upcoming false).bind hlead ?_
  refine .bind (reads_symbol hlead) fun opening hopening => ?_
  refine (looks_nextIs false ']').bind hkey.leads ?_
  rw [hkey.head?_ne (by decide) (by decide), if_neg Bool.false_ne_true]
  refine .bind ((hk hkey.leads).inRole fun n hn => hn.isComment) ?_
  rintro length ⟨n, hlength, hn⟩
  refine .bind (reads_symbol (leads_token (by decide))) fun close hclose => ?_
  refine .bind (reads_inRole_one (hv hvalue.leads hrest) value.isComment_tree)
    fun element helement => .pure ⟨arrayTree n value, ?_, n, hn, rfl⟩
  refine Node.unplacedAll_enclose (.mark "[") ?_ rfl
  simp only [Node.unplacedAll_append, hopening, hlength, hclose, helement]
  rfl

/-- What is no expression is not the length of an array. -/
theorem stops_array (hkey : key.Writable) (hk : g.StopsOperand key)
    (hlead : Leads false text
      ("[".toList ++ (key.render.toList ++ ("]".toList ++ (value.render.toList ++ rest))))) :
    (ruleOf g (.type line)).Stops text := by
  refine (looks_upcoming false).bind_stops hlead ?_
  refine Reads.bind_stops (reads_symbol hlead) fun opening _ => ?_
  refine (looks_nextIs false ']').bind_stops hkey.leads ?_
  rw [hkey.head?_ne (by decide) (by decide), if_neg Bool.false_ne_true]
  exact Stops.bind (Stops.map (hk hkey.leads))

end

/-! ## Weights -/

namespace Node

mutual

/-- Weights do not depend on places. -/
theorem weight_unplaced (parent : Kind) (embedding : Bool) :
    ∀ n : Node, n.unplaced.weight parent embedding = n.weight parent embedding
  | .mk head children => by
    have hembedding : isEmbedding head.kind (unplacedAll children) =
        isEmbedding head.kind children := by
      rw [isEmbedding, isEmbedding, unplacedAll_eq_map, List.any_map]
      simp [Function.comp_def]
    rw [unplaced, weight, weight, hembedding, weightAll_unplacedAll _ _ children]
    rfl

theorem weightAll_unplacedAll (parent : Kind) (embedding : Bool) :
    ∀ ns : List Node, weightAll parent embedding (unplacedAll ns) = weightAll parent embedding ns
  | [] => by rw [unplacedAll]
  | n :: rest => by
    rw [unplacedAll, weightAll, weightAll, weight_unplaced parent embedding n,
      weightAll_unplacedAll parent embedding rest]

end

theorem weightAll_append (parent : Kind) (embedding : Bool) (ns ms : List Node) :
    weightAll parent embedding (ns ++ ms) =
      weightAll parent embedding ns + weightAll parent embedding ms := by
  induction ns with
  | nil => simp [weightAll]
  | cons n rest ih => rw [List.cons_append, weightAll, weightAll, ih, Int.add_assoc]

/-- Only to plain names for types does it matter in which role they stand. -/
theorem weight_withRole {n : Node} (h : n.kind ≠ .typeIdentifier) (r : Role) (parent : Kind)
    (embedding : Bool) :
    (n.withRole r).weight parent embedding = n.weight parent embedding := by
  obtain ⟨head, children⟩ := n
  have hown : ownWeight parent embedding { head with role := some r } =
      ownWeight parent embedding head := by
    unfold ownWeight
    dsimp only
    split
    · next hkind => exact absurd hkind h
    all_goals rfl
  rw [withRole, weight, weight, hown]

end Node

end Syntax

namespace TypeExpr

/-- The weight of a type wherever it stands. -/
def weight (e : TypeExpr) : Int := e.tree.weight .sourceFile false

section

variable {parent : Kind}

theorem weight_tree (h : parent ≠ .qualifiedType) (e : TypeExpr) :
    e.tree.weight parent false = e.weight := by
  cases e with
  | named name =>
    have hstands : Node.standsForType parent false none := by simpa [Node.standsForType] using h
    change (if Node.standsForType parent false none then -1 else 0) + (0 : Int) = -1
    rw [hstands]
    rfl
  | _ => rfl

theorem weight_tree_withRole {r : Role} (hr : r ≠ .name)
    (h : parent ∉ [.qualifiedType, .genericType, .compositeLiteral]) (e : TypeExpr) :
    (e.tree.withRole r).weight parent false = e.weight := by
  simp only [List.mem_cons, List.not_mem_nil, or_false, not_or] at h
  cases e with
  | named name =>
    have hstands : Node.standsForType parent false (some r) := by
      simp [Node.standsForType, hr, h]
    change (if Node.standsForType parent false (some r) then -1 else 0) + (0 : Int) = -1
    rw [hstands]
    rfl
  | _ => rfl

theorem weight_chan (e : TypeExpr) : (chan e).weight = e.weight := by
  change 0 + (0 + ((e.tree.withRole .value).weight .channelType false + 0)) = _
  rw [weight_tree_withRole (by decide) (by decide)]
  omega

theorem weight_map (key value : TypeExpr) : (map key value).weight = key.weight + value.weight := by
  change 0 + (0 + (0 + ((key.tree.withRole .key).weight .mapType false +
    (0 + ((value.tree.withRole .value).weight .mapType false + 0))))) = _
  rw [weight_tree_withRole (by decide) (by decide), weight_tree_withRole (by decide) (by decide)]
  omega

/-- No type adds weight. -/
theorem weight_nonpos (e : TypeExpr) : e.weight ≤ 0 := by
  induction e with
  | pointer e ih =>
    change 0 + (0 + (e.tree.weight .pointerType false + 0)) ≤ (0 : Int)
    rw [weight_tree (by decide)]
    omega
  | slice e ih =>
    change 0 + (0 + (0 + ((e.tree.withRole .element).weight .sliceType false + 0))) ≤ (0 : Int)
    rw [weight_tree_withRole (by decide) (by decide)]
    omega
  | map key value ihk ihv =>
    rw [weight_map]
    omega
  | chan e ih => rwa [weight_chan]
  | named => exact (by decide : (-1 : Int) ≤ 0)
  | qualified => exact Int.le_refl 0
  | interface => exact Int.le_refl 0
  | func => exact Int.le_refl 0
  | unknown => exact Int.le_refl 0

end

end TypeExpr

namespace Syntax

open Rule

/-! ## Trees of groups -/

/-- The tree of a group: names, perhaps none, and their type. -/
def groupTree (names : List String) (type : Node) : Node :=
  .around .parameterDeclaration (nameTrees names ++ [type.withRole .type])

/-- Types on their own, each with a comma after it. -/
def bareTrees (names : List String) : List Node :=
  names.flatMap fun name => [groupTree [] (TypeExpr.named name).tree, .mark ","]

theorem weight_groupTree (names : List String) (type : Node) :
    (groupTree names type).weight .parameterList false =
      (type.withRole .type).weight .parameterDeclaration false := by
  have hnames : Node.weightAll .parameterDeclaration false (nameTrees names) = 0 := by
    refine Node.weightAll_eq_zero (fun n hn parent embedding => ?_) _ _
    rcases mem_nameTrees hn with rfl | ⟨name, -, rfl⟩
    · rfl
    · rfl
  change 0 + Node.weightAll .parameterDeclaration false
    (nameTrees names ++ [type.withRole .type]) = _
  rw [Node.weightAll_append, hnames]
  change 0 + (0 + ((type.withRole .type).weight .parameterDeclaration false + 0)) = _
  omega

theorem weight_groupTree_tree (names : List String) (e : TypeExpr) :
    (groupTree names e.tree).weight .parameterList false = e.weight := by
  rw [weight_groupTree, TypeExpr.weight_tree_withRole (by decide) (by decide)]

/-- Names take weight away where they stand for types. -/
theorem weightAll_bareTrees_nonpos (names : List String) :
    Node.weightAll .parameterList false (bareTrees names) ≤ 0 := by
  induction names with
  | nil => decide
  | cons name names ih =>
    have hname := weight_groupTree_tree [] (.named name)
    have hnonpos := TypeExpr.weight_nonpos (.named name)
    change (groupTree [] (TypeExpr.named name).tree).weight .parameterList false +
      (0 + Node.weightAll .parameterList false (bareTrees names)) ≤ 0
    omega

theorem weight_arrayTree {n : Node} (h : n.IsValue) (e : TypeExpr) :
    ((arrayTree n e).withRole .type).weight .parameterDeclaration false = e.weight := by
  change 0 + (0 + ((n.withRole .length).weight .arrayType false +
    (0 + ((e.tree.withRole .element).weight .arrayType false + 0)))) = _
  rw [TypeExpr.weight_tree_withRole (by decide) (by decide),
    Node.weight_withRole h.ne_typeIdentifier, h.weight]
  omega

/-! ## Groups -/

section

variable {g : Grammar} {text mid rest : List Char} {names ts : List String} {e : TypeExpr}
  {q : Node → Prop}

theorem reads_groupEnds (h : EndsItem rest) : groupEnds.Reads rest rest fun _ => True := by
  have hlead := h.leads
  refine (looks_nextIs false ',').bind hlead ((looks_nextIs false ')').bind hlead ?_)
  obtain ⟨c, more, rfl, hc⟩ := h
  have hends : ((c :: more).head? == some ',' || (c :: more).head? == some ')') = true := by
    simpa using hc
  rw [hends, if_pos rfl]
  exact .pure trivial

/-- Names and the type that they share. -/
theorem reads_sharedType (hnames : names ≠ []) (h : leadingNames.ReadsAs text mid (nameTrees names))
    (htype : (g (.type false)).ReadsOne mid rest q) (hq : ∀ t, q t → t.isComment = false)
    (hrest : EndsItem rest) :
    (sharedType g).ReadsOne text rest fun n => ∃ t, q t ∧ n = groupTree names t := by
  -- the tree starts where its first name does, and comments in front of it stay outside
  obtain ⟨first, more, hfirst, hcomment⟩ : ∃ first more, nameTrees names = first :: more ∧
      first.isComment = false := by
    cases names with
    | nil => exact absurd rfl hnames
    | cons name names =>
      cases names with
      | nil => exact ⟨_, _, rfl, rfl⟩
      | cons m ms => exact ⟨_, _, rfl, rfl⟩
  have hparts : Reads (do
      let names ← leadingNames
      let type ← inRole .type (g (.type false))
      groupEnds
      return names ++ type) text rest fun ns =>
        ∃ t, q t ∧ Node.unplacedAll ns = first :: (more ++ [t.withRole .type]) := by
    refine .bind h fun ns hns => .bind (htype.inRole hq) ?_
    rintro ms ⟨t, hms, ht⟩
    refine .bind (reads_groupEnds hrest) fun _ _ => .pure ⟨t, ht, ?_⟩
    rw [Node.unplacedAll_append, hns, hms, hfirst]
    rfl
  refine .map hparts ?_
  rintro ns ⟨t, ht, hns⟩
  refine ⟨groupTree names t, ?_, t, ht, rfl⟩
  rw [Node.unplacedAll_enclose first hns hcomment, groupTree, hfirst]
  rfl

theorem stops_sharedType {ns : List Node} (h : leadingNames.ReadsAs text mid ns)
    (htype : (g (.type false)).Stops mid) : (sharedType g).Stops text :=
  Stops.map (Reads.bind_stops h fun _ _ => Stops.bind (Stops.map htype))

theorem reads_bareType (h : (g (.type false)).ReadsAs text rest [e.tree]) :
    (bareType g).ReadsAs text rest [groupTree [] e.tree] :=
  reads_enclosed (reads_inRole_one h e.isComment_tree)
    (by rw [Node.isComment_withRole, e.isComment_tree])

/-- The last of some types starts with a keyword. -/
theorem reads_bareTypes_last {token : List Char} {rounds : Nat} (hlead : Leads false text token)
    (hword : String.ofList (Lexeme.word token) ∈ typeKeywords)
    (h : (g (.type false)).ReadsAs text rest [e.tree]) (hrest : EndsItem rest) :
    (bareTypes g (rounds + 1)).ReadsAs text rest [groupTree [] e.tree] := by
  refine (looks_nextWord false).bind hlead ?_
  refine .bind (reads_bareType h) fun first hfirst => ?_
  rw [if_pos hword]
  exact .bind (reads_groupEnds hrest) fun _ _ => .pure hfirst

/-- Names in front of the last of some types are types of their own. -/
theorem reads_bareTypes_run {ns : List Node} {after : List Char} {rounds : Nat}
    (hnames : ∀ name ∈ names, IsIdentifier name) (hg : ∀ name ∈ names, g.ReadsType (.named name))
    (hts : ts ≠ []) (ht : Leads false (itemsText ts rest) (itemsText ts rest))
    (h : ∀ {text}, Leads false text (itemsText ts rest) →
      (bareTypes g rounds).ReadsAs text after ns)
    (hlead : Leads false text (itemsText (names ++ ts) rest)) :
    (bareTypes g (rounds + names.length)).ReadsAs text after (bareTrees names ++ ns) := by
  induction names generalizing text with
  | nil => exact h hlead
  | cons name names ih =>
    obtain ⟨hname, hnames⟩ := List.forall_mem_cons.1 hnames
    obtain ⟨hread, hg⟩ := List.forall_mem_cons.1 hg
    have hne : names ++ ts ≠ [] := List.append_ne_nil_of_right_ne_nil names hts
    have hends : Lexeme.EndsWord (',' :: ' ' :: itemsText (names ++ ts) rest) :=
      Lexeme.endsWord_cons (by decide)
    rw [List.cons_append, itemsText_cons hne] at hlead
    refine (looks_nextWord false).bind hlead ?_
    refine .bind (reads_bareType (hread hlead (endsType_cons (by decide)))) fun first hfirst => ?_
    rw [hname.isWord.word_append hends, String.ofList_toList, if_neg hname.not_typeKeyword]
    have hcomma : Leads false (',' :: ' ' :: itemsText (names ++ ts) rest)
        (",".toList ++ (' ' :: itemsText (names ++ ts) rest)) := leads_token (by decide)
    refine .bind (reads_symbol hcomma) fun comma hcomma => ?_
    refine .bind (ih hnames hg (leads_itemsText hnames ht).space) fun more hmore => .pure ?_
    rw [Node.unplacedAll_append, Node.unplacedAll_append, hfirst, hcomma, hmore]
    rfl

/-! ### One group -/

theorem any_nameTrees {ns : List Node} (h : Node.unplacedAll ns = nameTrees names) :
    ns.any (·.text ∈ typeKeywords) = names.any (· ∈ typeKeywords) := by
  have hunplaced : ns.any (·.text ∈ typeKeywords) =
      (Node.unplacedAll ns).any (·.text ∈ typeKeywords) := by
    rw [Node.unplacedAll_eq_map, List.any_map]
    simp [Function.comp_def]
  rw [hunplaced, h]
  clear hunplaced h
  induction names with
  | nil => rfl
  | cons name names ih =>
    by_cases hnil : names = []
    · subst hnil
      rfl
    · rw [nameTrees_cons hnil, List.any_cons, List.any_cons, ih, List.any_cons]
      rfl

/-- Names that are no keywords are those of a group with a type. -/
theorem reads_namedGroup_plain {post : List Node → Prop}
    (h : leadingNames.ReadsAs text mid (nameTrees names))
    (hplain : ∀ name ∈ names, name ∉ typeKeywords)
    (hshared : (sharedType g).Reads text rest post) : (namedGroup g).Reads text rest post := by
  refine .bind h.peek fun ns hns => ?_
  have hany : names.any (· ∈ typeKeywords) = false := by simpa using hplain
  rw [any_nameTrees hns, hany, if_neg Bool.false_ne_true]
  exact hshared

/-- With a keyword among the names, the heavier of two readings counts. -/
theorem reads_namedGroup_keyword {post : List Node → Prop} {word : String}
    (h : leadingNames.ReadsAs text mid (nameTrees names)) (hmem : word ∈ names)
    (hword : word ∈ typeKeywords)
    (hheavier :
      (heavier .parameterList (sharedType g) (bounded (bareTypes g))).Reads text rest post) :
    (namedGroup g).Reads text rest post := by
  refine .bind h.peek fun ns hns => ?_
  have hany : names.any (· ∈ typeKeywords) = true :=
    List.any_eq_true.2 ⟨word, hmem, decide_eq_true hword⟩
  rw [any_nameTrees hns, hany, if_pos rfl]
  exact hheavier

theorem startsType_of_writable (he : e.Writable) : startsType (e.render.toList ++ rest) := by
  obtain ⟨c, more, hcons, hc⟩ := he.exists_cons
  rw [hcons, List.cons_append, startsType]
  rcases hc with hstart | hmark
  · rw [Lexeme.word_cons, if_pos hstart]
    rfl
  · have hhead : decide (c ∈ ['*', '[', '(', '~']) = true :=
      decide_eq_true (List.mem_append_left ['(', '~'] hmark)
    simp only [List.head?_cons, hhead, Bool.or_true]

/-- **Names and their type** are read as a group. -/
theorem reads_named (hne : names ≠ []) (hnames : ∀ name ∈ names, IsIdentifier name)
    (he : e.Writable) (h : g.ReadsType e) (hrest : EndsItem rest)
    (hlead : Leads false text (itemsText names (' ' :: (e.render.toList ++ rest)))) :
    (parameterGroup g).ReadsAs text rest [groupTree names e.tree] := by
  have hread : leadingNames.ReadsAs text (' ' :: (e.render.toList ++ rest)) (nameTrees names) := by
    obtain ⟨run, last, rfl⟩ : ∃ run last, names = run ++ [last] :=
      ⟨_, _, (List.dropLast_concat_getLast hne).symm⟩
    have hword := word_itemsText_not_mem [] hne hnames
      (Lexeme.endsWord_space : Lexeme.EndsWord (' ' :: (e.render.toList ++ rest)))
    rw [List.append_nil] at hword
    obtain ⟨hrun, hlast⟩ := List.forall_mem_append.1 hnames
    have hlast := (hlast last List.mem_cons_self).isWord
    refine reads_leadingNames_run hrun (List.cons_ne_nil _ _) (List.cons_ne_nil _ _) hword
      hlast.leads ?_ hlead
    intro rounds text hlead
    exact reads_groupNames_last hlead hlast Lexeme.endsWord_space he.leads.space
      (he.head?_ne (by decide) (by decide)) (startsType_of_writable he)
  have hshared := reads_sharedType (q := (· = e.tree)) hne hread
    ((h he.leads.space (hrest.endsType _)).readsOne rfl)
    (fun t ht => ht ▸ e.isComment_tree) hrest
  refine Reads.orElse (reads_namedGroup_plain hread ?_ (hshared.mono ?_))
  · exact fun name hname => (hnames name hname).not_typeKeyword
  · rintro ns ⟨_, hns, _, rfl, rfl⟩
    exact hns

/-! ### A type alone -/

/-- Either no word starts a type, or no dots follow the word. -/
theorem word_cases (he : e.Writable) (hrest : EndsItem rest) :
    Lexeme.word (e.render.toList ++ rest) = [] ∨ ∃ name after token : List Char,
      e.render.toList ++ rest = name ++ after ∧ Lexeme.IsWord name ∧ Lexeme.EndsWord after ∧
        Leads false after token ∧ Lexeme.startsWith "..." token = false := by
  cases he with
  | @named name hname =>
    refine .inr ⟨name.toList, rest, rest, rfl, hname.isWord, hrest.endsWord, hrest.leads, ?_⟩
    exact Lexeme.startsWith_eq_false rfl (hrest.endsType false).facts.2.2.1
  | @qualified package name hpackage hname =>
    rw [TypeExpr.toList_render_qualified]
    exact .inr ⟨package.toList, _, _, rfl, hpackage.isWord, Lexeme.endsWord_cons (by decide),
      leads_token (by decide), hname.not_dots⟩
  | pointer =>
    rw [TypeExpr.toList_render_pointer]
    exact .inl (Lexeme.word_eq_nil (by decide))
  | slice =>
    rw [TypeExpr.toList_render_slice]
    exact .inl (Lexeme.word_eq_nil (by decide))
  | map =>
    rw [TypeExpr.toList_render_map]
    exact .inr ⟨"map".toList, _, _, rfl, ⟨by decide, by decide⟩, Lexeme.endsWord_cons (by decide),
      leads_token (by decide), rfl⟩
  | interface =>
    rw [TypeExpr.toList_render_interface]
    exact .inr ⟨"interface".toList, _, _, rfl, ⟨by decide, by decide⟩,
      Lexeme.endsWord_cons (by decide), leads_token (by decide), rfl⟩
  | chan he =>
    rw [TypeExpr.toList_render_chan]
    refine .inr ⟨"chan".toList, _, _, rfl, ⟨by decide, by decide⟩, Lexeme.endsWord_cons (by decide),
      he.leads.space, ?_⟩
    exact Lexeme.startsWith_eq_false rfl (he.head?_ne (by decide) (by decide))

/-- **A type alone** is read as a group when no names with a type are ahead. -/
theorem reads_bare (hnames : leadingNames.Stops text) (he : e.Writable) (h : g.ReadsType e)
    (hrest : EndsItem rest) (hlead : Leads false text (e.render.toList ++ rest)) :
    (parameterGroup g).ReadsAs text rest [groupTree [] e.tree] := by
  refine Stops.orElse (Stops.bind hnames.peek) (Stops.orElse ?_ ?_)
  · have hdots : Lexeme.startsWith "..." (e.render.toList ++ rest) = false :=
      Lexeme.startsWith_eq_false rfl (he.head?_ne (by decide) (by decide))
    refine Stops.map ((looks_nextStarts false "...").bind_stops hlead ?_)
    rw [hdots, if_neg Bool.false_ne_true]
    rcases word_cases he hrest with hnil | ⟨name, after, token, heq, hname, hends, hafter, hnodots⟩
    · exact Stops.bind (Stops.map (stops_word hlead hnil))
    · rw [heq] at hlead
      refine Reads.bind_stops (reads_inRole (reads_word hlead hname hends)) fun first _ => ?_
      exact Stops.bind (stops_symbol hafter hnodots)
  · exact reads_bareType (h hlead (hrest.endsType _))

/-- Only `chan` and `map` are read as names in front of a type. -/
theorem stops_groupNames_type {rounds : Nat} (he : e.Writable) (hnamed : ∀ name, e ≠ .named name)
    (hchan : ∀ element, e ≠ .chan element) (hmap : ∀ key value, e ≠ .map key value)
    (hlead : Leads false text (e.render.toList ++ rest)) :
    (groupNames (rounds + 1)).Stops text := by
  cases he with
  | @named name => exact absurd rfl (hnamed name)
  | @chan element => exact absurd rfl (hchan element)
  | @map key value => exact absurd rfl (hmap key value)
  | pointer =>
    rw [TypeExpr.toList_render_pointer] at hlead
    exact stops_groupNames_nil hlead (Lexeme.word_eq_nil (by decide))
  | slice =>
    rw [TypeExpr.toList_render_slice] at hlead
    exact stops_groupNames_nil hlead (Lexeme.word_eq_nil (by decide))
  | @qualified package name hpackage =>
    rw [TypeExpr.toList_render_qualified] at hlead
    exact stops_groupNames_last hlead hpackage.isWord (Lexeme.endsWord_cons (by decide))
      (leads_token (by decide)) rfl rfl
  | interface =>
    rw [TypeExpr.toList_render_interface] at hlead
    exact stops_groupNames_last hlead ⟨by decide, by decide⟩ (Lexeme.endsWord_cons (by decide))
      (leads_token (by decide)) rfl rfl

/-- Where a type that is no plain name comes first, no names with a type are ahead. -/
theorem stops_leadingNames_type (he : e.Writable) (hnamed : ∀ name, e ≠ .named name)
    (hlead : Leads false text (e.render.toList ++ rest)) : leadingNames.Stops text := by
  cases he with
  | @named name => exact absurd rfl (hnamed name)
  | @qualified package name hpackage hname =>
    refine stops_leadingNames_names hlead ?_
      (stops_groupNames_type (.qualified hpackage hname) nofun nofun nofun hlead)
    have hends : Lexeme.EndsWord (".".toList ++ (name.toList ++ rest)) :=
      Lexeme.endsWord_cons (by decide)
    rw [TypeExpr.toList_render_qualified, hpackage.isWord.word_append hends, String.ofList_toList]
    exact hpackage.not_typeKeyword
  | pointer =>
    rw [TypeExpr.toList_render_pointer] at hlead
    exact stops_leadingNames hlead (Lexeme.word_eq_nil (by decide))
  | slice =>
    rw [TypeExpr.toList_render_slice] at hlead
    exact stops_leadingNames hlead (Lexeme.word_eq_nil (by decide))
  | map =>
    rw [TypeExpr.toList_render_map] at hlead
    exact stops_leadingNames_keyword (by decide) (Lexeme.endsWord_cons (by decide)) hlead
  | interface =>
    rw [TypeExpr.toList_render_interface] at hlead
    exact stops_leadingNames_keyword (by decide) (Lexeme.endsWord_cons (by decide)) hlead
  | chan =>
    rw [TypeExpr.toList_render_chan] at hlead
    exact stops_leadingNames_keyword (by decide) (Lexeme.endsWord_cons (by decide)) hlead

/-- Names that end a list have no type. -/
theorem stops_leadingNames_end (hne : names ≠ []) (hnames : ∀ name ∈ names, IsIdentifier name)
    (hlead : Leads false text (itemsText names (')' :: rest))) : leadingNames.Stops text := by
  have hends : Lexeme.EndsWord (')' :: rest) := Lexeme.endsWord_cons (by decide)
  have hword := word_itemsText_not_mem [] hne hnames hends
  rw [List.append_nil] at hword
  obtain ⟨run, last, rfl⟩ : ∃ run last, names = run ++ [last] :=
    ⟨_, _, (List.dropLast_concat_getLast hne).symm⟩
  obtain ⟨hrun, hlast⟩ := List.forall_mem_append.1 hnames
  have hlast := (hlast last List.mem_cons_self).isWord
  refine stops_leadingNames_run hrun (List.cons_ne_nil _ _) hword hlast.leads ?_ hlead
  intro rounds text hlead
  exact stops_groupNames_last hlead hlast hends (leads_token (by decide)) rfl rfl

/-- Names in front of a type that no name starts have no type. -/
theorem stops_leadingNames_run_type (hne : names ≠ []) (hnames : ∀ name ∈ names, IsIdentifier name)
    (he : e.Writable) (hnamed : ∀ name, e ≠ .named name) (hchan : ∀ element, e ≠ .chan element)
    (hmap : ∀ key value, e ≠ .map key value) (hrest : EndsItem rest)
    (hlead : Leads false text (itemsText (names ++ e.render :: ts) rest)) :
    leadingNames.Stops text := by
  have hword := word_itemsText_not_mem (e.render :: ts) hne hnames hrest.endsWord
  refine stops_leadingNames_run hnames (List.cons_ne_nil _ _) hword he.leads ?_ hlead
  intro rounds text hlead
  exact stops_groupNames_type he hnamed hchan hmap hlead

/-! ### Names in front of a keyword -/

/-- The text starts with a keyword, and what follows the keyword may be a type. -/
structure KeywordAhead (word : String) (after text : List Char) : Prop where
  mem : word ∈ typeKeywords
  eq : text = word.toList ++ after
  ends : Lexeme.EndsWord after
  starts : ∃ token, Leads false after token ∧ (token.head? == some ',') = false ∧ startsType token

theorem keywordAhead_chan (he : e.Writable) :
    KeywordAhead "chan" (' ' :: (e.render.toList ++ rest))
      ((TypeExpr.chan e).render.toList ++ rest) where
  mem := by decide
  eq := TypeExpr.toList_render_chan e
  ends := Lexeme.endsWord_cons (by decide)
  starts := ⟨_, he.leads.space, he.head?_ne (by decide) (by decide), startsType_of_writable he⟩

theorem keywordAhead_map (key value : TypeExpr) :
    KeywordAhead "map"
      ("[".toList ++ (key.render.toList ++ ("]".toList ++ (value.render.toList ++ rest))))
      ((TypeExpr.map key value).render.toList ++ rest) where
  mem := by decide
  eq := TypeExpr.toList_render_map key value
  ends := Lexeme.endsWord_cons (by decide)
  starts := ⟨_, leads_token (by decide), rfl, rfl⟩

section

variable {word : String} {after : List Char}

/-- The keyword is read ahead as one more name. -/
theorem KeywordAhead.reads_leadingNames
    (h : KeywordAhead word after (e.render.toList ++ afterItems ts rest)) (hne : names ≠ [])
    (hnames : ∀ name ∈ names, IsIdentifier name) (he : e.Writable) (hrest : EndsItem rest)
    (hlead : Leads false text (itemsText (names ++ e.render :: ts) rest)) :
    leadingNames.ReadsAs text after (nameTrees (names ++ [word])) := by
  obtain ⟨token, htoken, hcomma, hstarts⟩ := h.starts
  have hword := word_itemsText_not_mem (e.render :: ts) hne hnames hrest.endsWord
  refine reads_leadingNames_run hnames (List.cons_ne_nil _ _) (List.cons_ne_nil _ _) hword
    he.leads ?_ hlead
  intro rounds text hlead
  rw [itemsText, h.eq] at hlead
  exact reads_groupNames_last hlead (isWord_typeKeyword h.mem) h.ends htoken hcomma hstarts

/-- The names are types of their own, and so is what the keyword starts. -/
theorem KeywordAhead.reads_bareTypes
    (h : KeywordAhead word after (e.render.toList ++ afterItems ts rest))
    (hnames : ∀ name ∈ names, IsIdentifier name) (hg : ∀ name ∈ names, g.ReadsType (.named name))
    (he : e.Writable) (htype : g.ReadsType e) (hrest : EndsItem rest)
    (hlead : Leads false text (itemsText (names ++ e.render :: ts) rest)) :
    (bounded (bareTypes g)).ReadsAs text (afterItems ts rest)
      (bareTrees names ++ [groupTree [] e.tree]) := by
  obtain ⟨rounds, hrounds⟩ := exists_rounds (List.cons_ne_nil e.render ts) hlead
  refine .bounded ?_
  rw [hrounds]
  refine reads_bareTypes_run hnames hg (List.cons_ne_nil _ _) he.leads ?_ hlead
  intro text hlead
  have hends := endsItem_afterItems ts hrest
  refine reads_bareTypes_last hlead ?_ (htype hlead (hends.endsType _)) hends
  rw [itemsText, h.eq]
  exact word_typeKeyword h.mem h.ends

/-- **Names in front of a keyword** share the type that follows it, and the keyword is a name too,
when that reading is no lighter than the one as types. -/
theorem KeywordAhead.reads_shared
    (h : KeywordAhead word after (e.render.toList ++ afterItems ts rest)) (hne : names ≠ [])
    (hnames : ∀ name ∈ names, IsIdentifier name) (hg : ∀ name ∈ names, g.ReadsType (.named name))
    (he : e.Writable) (htype : g.ReadsType e) (hrest : EndsItem rest)
    (hshared : (g (.type false)).ReadsOne after (afterItems ts rest) q)
    (hcomment : ∀ t, q t → t.isComment = false)
    (hweight : ∀ t, q t → e.weight ≤ (t.withRole .type).weight .parameterDeclaration false)
    (hlead : Leads false text (itemsText (names ++ e.render :: ts) rest)) :
    (parameterGroup g).ReadsOne text (afterItems ts rest) fun n =>
      ∃ t, q t ∧ n = groupTree (names ++ [word]) t := by
  have hread := h.reads_leadingNames hne hnames he hrest hlead
  have hends := endsItem_afterItems ts hrest
  refine Reads.orElse (reads_namedGroup_keyword hread (List.mem_append_right _ List.mem_cons_self)
    h.mem (Reads.heavier_first
      (reads_sharedType (List.append_ne_nil_of_right_ne_nil _ (List.cons_ne_nil _ _)) hread hshared
        hcomment hends)
      (h.reads_bareTypes hnames hg he htype hrest hlead) ?_))
  -- as types of their own, the names take weight away, and what follows them adds none
  rintro ns ms ⟨_, hns, t, ht, rfl⟩ hms
  have hbare := weightAll_bareTrees_nonpos names
  have hkeyword := hweight t ht
  rw [← Node.weightAll_unplacedAll _ _ ms, ← Node.weightAll_unplacedAll _ _ ns, hns, hms,
    Node.weightAll_append, Node.weightAll, Node.weightAll, Node.weightAll, Node.weightAll,
    weight_groupTree_tree, weight_groupTree]
  omega

/-- **Names in front of a keyword** are types of their own when what follows the keyword is no
type. -/
theorem KeywordAhead.reads_separate
    (h : KeywordAhead word after (e.render.toList ++ afterItems ts rest)) (hne : names ≠ [])
    (hnames : ∀ name ∈ names, IsIdentifier name) (hg : ∀ name ∈ names, g.ReadsType (.named name))
    (he : e.Writable) (htype : g.ReadsType e) (hrest : EndsItem rest)
    (hstops : (g (.type false)).Stops after)
    (hlead : Leads false text (itemsText (names ++ e.render :: ts) rest)) :
    (parameterGroup g).ReadsAs text (afterItems ts rest)
      (bareTrees names ++ [groupTree [] e.tree]) := by
  have hread := h.reads_leadingNames hne hnames he hrest hlead
  refine Reads.orElse (reads_namedGroup_keyword hread (List.mem_append_right _ List.mem_cons_self)
    h.mem (Stops.heavier_right (stops_sharedType hread hstops) ?_))
  exact h.reads_bareTypes hnames hg he htype hrest hlead

end

end

end Syntax

end GoOutline
