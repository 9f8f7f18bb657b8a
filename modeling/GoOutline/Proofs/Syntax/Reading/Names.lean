import GoOutline.Proofs.Syntax.Reading.Types

/-!
# Reading names in front of a type

A group of parameters may start with names that share a type. Whether a name starts such a group or
is a type by itself is known only at the first item that is no name, and so the names are read
ahead.

## Main definitions

* `itemsText`: items with commas between them, in front of a text
* `EndsItem`: what may follow an item
* `nameTrees`: the trees of names

## Main results

* `reads_leadingNames_run`, `stops_leadingNames_run`: names are read ahead when what follows them is
-/

namespace GoOutline

open GoOutline.Syntax GoOutline.Text

namespace Syntax

open Rule

/-! ## Items and commas -/

/-- What follows an item: a comma and an item, for each of the items left, and then the rest. -/
def afterItems : List String → List Char → List Char
  | [], rest => rest
  | s :: ss, rest => ',' :: ' ' :: (s.toList ++ afterItems ss rest)

/-- Items with commas between them, in front of a text. -/
def itemsText : List String → List Char → List Char
  | [], rest => rest
  | s :: ss, rest => s.toList ++ afterItems ss rest

/-- An item may end before the text: a comma or a closing parenthesis comes next. -/
def EndsItem (rest : List Char) : Prop := ∃ c more, rest = c :: more ∧ c ∈ [',', ')']

section

variable {rest text : List Char} {ss : List String}

theorem itemsText_cons (h : ss ≠ []) (s : String) :
    itemsText (s :: ss) rest = s.toList ++ (',' :: ' ' :: itemsText ss rest) := by
  cases ss with
  | nil => exact absurd rfl h
  | cons t ss => rfl

/-- Each item takes two characters at least. -/
theorem length_afterItems (ss : List String) (rest : List Char) :
    2 * ss.length + rest.length ≤ (afterItems ss rest).length := by
  induction ss with
  | nil => simp [afterItems]
  | cons s ss ih =>
    simp only [afterItems, List.length_cons, List.length_append]
    omega

/-- Every item but the first takes a comma. -/
theorem length_itemsText (ss : List String) (rest : List Char) :
    ss.length ≤ (itemsText ss rest).length + 1 := by
  cases ss with
  | nil => exact Nat.zero_le _
  | cons s ss =>
    have hlength := length_afterItems ss rest
    simp only [itemsText, List.length_cons, List.length_append]
    omega

theorem endsItem_parenthesis : EndsItem (')' :: rest) := ⟨')', rest, rfl, by decide⟩

/-- An item ends before the next one. -/
theorem endsItem_afterItems (ss : List String) (h : EndsItem rest) :
    EndsItem (afterItems ss rest) := by
  cases ss with
  | nil => exact h
  | cons s ss => exact ⟨',', _, rfl, by decide⟩

/-- Where an item ends, a type does. -/
theorem EndsItem.endsType (h : EndsItem rest) (line : Bool) : EndsType line rest := by
  obtain ⟨c, more, rfl, hc⟩ := h
  exact endsType_cons (List.mem_cons_of_mem _ hc)

theorem EndsItem.leads (h : EndsItem rest) : Leads false rest rest := (h.endsType false).facts.1

theorem EndsItem.endsWord (h : EndsItem rest) : Lexeme.EndsWord rest :=
  (h.endsType false).facts.2.1

end

/-! ## Names -/

/-- A name in the role of one. -/
def nameTree (name : String) : Node := (Node.leaf .identifier nowhere name).withRole .name

/-- Names with commas between them. -/
def nameTrees (names : List String) : List Node := (names.map nameTree).intersperse (.mark ",")

theorem nameTrees_cons {names : List String} (h : names ≠ []) (name : String) :
    nameTrees (name :: names) = nameTree name :: .mark "," :: nameTrees names := by
  cases names with
  | nil => exact absurd rfl h
  | cons m ms => rfl

/-- Names have commas between them. -/
theorem mem_nameTrees {names : List String} {n : Node} (h : n ∈ nameTrees names) :
    n = .mark "," ∨ ∃ name ∈ names, n = nameTree name := by
  induction names with
  | nil => cases h
  | cons name names ih =>
    by_cases hnil : names = []
    · subst hnil
      exact .inr ⟨name, List.mem_cons_self, List.mem_singleton.1 h⟩
    · rw [nameTrees_cons hnil, List.mem_cons, List.mem_cons] at h
      rcases h with rfl | rfl | h
      · exact .inr ⟨name, List.mem_cons_self, rfl⟩
      · exact .inl rfl
      · rcases ih h with rfl | ⟨m, hm, rfl⟩
        · exact .inl rfl
        · exact .inr ⟨m, List.mem_cons_of_mem name hm, rfl⟩

section

variable {text token after rest more : List Char} {name : String} {names ts : List String}
  {rounds : Nat}

/-- The last name of a group stands in front of a type. -/
theorem reads_groupNames_last (hlead : Leads false text (name.toList ++ after))
    (hname : Lexeme.IsWord name.toList) (hends : Lexeme.EndsWord after)
    (hafter : Leads false after token) (hcomma : (token.head? == some ',') = false)
    (hstarts : startsType token) :
    (groupNames (rounds + 1)).ReadsAs text after (nameTrees [name]) := by
  refine .bind (reads_inRole_one (reads_word hlead hname hends) rfl) fun first hfirst => ?_
  rw [String.ofList_toList] at hfirst
  refine (looks_nextIs false ',').bind hafter ?_
  rw [hcomma, if_neg Bool.false_ne_true]
  refine (looks_upcoming false).bind hafter ?_
  rw [id_eq, hstarts, if_pos rfl]
  exact .pure hfirst

/-- Names that share a type are not read when no type follows the last of them. -/
theorem stops_groupNames_last (hlead : Leads false text (name.toList ++ after))
    (hname : Lexeme.IsWord name.toList) (hends : Lexeme.EndsWord after)
    (hafter : Leads false after token) (hcomma : (token.head? == some ',') = false)
    (hstarts : startsType token = false) : (groupNames (rounds + 1)).Stops text := by
  refine Reads.bind_stops (reads_inRole (reads_word hlead hname hends)) fun first _ => ?_
  refine (looks_nextIs false ',').bind_stops hafter ?_
  rw [hcomma, if_neg Bool.false_ne_true]
  refine (looks_upcoming false).bind_stops hafter ?_
  rw [id_eq, hstarts, if_neg Bool.false_ne_true]
  exact stops_stuck

/-- Another name comes after a comma. -/
theorem reads_groupNames_more (hnames : names ≠ [])
    (hlead : Leads false text (name.toList ++ (',' :: ' ' :: more)))
    (hname : Lexeme.IsWord name.toList)
    (h : (groupNames rounds).ReadsAs (' ' :: more) rest (nameTrees names)) :
    (groupNames (rounds + 1)).ReadsAs text rest (nameTrees (name :: names)) := by
  have hends : Lexeme.EndsWord (',' :: ' ' :: more) := Lexeme.endsWord_cons (by decide)
  have hcomma : Leads false (',' :: ' ' :: more) (",".toList ++ (' ' :: more)) :=
    leads_token (by decide)
  refine .bind (reads_inRole_one (reads_word hlead hname hends) rfl) fun first hfirst => ?_
  refine (looks_nextIs false ',').bind hcomma ?_
  refine .bind (reads_symbol hcomma) fun comma hcomma => ?_
  refine .bind h fun others hothers => .pure ?_
  rw [Node.unplacedAll_append, Node.unplacedAll_append, hfirst, hcomma, hothers,
    String.ofList_toList, nameTrees_cons hnames]
  rfl

/-- They are not read when those behind a comma are not. -/
theorem stops_groupNames_more (hlead : Leads false text (name.toList ++ (',' :: ' ' :: more)))
    (hname : Lexeme.IsWord name.toList) (h : (groupNames rounds).Stops (' ' :: more)) :
    (groupNames (rounds + 1)).Stops text := by
  have hends : Lexeme.EndsWord (',' :: ' ' :: more) := Lexeme.endsWord_cons (by decide)
  have hcomma : Leads false (',' :: ' ' :: more) (",".toList ++ (' ' :: more)) :=
    leads_token (by decide)
  refine Reads.bind_stops (reads_inRole (reads_word hlead hname hends)) fun first _ => ?_
  refine (looks_nextIs false ',').bind_stops hcomma ?_
  exact Reads.bind_stops (reads_symbol hcomma) fun comma _ => Stops.bind h

theorem stops_groupNames_nil (hlead : Leads false text token) (hword : Lexeme.word token = []) :
    (groupNames (rounds + 1)).Stops text :=
  Stops.bind (Stops.map (stops_word hlead hword))

/-- Names in front of items lead to themselves. -/
theorem leads_itemsText {run : List String} (hrun : ∀ name ∈ run, IsIdentifier name)
    (ht : Leads false (itemsText ts rest) (itemsText ts rest)) :
    Leads false (itemsText (run ++ ts) rest) (itemsText (run ++ ts) rest) := by
  cases run with
  | nil => exact ht
  | cons name run => exact (hrun name List.mem_cons_self).isWord.leads

/-- Names are read ahead when what follows them is read as names. -/
theorem reads_groupNames_run {run : List String}
    (hrun : ∀ name ∈ run, IsIdentifier name) (hts : ts ≠ []) (hnames : names ≠ [])
    (ht : Leads false (itemsText ts rest) (itemsText ts rest))
    (h : ∀ {text}, Leads false text (itemsText ts rest) →
      (groupNames rounds).ReadsAs text after (nameTrees names))
    (hlead : Leads false text (itemsText (run ++ ts) rest)) :
    (groupNames (rounds + run.length)).ReadsAs text after (nameTrees (run ++ names)) := by
  induction run generalizing text with
  | nil => exact h hlead
  | cons name run ih =>
    obtain ⟨hname, hrun⟩ := List.forall_mem_cons.1 hrun
    have hne : run ++ ts ≠ [] := List.append_ne_nil_of_right_ne_nil run hts
    have hne' : run ++ names ≠ [] := List.append_ne_nil_of_right_ne_nil run hnames
    rw [List.cons_append, itemsText_cons hne] at hlead
    exact reads_groupNames_more hne' hlead hname.isWord (ih hrun (leads_itemsText hrun ht).space)

/-- Names are not read ahead when what follows them is not. -/
theorem stops_groupNames_run {run : List String}
    (hrun : ∀ name ∈ run, IsIdentifier name) (hts : ts ≠ [])
    (ht : Leads false (itemsText ts rest) (itemsText ts rest))
    (h : ∀ {text}, Leads false text (itemsText ts rest) → (groupNames rounds).Stops text)
    (hlead : Leads false text (itemsText (run ++ ts) rest)) :
    (groupNames (rounds + run.length)).Stops text := by
  induction run generalizing text with
  | nil => exact h hlead
  | cons name run ih =>
    obtain ⟨hname, hrun⟩ := List.forall_mem_cons.1 hrun
    have hne : run ++ ts ≠ [] := List.append_ne_nil_of_right_ne_nil run hts
    rw [List.cons_append, itemsText_cons hne] at hlead
    exact stops_groupNames_more hlead hname.isWord (ih hrun (leads_itemsText hrun ht).space)

/-- The rounds of a bounded loop suffice for a run of items. -/
theorem exists_rounds {run : List String} (hts : ts ≠ [])
    (hlead : Leads false text (itemsText (run ++ ts) rest)) :
    ∃ rounds, text.length + 1 = rounds + 1 + run.length := by
  have hlength := hlead.length_le
  have hitems := length_itemsText (run ++ ts) rest
  have hpos := List.length_pos_iff.2 hts
  rw [List.length_append] at hitems
  exact ⟨text.length - run.length, by omega⟩

/-! ### Names in front of a group -/

/-- **Names are read ahead** in front of a group when what follows them is read as names. -/
theorem reads_leadingNames_run {run : List String} (hrun : ∀ name ∈ run, IsIdentifier name)
    (hts : ts ≠ []) (hnames : names ≠ [])
    (hword : String.ofList (Lexeme.word (itemsText (run ++ ts) rest)) ∉ typeKeywords)
    (ht : Leads false (itemsText ts rest) (itemsText ts rest))
    (h : ∀ {rounds text}, Leads false text (itemsText ts rest) →
      (groupNames (rounds + 1)).ReadsAs text after (nameTrees names))
    (hlead : Leads false text (itemsText (run ++ ts) rest)) :
    leadingNames.ReadsAs text after (nameTrees (run ++ names)) := by
  refine (looks_nextWord false).bind hlead ?_
  rw [if_neg hword]
  refine .bounded ?_
  obtain ⟨rounds, hrounds⟩ := exists_rounds hts hlead
  rw [hrounds]
  exact reads_groupNames_run hrun hts hnames ht h hlead

theorem stops_leadingNames_names (hlead : Leads false text token)
    (hword : String.ofList (Lexeme.word token) ∉ typeKeywords)
    (h : (groupNames (text.length + 1)).Stops text) : leadingNames.Stops text := by
  refine (looks_nextWord false).bind_stops hlead ?_
  rw [if_neg hword]
  exact .bounded h

/-- Names in front of items are not read as names that share a type. -/
theorem stops_leadingNames_run {run : List String} (hrun : ∀ name ∈ run, IsIdentifier name)
    (hts : ts ≠ [])
    (hword : String.ofList (Lexeme.word (itemsText (run ++ ts) rest)) ∉ typeKeywords)
    (ht : Leads false (itemsText ts rest) (itemsText ts rest))
    (h : ∀ {rounds text}, Leads false text (itemsText ts rest) →
      (groupNames (rounds + 1)).Stops text)
    (hlead : Leads false text (itemsText (run ++ ts) rest)) : leadingNames.Stops text := by
  refine stops_leadingNames_names hlead hword ?_
  obtain ⟨rounds, hrounds⟩ := exists_rounds hts hlead
  rw [hrounds]
  exact stops_groupNames_run hrun hts ht h hlead

theorem isWord_typeKeyword {word : String} (h : word ∈ typeKeywords) :
    Lexeme.IsWord word.toList := by
  have hwords : ∀ word ∈ typeKeywords,
      word.toList ≠ [] ∧ Lexeme.word word.toList = word.toList := by decide
  exact hwords word h

/-- A keyword that ends is the word that comes next. -/
theorem word_typeKeyword {word : String} (h : word ∈ typeKeywords) (hends : Lexeme.EndsWord after) :
    String.ofList (Lexeme.word (word.toList ++ after)) ∈ typeKeywords := by
  rwa [(isWord_typeKeyword h).word_append hends, String.ofList_toList]

/-- The keyword of a type does not start names. -/
theorem stops_leadingNames_keyword {word : String} (hword : word ∈ typeKeywords)
    (hends : Lexeme.EndsWord after) (hlead : Leads false text (word.toList ++ after)) :
    leadingNames.Stops text := by
  refine (looks_nextWord false).bind_stops hlead ?_
  rw [if_pos (word_typeKeyword hword hends)]
  exact Stops.bind stops_stuck

theorem endsWord_afterItems (h : Lexeme.EndsWord rest) : Lexeme.EndsWord (afterItems ts rest) := by
  cases ts with
  | nil => exact h
  | cons t ts => exact Lexeme.endsWord_cons (by decide)

/-- No keyword comes first where names do. -/
theorem word_itemsText_not_mem (ts : List String) (hne : names ≠ [])
    (hnames : ∀ name ∈ names, IsIdentifier name) (hends : Lexeme.EndsWord rest) :
    String.ofList (Lexeme.word (itemsText (names ++ ts) rest)) ∉ typeKeywords := by
  cases names with
  | nil => exact absurd rfl hne
  | cons name names =>
    have hname := hnames name List.mem_cons_self
    rw [List.cons_append, itemsText, hname.isWord.word_append (endsWord_afterItems hends),
      String.ofList_toList]
    exact hname.not_typeKeyword

end

end Syntax

end GoOutline
