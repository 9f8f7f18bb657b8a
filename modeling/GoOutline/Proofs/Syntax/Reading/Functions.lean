import GoOutline.Proofs.Syntax.Reading.File
import GoOutline.Proofs.Syntax.Reading.Parameters

/-!
# Reading functions

A function of two parameter lists, the second for its results, and an empty body.

## Main definitions

* `functionText`: the text of a function
* `functionTree`: its tree

## Main results

* `reads_functionDeclaration`: the text is read as a function with two lists
* `reads_function`: so it is at the top level of a file
-/

namespace GoOutline

open GoOutline.Syntax GoOutline.Text

namespace Syntax

open Rule ParameterGroup

/-- The text of a function from its name on: its parameters and its results in parentheses, and an
empty body. -/
def signatureText (parameters results : List ParameterGroup) (rest : List Char) : List Char :=
  '(' :: itemsText (parameters.map ParameterGroup.text)
    (')' :: ' ' :: '(' :: itemsText (results.map ParameterGroup.text)
      (')' :: ' ' :: ("\x7b".toList ++ ("\x7d".toList ++ rest))))

/-- The text of a function, in front of a text. -/
def functionText (name : String) (parameters results : List ParameterGroup) (rest : List Char) :
    List Char :=
  "func".toList ++ (' ' :: (name.toList ++ signatureText parameters results rest))

/-- The tree of a function with two lists and an empty body. -/
def functionTree (name : String) (parameters results : Node) : Node :=
  .around .functionDeclaration
    [.mark "func", nameTree name, parameters.withRole .parameters, results.withRole .result,
      (Node.around .block [.mark "\x7b", .mark "\x7d"]).withRole .body]

/-- The node is a function of the name, with lists of the groups. -/
def Node.IsFunction (n : Node) (name : String) (parameters results : List ParameterGroup) : Prop :=
  ∃ list list', n = functionTree name list list' ∧ list.Lists parameters ∧ list'.Lists results

namespace Node.IsFunction

variable {n : Node} {name : String} {parameters results : List ParameterGroup}

theorem kind_eq (h : n.IsFunction name parameters results) : n.kind = .functionDeclaration := by
  obtain ⟨list, list', rfl, -, -⟩ := h
  rfl

/-- No functions are in a function. -/
theorem quiet_children (h : n.IsFunction name parameters results) : ∀ c ∈ n.children, c.Quiet := by
  obtain ⟨list, list', rfl, hlist, hlist'⟩ := h
  have hname : (nameTree name).Quiet := (quiet_leaf _ (by decide)).withRole
  have hbody : (around .block [mark "\x7b", mark "\x7d"]).Quiet :=
    quiet_around (by decide) (by simp [quiet_mark])
  have hchildren : (functionTree name list list').children =
      [mark "func", nameTree name, list.withRole .parameters, list'.withRole .result,
        (around .block [mark "\x7b", mark "\x7d"]).withRole .body] := rfl
  rw [hchildren]
  simp [quiet_mark, hname, hlist.quiet.withRole, hlist'.quiet.withRole, hbody.withRole]

theorem sound (h : n.IsFunction name parameters results) : n.Sound := by
  have hchildren := allSound_of_forall fun c hc => (h.quiet_children c hc).sound
  obtain ⟨list, list', rfl, -, -⟩ := h
  exact sound_around (by decide) hchildren

end Node.IsFunction

section

variable {text rest : List Char} {depth : Nat} {name : String}
  {parameters results : List ParameterGroup}

/-- Braces with nothing between them are a block. -/
theorem reads_block {g : Grammar}
    (hlead : Leads false text ("\x7b".toList ++ ("\x7d".toList ++ rest))) :
    (blockRule g).ReadsAs text rest [.around .block [.mark "\x7b", .mark "\x7d"]] := by
  have hclose : Leads false ("\x7d".toList ++ rest) ("\x7d".toList ++ rest) :=
    leads_token (by decide)
  have hstatements : (bounded (statementList g .body)).ReadsAs ("\x7d".toList ++ rest)
      ("\x7d".toList ++ rest) [] := by
    refine .bounded (.bind (q := (· = true)) ((looks_upcoming false).bind hclose (.pure rfl)) ?_)
    rintro _ rfl
    exact reads_nil
  refine reads_enclosed ?_ rfl
  refine .bind (reads_symbol hlead) fun opening hopening => ?_
  refine .bind hstatements fun statements hstatements => ?_
  refine .bind (reads_symbol hclose) fun close hclosed => .pure ?_
  rw [Node.unplacedAll_append, Node.unplacedAll_append, hopening, hstatements, hclosed]
  rfl

/-- The lists of a function and its body. -/
theorem reads_functionTail (hparameters : IsList parameters) (hresults : IsList results)
    (hheight : ∀ group ∈ parameters ++ results, group.type.height ≤ depth) :
    (functionTail (grammar (depth + 1))).Reads (signatureText parameters results rest) rest
      fun ns => ∃ list list' : Node,
        Node.unplacedAll ns = [list.withRole .parameters, list'.withRole .result,
          (Node.around .block [.mark "\x7b", .mark "\x7d"]).withRole .body] ∧
        list.Lists (asRead parameters) ∧ list'.Lists (asRead results) := by
  obtain ⟨hleft, hright⟩ := List.forall_mem_append.1 hheight
  refine .bind ((reads_parameterList hparameters hleft (leads_token (by decide))).inRole
    fun n hn => hn.isComment) ?_
  rintro ps ⟨list, hps, hlist⟩
  have hresult : ∀ {line text}, Leads line ('(' :: text) ('(' :: text) :=
    fun {line text} => leads_token (by cases line <;> decide)
  have hread : (resultRule (grammar (depth + 1)) true).Reads
      (' ' :: '(' :: itemsText (results.map ParameterGroup.text)
        (')' :: ' ' :: ("\x7b".toList ++ ("\x7d".toList ++ rest))))
      (' ' :: ("\x7b".toList ++ ("\x7d".toList ++ rest))) fun ns =>
        ∃ list' : Node, Node.unplacedAll ns = [list'.withRole .result] ∧
          list'.Lists (asRead results) := by
    refine (looks_upcoming true).bind hresult.space ?_
    exact (reads_parameterList hresults hright hresult.space).inRole fun n hn => hn.isComment
  refine .bind hread ?_
  rintro rs ⟨list', hrs, hlist'⟩
  have hbrace : ∀ {line}, Leads line ("\x7b".toList ++ ("\x7d".toList ++ rest))
      ("\x7b".toList ++ ("\x7d".toList ++ rest)) :=
    fun {line} => leads_token (by cases line <;> decide)
  refine (looks_nextIs true '{').bind hbrace.space ?_
  refine .bind (reads_inRole_one (reads_block hbrace.space) rfl) fun body hbody => .pure ?_
  refine ⟨list, list', ?_, hlist, hlist'⟩
  rw [Node.unplacedAll_append, Node.unplacedAll_append, hps, hrs, hbody]
  rfl

theorem isWord_func : Lexeme.IsWord "func".toList := ⟨by decide, by decide⟩

/-- **A function declaration** has the groups that its lists are read as. -/
theorem reads_functionDeclaration (hname : IsIdentifier name) (hparameters : IsList parameters)
    (hresults : IsList results)
    (hheight : ∀ group ∈ parameters ++ results, group.type.height ≤ depth)
    (hlead : Leads false text (functionText name parameters results rest)) :
    (functionDeclaration (grammar (depth + 1))).ReadsOne text rest
      (·.IsFunction name (asRead parameters) (asRead results)) := by
  have hends : Lexeme.EndsWord (signatureText parameters results rest) :=
    Lexeme.endsWord_cons (by decide)
  refine Reads.map (q := fun ns => ∃ list list' : Node, list.Lists (asRead parameters) ∧
    list'.Lists (asRead results) ∧
    Node.unplacedAll ns = (functionTree name list list').children) ?_ ?_
  · refine .bind (reads_keyword hlead isWord_func Lexeme.endsWord_space) fun head hhead => ?_
    refine .bind (reads_inRole_one (reads_word hname.isWord.leads.space hname.isWord hends) rfl)
      fun first hfirst => ?_
    refine (looks_nextIs false '[').bind (leads_token (by decide)) ?_
    refine .bind reads_nil fun typeParameters htypeParameters => ?_
    refine .bind (reads_functionTail hparameters hresults hheight) ?_
    rintro tail ⟨list, list', htail, hlist, hlist'⟩
    refine .pure ⟨list, list', hlist, hlist', ?_⟩
    rw [Node.unplacedAll_append, Node.unplacedAll_append, Node.unplacedAll_append, hhead, hfirst,
      htypeParameters, htail, String.ofList_toList]
    rfl
  · rintro ns ⟨list, list', hlist, hlist', hns⟩
    exact ⟨_, Node.unplacedAll_enclose _ hns rfl, list, list', rfl, hlist, hlist'⟩

/-- A function is read at the top level of a file. -/
theorem reads_function (hname : IsIdentifier name) (hparameters : IsList parameters)
    (hresults : IsList results)
    (hheight : ∀ group ∈ parameters ++ results, group.type.height ≤ depth)
    (hlead : Leads false text (functionText name parameters results rest)) :
    (topLevel (grammar (depth + 1))).ReadsOne text rest
      (·.IsFunction name (asRead parameters) (asRead results)) := by
  have hends : Lexeme.EndsWord (signatureText parameters results rest) :=
    Lexeme.endsWord_cons (by decide)
  have hword : Lexeme.word (functionText name parameters results rest) = "func".toList :=
    isWord_func.word_append Lexeme.endsWord_space
  have hahead : namedFunctionAhead.Reads text text (· = true) := by
    have hlook : Reads (do
        let _ ← keyword "func"
        return !(← nextWord false).isEmpty) text
        (' ' :: (name.toList ++ signatureText parameters results rest)) (· = true) := by
      refine .bind (reads_keyword hlead isWord_func Lexeme.endsWord_space) fun _ _ => ?_
      refine (looks_nextWord false).bind hname.isWord.leads.space (.pure ?_)
      have hne : name ≠ "" := fun hnil => hname.isWord.1 (congrArg String.toList hnil)
      rw [hname.isWord.word_append hends, String.ofList_toList, String.isEmpty_eq_false_iff.2 hne]
      rfl
    intro p
    obtain ⟨b, q, hb, rfl⟩ := hlook p
    refine ⟨true, p, ?_, rfl⟩
    rw [namedFunctionAhead]
    simp only [hb]
  refine (looks_nextWord false).bind hlead ?_
  simp only [hword, String.ofList_toList]
  refine .bind hahead ?_
  rintro _ rfl
  exact reads_functionDeclaration hname hparameters hresults hheight hlead

end

end Syntax

end GoOutline
