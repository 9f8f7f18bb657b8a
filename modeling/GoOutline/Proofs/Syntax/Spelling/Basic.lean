import GoOutline.Syntax.Grammar.Basic
import Mathlib.Data.List.TakeWhile

/-!
# Spelling of names

In every tree that the rules of the grammar build, a node of the kind of a name is a leaf over a
word, and a node in the role of a name is such a leaf, or the dot of an import. The property is
closed under the ways in which nodes are put together.

## Main definitions

* `Lexeme.IsWord`: a text that is one word
* `Kind.isName`: the kinds of names
* `Node.Every`: all nodes of a tree have a property
* `Head.Spelled`: a name is a word, and only names and dots are in the role of a name
* `Node.Spelled`, `Node.AllSpelled`: the property of a tree, and of a run of siblings

## Main results

* `Lexeme.isWord_iff`: the words are the identifiers
* `Node.AllSpelled.enclose`, `Node.AllSpelled.labelled`: nodes around parts, and roles
* `Rule.mem_take`, `Rule.mem_word`: single tokens
-/

namespace GoOutline.Syntax

open GoOutline.Text

/-! ## Words -/

namespace Lexeme

/-- The text is one word. -/
def IsWord (text : List Char) : Prop := text ≠ [] ∧ word text = text

/-- A word starts with a character that may start it. -/
theorem word_cons (c : Char) (rest : List Char) :
    word (c :: rest) =
      if Identifier.isStart c then c :: rest.takeWhile Identifier.isContinue else [] := rfl

theorem word_isPrefix (text : List Char) : word text <+: text := by
  cases text with
  | nil => exact List.prefix_rfl
  | cons c rest =>
    rw [word_cons]
    split
    · exact (List.prefix_cons_inj c).2 (List.takeWhile_prefix _)
    · exact List.nil_prefix

/-- The word at the front of a word is the word. -/
theorem word_word (text : List Char) : word (word text) = word text := by
  cases text with
  | nil => rfl
  | cons c rest =>
    rw [word_cons]
    split
    · next h => rw [word_cons, if_pos h, List.takeWhile_idem]
    · rfl

theorem isWord_word {text : List Char} (h : word text ≠ []) : IsWord (word text) :=
  ⟨h, word_word text⟩

/-- **The words are the identifiers.** -/
theorem isWord_iff {text : List Char} : IsWord text ↔ Identifier.isIdentifier text := by
  cases text with
  | nil => exact ⟨fun h => absurd rfl h.1, fun h => absurd h Bool.false_ne_true⟩
  | cons c rest =>
    rw [IsWord, word_cons, Identifier.isIdentifier, Bool.and_eq_true, List.all_eq_true,
      ← List.takeWhile_eq_self_iff]
    by_cases hc : Identifier.isStart c
    · simp [hc]
    · simp [hc]

/-- The first character of a word may start it, and the others may go on. -/
theorem IsWord.of_cons {c : Char} {rest : List Char} (h : IsWord (c :: rest)) :
    Identifier.isStart c ∧ rest.all Identifier.isContinue :=
  Bool.and_eq_true_iff.1 (isWord_iff.1 h)

/-- A word does not start with a star. -/
theorem IsWord.ne_star {text : List Char} (h : IsWord text) (rest : List Char) :
    text ≠ '*' :: rest := by
  rintro rfl
  have hstar : Identifier.isStart '*' = false := by decide
  exact absurd (hstar.symm.trans h.of_cons.1) Bool.false_ne_true

end Lexeme

/-- The kinds of names. -/
def Kind.isName : Kind → Bool
  | .identifier | .typeIdentifier | .fieldIdentifier | .packageIdentifier | .blankIdentifier
  | .labelName => true
  | _ => false

/-! ## Spelled trees -/

/-- A name is a word, and only names and dots are in the role of a name. -/
structure Head.Spelled (head : Head) : Prop where
  word : head.kind.isName → Lexeme.IsWord head.text.toList
  name : head.role = some .name → head.kind.isName ∨ head.text = "."

namespace Node

/-- All nodes of a tree have a property of what they are apart from their children. -/
inductive Every (p : Head → Prop) : Node → Prop where
  | mk {head : Head} {children : List Node} :
    p head → (∀ n ∈ children, Every p n) → Every p (.mk head children)

/-- The names of a tree are spelled as such. -/
def Spelled : Node → Prop := Every Head.Spelled

/-- The names of some trees are spelled as such. -/
def AllSpelled (ns : List Node) : Prop := ∀ n ∈ ns, n.Spelled

/-- Comments apart, the nodes may be in the role of a name. -/
def CanName (ns : List Node) : Prop := ∀ n ∈ ns, n.isComment ∨ n.kind.isName ∨ n.text = "."

section

variable {kind : Kind} {span : Span} {text : String} {n : Node} {ns ms : List Node} {r : Role}

theorem Spelled.head (h : n.Spelled) : n.head.Spelled := by
  cases h with
  | mk hhead _ => exact hhead

theorem Spelled.children (h : n.Spelled) : AllSpelled n.children := by
  cases h with
  | mk _ hchildren => exact hchildren

/-- What is found by its role is a child in that role. -/
theorem of_child? {c : Node} (h : n.child? r = some c) : c ∈ n.children ∧ c.role = some r := by
  refine ⟨List.mem_of_find?_eq_some h, ?_⟩
  exact eq_of_beq (List.find?_some (p := fun m : Node => m.role == some r) h)

theorem Spelled.child? (h : n.Spelled) {c : Node} (hc : n.child? r = some c) : c.Spelled :=
  h.children c (of_child? hc).1

theorem spelled_leaf (h : kind.isName → Lexeme.IsWord text.toList) :
    (leaf kind span text).Spelled :=
  .mk ⟨h, nofun⟩ (fun _ hn => absurd hn List.not_mem_nil)

/-- A node around spelled parts, of a kind that is not that of a name. -/
theorem spelled_mk (hk : kind.isName = false) (h : AllSpelled ns) :
    (mk ⟨kind, none, span, text, false⟩ ns).Spelled :=
  .mk ⟨fun hname => absurd (hk.symm.trans hname) Bool.false_ne_true, nofun⟩ h

/-- A role is given to a spelled node, that of a name only to names and the dot. -/
theorem Spelled.withRole (h : n.Spelled) (hr : r = .name → n.kind.isName ∨ n.text = ".") :
    (n.withRole r).Spelled := by
  cases h with
  | mk hhead hchildren =>
    refine .mk ⟨hhead.word, fun hrole => ?_⟩ hchildren
    exact hr (Option.some.inj hrole)

@[simp] theorem allSpelled_nil : AllSpelled [] := fun _ hn => absurd hn List.not_mem_nil

@[simp] theorem allSpelled_cons : AllSpelled (n :: ns) ↔ n.Spelled ∧ AllSpelled ns :=
  List.forall_mem_cons

@[simp] theorem allSpelled_append : AllSpelled (ns ++ ms) ↔ AllSpelled ns ∧ AllSpelled ms :=
  List.forall_mem_append

/-- A node around spelled ones is spelled when it is no name. -/
theorem AllSpelled.enclose (hk : kind.isName = false) (h : AllSpelled ns) :
    AllSpelled (enclose kind ns) := by
  rw [Node.enclose, allSpelled_append]
  refine ⟨fun n hn => h n ((List.takeWhile_prefix _).subset hn), ?_⟩
  have hrest : AllSpelled (ns.dropWhile isComment) := fun n hn =>
    h n ((List.dropWhile_suffix _).subset hn)
  split
  · exact allSpelled_nil
  · next first rest heq =>
    rw [heq] at hrest
    exact allSpelled_cons.2 ⟨spelled_mk hk hrest, allSpelled_nil⟩

/-- Spelled nodes may get a role, that of a name only when they can. -/
theorem AllSpelled.labelled (h : AllSpelled ns) (hr : r = .name → CanName ns) :
    AllSpelled (labelled r ns) := by
  intro n hn
  obtain ⟨m, hm, rfl⟩ := List.mem_map.1 hn
  split
  · exact h m hm
  · next hcomment =>
    refine (h m hm).withRole fun hrole => ?_
    exact (hr hrole m hm).resolve_left hcomment

end

end Node

/-! ## Single tokens -/

namespace Rule

/-- What stands between tokens: comments, which are leaves. -/
theorem triviaLoop_leaf (line : Bool) (fuel : Nat) (cursor : Cursor) :
    ∀ n ∈ (cursor.triviaLoop line fuel).1, ∃ span text, n = .leaf .comment span text := by
  fun_induction Cursor.triviaLoop line fuel cursor with
  | case1 => exact fun _ hn => absurd hn List.not_mem_nil
  | case2 => exact fun _ hn => absurd hn List.not_mem_nil
  | case3 _ _ _ _ _ _ ih => exact ih
  | case4 => exact fun _ hn => absurd hn List.not_mem_nil
  | case5 fuel cursor c _ _ _ n _ comment next hleaf more last hmore ih =>
    rw [hmore] at ih
    refine List.forall_mem_cons.2 ⟨?_, ih⟩
    cases hleaf
    exact ⟨_, _, rfl⟩

theorem trivia_leaf (line : Bool) (cursor : Cursor) :
    ∀ n ∈ (cursor.trivia line).1, ∃ span text, n = .leaf .comment span text :=
  triviaLoop_leaf line _ cursor

/-- What ends a statement: comments, and a token. -/
theorem terminator?_leaf {cursor next : Cursor} {ns : List Node}
    (h : terminator? cursor = .ok (some ns, next)) :
    ∀ n ∈ ns, ∃ span text,
      n = .leaf .comment span text ∨ ∃ spelling, n = .leaf (.token spelling) span text := by
  have hcomments := trivia_leaf true cursor
  unfold terminator? at h
  split at h
  next comments here htrivia =>
  rw [htrivia] at hcomments
  split at h
  · split at h
    · cases h
      refine List.forall_mem_append.2 ⟨fun n hn => ?_, ?_⟩
      · obtain ⟨span, text, hleaf⟩ := hcomments n hn
        exact ⟨span, text, .inl hleaf⟩
      · exact List.forall_mem_singleton.2 ⟨_, _, .inr ⟨_, rfl⟩⟩
    · cases h
  · cases h

/-- What is between tokens is comments, which are spelled. -/
theorem trivia_comments (line : Bool) (cursor : Cursor) :
    ∀ n ∈ (cursor.trivia line).1, n.Spelled ∧ n.isComment := by
  intro n hn
  obtain ⟨span, text, rfl⟩ := trivia_leaf line cursor n hn
  exact ⟨Node.spelled_leaf nofun, rfl⟩

/-- What `take` reads: comments, and a leaf over the next characters. -/
theorem mem_take {kind : Kind} {k : Nat} {cursor next : Cursor} {ns : List Node}
    (h : take kind k cursor = .ok (ns, next)) {n : Node} (hn : n ∈ ns) :
    n.Spelled ∧ n.isComment ∨
      ∃ span, n = .leaf kind span (String.ofList ((cursor.upcoming false).take k)) := by
  cases h
  rcases List.mem_append.1 hn with hn | hn
  · exact .inl (trivia_comments false cursor n hn)
  · exact .inr ⟨_, List.mem_singleton.1 hn⟩

/-- What `word` reads: comments, and a leaf over a word. -/
theorem mem_word {kind : Kind} {cursor next : Cursor} {ns : List Node}
    (h : word kind cursor = .ok (ns, next)) {n : Node} (hn : n ∈ ns) :
    n.Spelled ∧ n.isComment ∨ ∃ span text, Lexeme.IsWord text ∧
      n = .leaf kind span (String.ofList text) := by
  change (if (Lexeme.word (cursor.upcoming false)).isEmpty then stuck
    else take kind (Lexeme.word (cursor.upcoming false)).length) cursor = _ at h
  split at h
  · cases h
  · next hne =>
    rcases mem_take h hn with hcomment | ⟨span, rfl⟩
    · exact .inl hcomment
    · refine .inr ⟨span, Lexeme.word (cursor.upcoming false), Lexeme.isWord_word ?_, ?_⟩
      · exact fun hnil => hne (List.isEmpty_iff.2 hnil)
      · rw [← List.prefix_iff_eq_take.1 (Lexeme.word_isPrefix (cursor.upcoming false))]

end Rule

end GoOutline.Syntax
