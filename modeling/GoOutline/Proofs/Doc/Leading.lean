import GoOutline.Proofs.Outline.Binding
import Mathlib.Data.List.Chain
import Mathlib.Data.List.Infix

/-!
# The comments above a node

The documentation of a node is made of comments that stand directly above it. They are said here
without the loop that finds them: they are the longest run of comments at the end of the siblings
before the node in which every comment ends on the row above the next one, the last one on the row
above the node, and none stands behind code on its row.

## Main definitions

* `Visit.siblingsBefore`: the siblings before the node at an address, in reading order
* `EndsInRun`, `IsLongestRun`: the runs that siblings may end in, and the longest of them
* `IsDocOf`: the documentation that a run amounts to

## Main results

* `endsInRun_concat_iff`: one more comment in a run
* `suffix_of_endsInRun`: the loop finds the longest run
* `isDocOf_doc`: the documentation of every node of a tree
-/

namespace GoOutline

open GoOutline.Syntax GoOutline.Text

/-! ## Siblings -/

namespace Visit

/-- The siblings before the node at an address below a root, in reading order. The root has none. -/
def siblingsBefore (root : Node) : Address → List Node
  | [] => []
  | [i] => root.children.take i
  | i :: j :: rest => (root.children[i]?.map (siblingsBefore · (j :: rest))).getD []

/-- A visit to a child knows the children before it, nearest first. -/
theorem before_of_getElem?_children {n : Node} {i : Nat} {v : Visit}
    (h : (children n)[i]? = some v) :
    v.before.reverse = n.children.take i ∧ n.children[i]? = some v.node := by
  have hnode : n.children[i]? = some v.node := by
    rw [← map_node_children_getElem?, h]
    rfl
  obtain ⟨hi, hget⟩ := List.getElem?_eq_some_iff.1 hnode
  have hlength : (n.children.take i).reverse.length = i := by
    rw [List.length_reverse, List.length_take]
    omega
  have hsplit : n.children =
      (n.children.take i).reverse.reverse ++ v.node :: n.children.drop (i + 1) := by
    rw [List.reverse_reverse, ← hget, List.getElem_cons_drop, List.take_append_drop]
  have hv := children_getElem? (v := ⟨[], n⟩) hsplit
  rw [hlength, h] at hv
  refine ⟨?_, hnode⟩
  rw [Option.some.inj hv, List.reverse_reverse]

theorem before_of_at?_cons {u v : Visit} {i : Nat} {a : Address} (h : u.at? (i :: a) = some v) :
    v.before.reverse = siblingsBefore u.node (i :: a) := by
  induction a generalizing u i with
  | nil =>
    obtain ⟨w, hw, hv⟩ := Option.bind_eq_some_iff.1 h
    cases hv
    exact (before_of_getElem?_children hw).1
  | cons j rest ih =>
    obtain ⟨w, hw, hv⟩ := Option.bind_eq_some_iff.1 h
    rw [ih hv, siblingsBefore, (before_of_getElem?_children hw).2]
    rfl

/-- The visit at an address has the siblings before the node there, nearest first. -/
theorem before_of_at? {root : Node} {a : Address} {v : Visit} (h : at? ⟨[], root⟩ a = some v) :
    v.before.reverse = siblingsBefore root a := by
  cases a with
  | nil =>
    cases h
    rfl
  | cons i a => exact before_of_at?_cons h

end Visit

namespace Doc

/-! ## Runs of comments -/

/-- Siblings end in a run of comments directly above a row. -/
structure EndsInRun (row : Nat) (siblings run : List Node) : Prop where
  suffix : run <:+ siblings
  comments : ∀ c ∈ run, c.isComment
  /-- The last comment ends on the row above. -/
  above : ∀ c ∈ run.getLast?, c.endRow + 1 = row
  /-- Every other comment ends on the row above the next one. -/
  adjacent : run.IsChain fun c d => c.endRow + 1 = d.startRow
  /-- What stands directly before a comment of the run is a comment, or ends on another row than the
  one on which the comment starts. -/
  untrailed : ∀ before b c after, siblings = before ++ b :: c :: after →
    after.length < run.length → ¬ b.isComment → b.endRow ≠ c.startRow

/-- No run is longer. -/
def IsLongestRun (row : Nat) (siblings run : List Node) : Prop :=
  EndsInRun row siblings run ∧ ∀ other, EndsInRun row siblings other → other.length ≤ run.length

theorem endsInRun_nil (row : Nat) (siblings : List Node) : EndsInRun row siblings [] where
  suffix := List.nil_suffix
  comments := List.forall_mem_nil _
  above := nofun
  adjacent := .nil
  untrailed := nofun

section

variable {row : Nat} {siblings run : List Node} {c : Node}

theorem concat_suffix_concat_iff {α : Type} {xs ys : List α} {x y : α} :
    xs ++ [x] <:+ ys ++ [y] ↔ xs <:+ ys ∧ x = y := by
  rw [← List.reverse_prefix, List.reverse_append, List.reverse_append, ← List.reverse_prefix]
  simp [List.cons_prefix_cons, and_comm]

/-- **One more comment.** A run with a comment behind it is a run when the comment ends on the row
above and does not stand behind code, and the run ends on the row above the comment. -/
theorem endsInRun_concat_iff :
    EndsInRun row (siblings ++ [c]) (run ++ [c]) ↔
      c.isComment ∧ c.endRow + 1 = row ∧
        (∀ b ∈ siblings.getLast?, ¬ b.isComment → b.endRow ≠ c.startRow) ∧
        EndsInRun c.startRow siblings run := by
  constructor
  · intro h
    obtain ⟨hadjacent, -, hjoin⟩ := List.isChain_append.1 h.adjacent
    refine ⟨h.comments c (by simp), h.above c (by simp), ?_, ?_⟩
    · intro b hb
      obtain ⟨front, rfl⟩ := List.getLast?_eq_some_iff.1 hb
      exact h.untrailed front b c [] (by simp) (by simp)
    · exact {
        suffix := (concat_suffix_concat_iff.1 h.suffix).1
        comments := fun d hd => h.comments d (List.mem_append_left _ hd)
        above := fun d hd => hjoin d hd c rfl
        adjacent := hadjacent
        untrailed := by
          rintro before b d after rfl hafter
          exact h.untrailed before b d (after ++ [c]) (by simp) (by simpa using hafter) }
  · rintro ⟨hcomment, habove, huntrailed, h⟩
    exact {
      suffix := concat_suffix_concat_iff.2 ⟨h.suffix, rfl⟩
      comments := by
        intro d hd
        rcases List.mem_append.1 hd with hd | hd
        · exact h.comments d hd
        · rwa [List.mem_singleton.1 hd]
      above := by
        intro d hd
        obtain rfl : c = d := by simpa using hd
        exact habove
      adjacent := by
        refine List.isChain_append.2 ⟨h.adjacent, List.isChain_singleton c, fun d hd e he => ?_⟩
        obtain rfl : c = e := by simpa using he
        exact h.above d hd
      untrailed := by
        intro before b d after heq hafter
        -- the pair ends at the new comment, or it stands among the siblings before
        rcases List.eq_nil_or_concat' after with rfl | ⟨after, last, rfl⟩
        · have hpair : siblings ++ [c] = (before ++ [b]) ++ [d] := by simpa using heq
          obtain ⟨rfl, hd⟩ := List.append_inj' hpair rfl
          obtain rfl : c = d := by simpa using hd
          exact huntrailed b (by simp)
        · have hpair : siblings ++ [c] = (before ++ b :: d :: after) ++ [last] := by simpa using heq
          obtain ⟨rfl, -⟩ := List.append_inj' hpair rfl
          exact h.untrailed before b d after rfl (by simpa using hafter) }

end

/-! ## The loop -/

theorem trailsCode_eq_false_iff {c : Node} {before : List Node} :
    trailsCode c before = false ↔
      ∀ b ∈ before.head?, ¬ b.isComment → b.endRow ≠ c.startRow := by
  cases before with
  | nil => simp [trailsCode]
  | cons b rest => cases hb : b.isComment <;> simp [trailsCode, hb]

/-- The comments that the loop takes are a run. -/
theorem endsInRun_leadingComments (row : Nat) (before : List Node) :
    EndsInRun row before.reverse (leadingComments row before).reverse := by
  fun_induction leadingComments row before with
  | case1 row => exact endsInRun_nil row []
  | case2 row c before hc ih =>
    simp only [Bool.and_eq_true, beq_iff_eq, Bool.not_eq_true'] at hc
    obtain ⟨⟨hcomment, hrow⟩, htrails⟩ := hc
    rw [List.reverse_cons, List.reverse_cons]
    refine endsInRun_concat_iff.2 ⟨hcomment, hrow, ?_, ih⟩
    rw [List.getLast?_reverse]
    exact trailsCode_eq_false_iff.1 htrails
  | case3 row c before hc => exact endsInRun_nil row _

/-- **The loop takes the longest run**: every other run is the end of it. -/
theorem suffix_of_endsInRun {row : Nat} {before run : List Node}
    (h : EndsInRun row before.reverse run) : run <:+ (leadingComments row before).reverse := by
  induction before generalizing row run with
  | nil => exact h.suffix
  | cons c before ih =>
    rcases List.eq_nil_or_concat' run with rfl | ⟨run, last, rfl⟩
    · exact List.nil_suffix
    · rw [List.reverse_cons] at h
      obtain ⟨-, rfl⟩ := concat_suffix_concat_iff.1 h.suffix
      -- the run takes up the nearest sibling, so the loop does not stop there either
      obtain ⟨hcomment, hrow, huntrailed, hrest⟩ := endsInRun_concat_iff.1 h
      rw [List.getLast?_reverse] at huntrailed
      have htrails := trailsCode_eq_false_iff.2 huntrailed
      have hloop : leadingComments row (last :: before) =
          last :: leadingComments last.startRow before := by
        rw [leadingComments, if_pos]
        simp [hcomment, hrow, htrails]
      rw [hloop, List.reverse_cons]
      exact concat_suffix_concat_iff.2 ⟨ih hrest, rfl⟩

/-- The longest run is the one that the loop takes, and no other. -/
theorem isLongestRun_iff {row : Nat} {before run : List Node} :
    IsLongestRun row before.reverse run ↔ run = (leadingComments row before).reverse := by
  have hloop := endsInRun_leadingComments row before
  constructor
  · rintro ⟨hrun, hlongest⟩
    exact (suffix_of_endsInRun hrun).eq_of_length_le (hlongest _ hloop)
  · rintro rfl
    exact ⟨hloop, fun other hother => (suffix_of_endsInRun hother).length_le⟩

/-- From the first row of a comment that the loop takes down to the row above, every row has one of
these comments on it. -/
theorem exists_covering {row : Nat} {before : List Node} {c : Node}
    (hc : c ∈ leadingComments row before) {r : Nat} (hstart : c.startRow ≤ r) (hrow : r < row) :
    ∃ d ∈ leadingComments row before, d.startRow ≤ r ∧ r ≤ d.endRow := by
  fun_induction leadingComments row before with
  | case1 row => cases hc
  | case2 row d before hd ih =>
    simp only [Bool.and_eq_true, beq_iff_eq] at hd
    obtain ⟨⟨-, hend⟩, -⟩ := hd
    by_cases hr : d.startRow ≤ r
    · exact ⟨d, List.mem_cons_self, hr, by omega⟩
    · -- the row is above the nearest comment, so it belongs to those before it
      rcases List.mem_cons.1 hc with rfl | hc
      · exact absurd hstart hr
      · obtain ⟨e, he, hcovers⟩ := ih hc (by omega)
        exact ⟨e, List.mem_cons_of_mem d he, hcovers⟩
  | case3 row d before hd => cases hc

/-! ## The documentation -/

/-- **The documentation of a node** with some siblings before it: it is made of the comments of the
longest run that the siblings end in. -/
structure IsDocOf (siblings : List Node) (n : Node) (doc : Option String) (run : List Node) :
    Prop where
  longest : ∀ other, IsLongestRun n.startRow siblings other ↔ other = run
  /-- There is no documentation without comments, and none of a blank text. -/
  none_iff : doc = none ↔
    run = [] ∨ ∀ c ∈ (Comment.text (run.map (·.text))).toList, Blank.isBlank c
  /-- Otherwise the documentation is the text of the comments, trimmed. -/
  some_of : ∀ text, doc = some text →
    text = Blank.trimmed (Comment.text (run.map (·.text))) ∧ text ≠ "" ∧
      (∀ c ∈ text.toList.head?, ¬ Blank.isBlank c) ∧ ∀ c ∈ text.toList.getLast?, ¬ Blank.isBlank c
  /-- No row is left out from the start of the run to the node. -/
  covered : ∀ c ∈ run, ∀ row, c.startRow ≤ row → row < n.startRow →
    ∃ d ∈ run, d.startRow ≤ row ∧ row ≤ d.endRow
  /-- A comment above a row without comments does not belong to the run. -/
  separated : ∀ c row, c.startRow ≤ row → row < n.startRow →
    (∀ d ∈ siblings, d.isComment → ¬ (d.startRow ≤ row ∧ row ≤ d.endRow)) → c ∉ run

theorem docText_eq_none_iff {run : List Node} :
    docText run = none ↔
      run = [] ∨ ∀ c ∈ (Comment.text (run.map (·.text))).toList, Blank.isBlank c := by
  rw [← Blank.trim_eq_nil_iff, docText]
  cases run with
  | nil => simp
  | cons c rest => simp

theorem docText_eq_some {run : List Node} {text : String} (h : docText run = some text) :
    text.toList = Blank.trim (Comment.text (run.map (·.text))).toList ∧ text.toList ≠ [] := by
  unfold docText at h
  split at h
  · cases h
  · dsimp only at h
    split at h
    · cases h
    · next hempty =>
      rw [← Option.some.inj h, String.toList_ofList]
      exact ⟨rfl, by simpa using hempty⟩

theorem isDocOf_leadingDoc (before : List Node) (n : Node) :
    IsDocOf (Node.significant before.reverse) n (leadingDoc before n)
      (leadingComments n.startRow (Node.significant before)).reverse := by
  have hsignificant : Node.significant before.reverse = (Node.significant before).reverse :=
    List.filter_reverse
  rw [hsignificant]
  exact {
    longest := fun other => isLongestRun_iff
    none_iff := docText_eq_none_iff
    some_of := by
      intro text htext
      obtain ⟨htrim, hne⟩ := docText_eq_some htext
      refine ⟨?_, ?_, ?_, ?_⟩
      · rw [Blank.trimmed, ← htrim, String.ofList_toList]
      · rintro rfl
        exact hne rfl
      · intro c hc
        rw [htrim] at hc
        simp [Blank.not_isBlank_head?_trim hc]
      · intro c hc
        rw [htrim] at hc
        simp [Blank.not_isBlank_getLast?_trim hc]
    covered := by
      intro c hc row hstart hrow
      obtain ⟨d, hd, hcovers⟩ := exists_covering (List.mem_reverse.1 hc) hstart hrow
      exact ⟨d, List.mem_reverse.2 hd, hcovers⟩
    separated := by
      intro c row hstart hrow hblank hc
      -- a comment of the run covers the row, and it is one of the siblings
      obtain ⟨d, hd, hcovers⟩ := exists_covering (List.mem_reverse.1 hc) hstart hrow
      have hrun := endsInRun_leadingComments n.startRow (Node.significant before)
      have hd := List.mem_reverse.2 hd
      exact hblank d (hrun.suffix.subset hd) (hrun.comments d hd) hcovers }

end Doc

/-- **The documentation of every node of a tree** comes from the longest run of adjacent comments
before it, the tokens that end statements set aside. -/
theorem isDocOf_doc {root : Node} {a : Address} {v : Visit} (h : Visit.at? ⟨[], root⟩ a = some v) :
    ∃ run, Doc.IsDocOf (Node.significant (Visit.siblingsBefore root a)) v.node v.doc run := by
  rw [← Visit.before_of_at? h]
  exact ⟨_, Doc.isDocOf_leadingDoc v.before v.node⟩

/-- A function below a comment over two rows and one more, with a comment behind code and one before
an empty row further up. -/
def commentsAbove : List UInt8 := Utf8.encode
  "package p
// Apart.

var x = 1 // Trailing.
/* First
second. */
// Third.
func f() \x7b\x7d
".toList

theorem isDocOf_doc_commentsAbove :
    ∃ p v run, parse "t.go" commentsAbove = .ok p ∧ Visit.at? ⟨[], p.tree⟩ [8] = some v ∧
      v.doc = some "First\nsecond.\nThird." ∧
      Doc.IsDocOf (Node.significant (Visit.siblingsBefore p.tree [8])) v.node v.doc run := by
  have h : (parse "t.go" commentsAbove).toOption.any fun p =>
      (Visit.at? ⟨[], p.tree⟩ [8]).any fun v => v.doc = some "First\nsecond.\nThird." := by
    decide +kernel
  obtain ⟨p, hp, hq⟩ := exists_parse_eq_ok h
  obtain ⟨v, hv, hdoc⟩ := (Option.any_eq_true _ _).1 hq
  obtain ⟨run, hrun⟩ := isDocOf_doc hv
  exact ⟨p, v, run, hp, hv, of_decide_eq_true hdoc, hrun⟩

end GoOutline
