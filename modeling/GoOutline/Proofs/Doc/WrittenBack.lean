import GoOutline.Proofs.Doc.Paragraphs

/-!
# Documentation written back

The text of comments is in a normal form, so it can be written back into a source. As line comments,
one for each of its lines, or as one block comment it says the same text again. The marks that are
put around it are the marks that are taken off, and the paragraphs that are read are those that were
joined. What looks like a directive or like the end of a block comment makes no difference.

## Main definitions

* `Comment.lineComments`: a text as line comments
* `Comment.blockComment`: a text as a block comment

## Main results

* `Comment.paragraphs_intercalate`: paragraphs are read back from their lines
* `Comment.linesOf_lineComments`, `Comment.linesOf_blockComment`: both forms say the lines of the
  text
* `Comment.text_written_back`: both forms have the same text again
-/

namespace GoOutline.Doc.Comment

open GoOutline.Text

/-! ## The two forms -/

/-- A line as a line comment. -/
def lineComment (l : List Char) : String := "// " ++ String.ofList l

/-- A text as line comments, one for each line. -/
def lineComments (t : String) : List String := (t.toList.splitOn '\n').map lineComment

/-- A text as a block comment. -/
def blockComment (t : String) : String := "/*" ++ t ++ "*/"

theorem hasLines_lineComment (l : List Char) : HasLines (lineComment l).toList [l] := by
  have htext : (lineComment l).toList = '/' :: '/' :: ' ' :: l := by
    simp [lineComment]
  rw [htext]
  exact .spaced l

/-- The mark at the end closes the comment, whatever marks stand in the text. -/
theorem hasLines_blockComment (t : String) :
    HasLines (blockComment t).toList (t.toList.splitOn '\n') := by
  have htext : (blockComment t).toList = '/' :: '*' :: (t.toList ++ ['*', '/']) := by
    rw [blockComment, String.toList_append, String.toList_append]
    rfl
  rw [htext]
  exact .closed t.toList

/-- **Line comments** say the lines of the text that they were made of. -/
theorem linesOf_lineComments (t : String) :
    linesOf (lineComments t) = (t.toList.splitOn '\n').map Blank.trimEnd := by
  have hlines : ∀ l, lines (lineComment l).toList = [l] :=
    fun l => hasLines_iff.1 (hasLines_lineComment l)
  rw [linesOf, lineComments, List.flatMap_map]
  simp only [hlines, List.flatMap_singleton']

/-- **A block comment** says the lines of the text that it was made of. -/
theorem linesOf_blockComment (t : String) :
    linesOf [blockComment t] = (t.toList.splitOn '\n').map Blank.trimEnd := by
  rw [linesOf, List.flatMap_singleton, hasLines_iff.1 (hasLines_blockComment t)]

/-! ## Paragraphs that are read back -/

section

variable {ps : List (List (List Char))}

/-- **Paragraphs are read back** from their lines with an empty line between them. -/
theorem paragraphs_intercalate (h : AreParagraphs ps) :
    paragraphs (List.intercalate [[]] ps) = ps := by
  by_cases hps : ps = []
  · subst hps
    rfl
  have hempty : ∀ ls : List (List Char), ls.splitOnP List.isEmpty = ls.splitOn [] := by
    intro ls
    rw [List.splitOn_eq_splitOnP]
    congr
    funext l
    cases l <;> rfl
  have hsplit : (List.intercalate [[]] ps).splitOn [] = ps := by
    apply List.splitOn_intercalate
    · intro p hp hmem
      exact h.line_ne_nil p hp [] hmem rfl
    · exact hps
  rw [paragraphs, hempty, hsplit, List.filter_eq_self]
  intro p hp
  simpa using h.ne_nil p hp

/-- The lines of a text of paragraphs have these paragraphs. -/
theorem paragraphs_splitOn_joinParagraphs (h : AreParagraphs ps) :
    paragraphs (((joinParagraphs ps).splitOn '\n').map Blank.trimEnd) = ps := by
  by_cases hps : ps = []
  · subst hps
    rfl
  have htrimmed : (List.intercalate [[]] ps).map Blank.trimEnd = List.intercalate [[]] ps :=
    (List.map_congr_left fun _ hl => h.trimEnd_eq hl).trans (List.map_id _)
  rw [splitOn_joinParagraphs h hps, htrimmed, paragraphs_intercalate h]

end

/-! ## The text written back -/

/-- Comments that say the lines of a text of paragraphs have this text. -/
theorem text_of_linesOf {comments written : List String} (h : ∀ c ∈ comments, EndsWithLine c)
    (hwritten : linesOf written = ((text comments).toList.splitOn '\n').map Blank.trimEnd) :
    text written = text comments := by
  apply String.toList_injective
  rw [toList_text written, hwritten, toList_text comments,
    paragraphs_splitOn_joinParagraphs (areParagraphs_linesOf h)]

/-- **Documentation can be written back.** When no line comment holds a line feed, the text of
comments is the text of its own lines as line comments, and of itself as one block comment. -/
theorem text_written_back {comments : List String} (h : ∀ c ∈ comments, EndsWithLine c) :
    text (lineComments (text comments)) = text comments ∧
      text [blockComment (text comments)] = text comments := by
  constructor
  · exact text_of_linesOf h (linesOf_lineComments (text comments))
  · exact text_of_linesOf h (linesOf_blockComment (text comments))

/-- Comments with lines that look like directives, or like the end of a block comment. -/
def markedComments : List String :=
  ["//", "/*\ngo:generate one\n\n\n\tline two */ \n*/", "//line three", "//  four:4", "// /* five"]

/-- The text has two paragraphs; its first line would be dropped behind two slashes alone. -/
theorem text_written_back_markedComments :
    (∀ c ∈ markedComments, EndsWithLine c) ∧
      text markedComments = "go:generate one\n\n\tline two */\n\n four:4\n/* five" ∧
      text (lineComments (text markedComments)) = text markedComments ∧
      text [blockComment (text markedComments)] = text markedComments := by
  have h : ∀ c ∈ markedComments, EndsWithLine c := by decide
  exact ⟨h, by decide +kernel, text_written_back h⟩

end GoOutline.Doc.Comment
