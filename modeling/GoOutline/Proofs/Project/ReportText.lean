import GoOutline.Project.Report

/-!
# What a report says

The heading of a report is followed by a notice that there are no files, or by the number of files
and a line for each. Which of these it is, and the number, can be read off the text.

## Main definitions

* `ReportText.heading`, `ReportText.notice`, `ReportText.countLine`: parts of a report
* `ReportText.SaysNoFiles`, `ReportText.SaysCount`: what stands behind the heading

## Main results

* `ProjectOutline.report_eq`: the parts of a report
* `ReportText.saysNoFiles_iff`, `ReportText.saysCount_iff`: what a report says is so of its lines
-/

namespace GoOutline

namespace ReportText

/-- What a report on a project at a root starts with. -/
def heading (colored : Bool) (root : String) : String :=
  "\n  " ++ Style.boldCyan.paint colored "goanalyze" ++ " v0.1.0\n\n  " ++
    Style.dimmed.paint colored "Analyzing: " ++ root ++ "\n\n"

/-- The notice that there are no files. -/
def notice (colored : Bool) : String :=
  "  " ++ Style.yellow.paint colored "No Go files found" ++ "\n\n"

/-- The line with the number of files. -/
def countLine (colored : Bool) (n : Nat) : String :=
  "  " ++ Style.bold.paint colored "Files" ++ " (" ++ toString n ++ "):\n"

/-- What stands between the heading and the totals, for some lines about files. -/
def body (colored : Bool) (lines : List String) : String :=
  if lines.isEmpty then notice colored
  else countLine colored lines.length ++ String.join lines ++ "\n"

/-- A text is a report that has a part right behind its heading. -/
def SaysAfterHeading (colored : Bool) (root part text : String) : Prop :=
  ∃ rest, text = heading colored root ++ part ++ rest

/-- A text is a report which says that there are no files. -/
def SaysNoFiles (colored : Bool) (root text : String) : Prop :=
  SaysAfterHeading colored root (notice colored) text

/-- A text is a report which says how many files there are. -/
def SaysCount (colored : Bool) (root : String) (n : Nat) (text : String) : Prop :=
  SaysAfterHeading colored root (countLine colored n) text

variable {colored : Bool} {root : String}

theorem saysAfterHeading_append_iff {part s : String} :
    SaysAfterHeading colored root part (heading colored root ++ s) ↔ ∃ rest, s = part ++ rest := by
  simp only [SaysAfterHeading, String.append_assoc, String.append_right_inj]

/-- The notice and a number of files differ where they start. -/
theorem notice_append_ne_countLine_append (n : Nat) (s s' : String) :
    notice colored ++ s ≠ countLine colored n ++ s' := by
  intro h
  have hlist := congrArg String.toList h
  cases colored <;> simp [notice, countLine, Style.paint, Style.parameters] at hlist

/-- The digits of a number end at the parenthesis behind them. -/
theorem takeWhile_toString_append (n : Nat) (s : List Char) :
    ((toString n).toList ++ ')' :: s).takeWhile Char.isDigit = (toString n).toList := by
  have hdigits : ∀ c ∈ (toString n).toList, c.isDigit := by
    intro c hc
    rw [Nat.toString_eq_ofList_toDigits, String.toList_ofList] at hc
    exact Nat.isDigit_of_mem_toDigits (by decide) (by decide) hc
  rw [List.takeWhile_append_of_pos hdigits, List.takeWhile_cons_of_neg (by decide),
    List.append_nil]

/-- A number of files is read back from its line. -/
theorem eq_of_countLine_append_eq {m n : Nat} {s s' : String}
    (h : countLine colored m ++ s = countLine colored n ++ s') : m = n := by
  have hnumber : toString m ++ "):\n" ++ s = toString n ++ "):\n" ++ s' := by
    simpa only [countLine, String.append_assoc, String.append_right_inj] using h
  have hlist : (toString m).toList ++ ')' :: (":\n" ++ s).toList =
      (toString n).toList ++ ')' :: (":\n" ++ s').toList := by
    simpa using congrArg String.toList hnumber
  have hdigits := congrArg (List.takeWhile Char.isDigit) hlist
  rw [takeWhile_toString_append, takeWhile_toString_append, Nat.toString_eq_ofList_toDigits,
    Nat.toString_eq_ofList_toDigits, String.toList_ofList, String.toList_ofList] at hdigits
  calc m = Nat.ofDigitChars 10 (Nat.toDigits 10 m) 0 := Nat.ofDigitChars_ten_toDigits.symm
    _ = Nat.ofDigitChars 10 (Nat.toDigits 10 n) 0 := by rw [hdigits]
    _ = n := Nat.ofDigitChars_ten_toDigits

/-! ## What is said -/

theorem body_of_ne_nil {lines : List String} (h : lines ≠ []) (s : String) :
    body colored lines ++ s =
      countLine colored lines.length ++ (String.join lines ++ "\n" ++ s) := by
  rw [body, if_neg (by simpa using h), String.append_assoc, String.append_assoc,
    String.append_assoc]

section

variable {lines : List String} {text totals : String}
  (htext : text = heading colored root ++ body colored lines ++ totals)

include htext

/-- **A report says that there are no files** when it has no line about any. -/
theorem saysNoFiles_iff : SaysNoFiles colored root text ↔ lines = [] := by
  rw [SaysNoFiles, htext, String.append_assoc, saysAfterHeading_append_iff]
  by_cases hlines : lines = []
  · subst hlines
    exact ⟨fun _ => rfl, fun _ => ⟨totals, rfl⟩⟩
  · rw [body_of_ne_nil hlines]
    refine ⟨?_, fun h => absurd h hlines⟩
    rintro ⟨rest, hrest⟩
    exact absurd hrest.symm (notice_append_ne_countLine_append _ _ _)

/-- **The number that a report says** is that of its lines about files. -/
theorem saysCount_iff {n : Nat} :
    SaysCount colored root n text ↔ lines ≠ [] ∧ n = lines.length := by
  rw [SaysCount, htext, String.append_assoc, saysAfterHeading_append_iff]
  by_cases hlines : lines = []
  · subst hlines
    refine ⟨?_, fun h => absurd rfl h.1⟩
    rintro ⟨rest, hrest⟩
    exact absurd hrest (notice_append_ne_countLine_append _ _ _)
  · rw [body_of_ne_nil hlines]
    constructor
    · rintro ⟨rest, hrest⟩
      exact ⟨hlines, (eq_of_countLine_append_eq hrest).symm⟩
    · rintro ⟨-, rfl⟩
      exact ⟨_, rfl⟩

end

end ReportText

namespace ProjectOutline

open ReportText

/-- The parts of a report. -/
theorem report_eq (p : ProjectOutline) (colored : Bool) (root : String) :
    p.report colored root = heading colored root ++ body colored (p.fileLines colored) ++
      p.summary.report colored := by
  have hbody : p.filesReport colored = body colored (p.fileLines colored) := by
    simp only [filesReport, body, fileLines, List.isEmpty_map, List.length_map, notice, countLine]
  rw [report, hbody, heading]

end ProjectOutline

end GoOutline
