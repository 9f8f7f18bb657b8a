import GoOutline.Text.Position
import Mathlib.Data.List.TakeWhile

/-!
# Lines and columns of offsets

The bytes before an offset are whole lines and then the part of the last line that comes before it.
The line of the offset counts the former, its column the bytes of the latter.

## Main definitions

* `AreLines`: bytes that are whole lines

## Main results

* `exists_lines_append`: bytes are whole lines and a part of a line
* `bytePosition_of_take_eq`: the line and the column that these parts amount to
-/

namespace GoOutline.Text

/-- The bytes are whole lines: if there are any, the last one is a line feed. -/
def AreLines (bs : List UInt8) : Prop := ∀ b ∈ bs.getLast?, b = newlineByte

theorem areLines_nil : AreLines [] := nofun

/-- A byte in front of whole lines makes whole lines, unless it stands alone. -/
theorem AreLines.cons {bs : List UInt8} (h : AreLines bs) {b : UInt8}
    (hb : bs = [] → b = newlineByte) : AreLines (b :: bs) := by
  cases bs with
  | nil =>
    rintro c ⟨⟩
    exact hb rfl
  | cons c bs =>
    rw [AreLines, List.getLast?_cons_cons]
    exact h

/-- Whole lines behind any bytes make whole lines with them. -/
theorem AreLines.append_left {lines : List UInt8} (h : AreLines lines) (hne : lines ≠ [])
    (bs : List UInt8) : AreLines (bs ++ lines) := by
  rw [AreLines, List.getLast?_append, List.getLast?_eq_some_getLast hne, Option.some_or,
    ← List.getLast?_eq_some_getLast hne]
  exact h

/-- Where there are whole lines, there is a line feed. -/
theorem AreLines.newlineByte_mem {lines : List UInt8} (h : AreLines lines) (hne : lines ≠ []) :
    newlineByte ∈ lines := by
  rw [← h _ (List.getLast?_eq_some_getLast hne)]
  exact List.getLast_mem hne

/-- Bytes are whole lines, and then a part of a line. -/
theorem exists_lines_append (bs : List UInt8) :
    ∃ lines last, bs = lines ++ last ∧ AreLines lines ∧ newlineByte ∉ last := by
  induction bs with
  | nil => exact ⟨[], [], rfl, areLines_nil, List.not_mem_nil⟩
  | cons b bs ih =>
    obtain ⟨lines, last, rfl, hlines, hlast⟩ := ih
    by_cases hb : lines = [] → b = newlineByte
    · exact ⟨b :: lines, last, rfl, hlines.cons hb, hlast⟩
    · obtain ⟨rfl, hne⟩ := Classical.not_imp.1 hb
      refine ⟨[], b :: last, rfl, areLines_nil, ?_⟩
      rw [List.mem_cons, not_or]
      exact ⟨Ne.symm hne, hlast⟩

/-- Looking back from the end of a text, its last line goes up to the whole lines before it. -/
theorem takeWhile_reverse_append {lines last : List UInt8} (hlines : AreLines lines)
    (hlast : newlineByte ∉ last) :
    (lines ++ last).reverse.takeWhile (· != newlineByte) = last.reverse := by
  have hstay : ∀ b ∈ last.reverse, (b != newlineByte) = true := by
    intro b hb
    rw [bne_iff_ne]
    rintro rfl
    exact hlast (List.mem_reverse.1 hb)
  have hstop : lines.reverse.takeWhile (· != newlineByte) = [] := by
    rw [AreLines, ← List.head?_reverse] at hlines
    cases hrev : lines.reverse with
    | nil => rfl
    | cons b bs =>
      rw [hrev] at hlines
      rw [hlines b rfl]
      rfl
  rw [List.reverse_append, List.takeWhile_append_of_pos hstay, hstop, List.append_nil]

/-- **The line and the column of an offset** count the whole lines before it and the bytes of its
own line before it. -/
theorem bytePosition_of_take_eq {source lines last : List UInt8} {offset : Nat}
    (h : source.take offset = lines ++ last) (hlines : AreLines lines)
    (hlast : newlineByte ∉ last) :
    bytePosition source offset = (lines.count newlineByte + 1, last.length + 1) := by
  rw [bytePosition, h, takeWhile_reverse_append hlines hlast, List.length_reverse,
    List.count_append, List.count_eq_zero_of_not_mem hlast, Nat.add_zero]

end GoOutline.Text
