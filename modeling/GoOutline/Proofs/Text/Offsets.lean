import GoOutline.Proofs.Text.BytePosition
import Mathlib.Algebra.Order.SuccPred
import Mathlib.Data.Nat.SuccPred
import Mathlib.Data.Prod.Lex
import Mathlib.Order.Hom.Set
import Mathlib.Order.Interval.Set.OrdConnected

/-!
# The order of offsets

Positions are pairs of a line and a column, and such pairs are compared lexicographically. A step
over one byte leads to a later position, so the offsets of a source stand in the order of their
positions; and each column of each line, the place behind its last byte included, is the position of
an offset.

The position behind some bytes is known from where these end and from the position in what follows
them. This is what the facts about single bytes come from, and through them all others.

## Main definitions

* `placedAfter`: a position in bytes that are put behind others
* `lastNewline?`, `lineStart`: where the last line starts, by a search from the end
* `afterByte`: the position behind a single byte
* `IsPositionIn`: the lines and columns of a source
* `Positions`, `positionAt`: these in their order, and the one of an offset

## Main results

* `bytePosition_append`: positions in bytes that are put behind others
* `bytePosition_eq_lineStart`: the column is the distance from the start of the line
* `strictMonoOn_bytePosition`: later offsets have later positions
* `exists_offset_iff`: the positions that offsets have
* `offsets_orderIso_positions`: offsets and positions correspond in their order
-/

namespace GoOutline.Text

/-! ## Bytes behind others -/

/-- The position `p` in some bytes, when these are put behind others that end at `stop`: the lines
of the others come before its line, and on the first line their last line comes before its
column. -/
def placedAfter (stop p : Nat × Nat) : Nat × Nat :=
  (stop.1 - 1 + p.1, if p.1 = 1 then stop.2 - 1 + p.2 else p.2)

/-- On the first line, the columns are added. -/
theorem placedAfter_first (row column column' : Nat) :
    placedAfter (row + 1, column + 1) (1, column' + 1) = (row + 1, column + column' + 1) := rfl

/-- On a later line, the column is kept. -/
theorem placedAfter_later (row column row' column' : Nat) :
    placedAfter (row + 1, column + 1) (row' + 2, column') = (row + row' + 2, column') := rfl

theorem bytePosition_zero (source : List UInt8) : bytePosition source 0 = (1, 1) := rfl

theorem one_le_bytePosition (source : List UInt8) (offset : Nat) :
    1 ≤ (bytePosition source offset).1 ∧ 1 ≤ (bytePosition source offset).2 :=
  ⟨Nat.le_add_left .., Nat.le_add_left ..⟩

/-- Behind the end, the position is that of the end. -/
theorem bytePosition_of_length_le {source : List UInt8} {offset : Nat}
    (h : source.length ≤ offset) :
    bytePosition source offset = bytePosition source source.length := by
  rw [bytePosition, bytePosition, List.take_of_length_le h, List.take_length]

/-- What follows an offset does not move it. -/
theorem bytePosition_append_left {x : List UInt8} {offset : Nat} (h : offset ≤ x.length)
    (y : List UInt8) : bytePosition (x ++ y) offset = bytePosition x offset := by
  rw [bytePosition, bytePosition, List.take_append_of_le_length h]

/-- **The position in bytes behind others** goes on from where the others end. -/
theorem bytePosition_append (x y : List UInt8) (k : Nat) :
    bytePosition (x ++ y) (x.length + k) =
      placedAfter (bytePosition x x.length) (bytePosition y k) := by
  obtain ⟨lines, last, hx, hlines, hlast⟩ := exists_lines_append x
  obtain ⟨lines', last', hy, hlines', hlast'⟩ := exists_lines_append (y.take k)
  have htake : (x ++ y).take (x.length + k) = x ++ (lines' ++ last') := by
    rw [List.take_length_add_append, hy]
  rw [bytePosition_of_take_eq (x.take_length.trans hx) hlines hlast,
    bytePosition_of_take_eq hy hlines' hlast']
  by_cases hne : lines' = []
  · subst hne
    have hpart : newlineByte ∉ last ++ last' := by
      rw [List.mem_append]
      exact not_or.2 ⟨hlast, hlast'⟩
    have htake' : (x ++ y).take (x.length + k) = lines ++ (last ++ last') := by
      rw [htake, hx, List.nil_append, List.append_assoc]
    rw [bytePosition_of_take_eq htake' hlines hpart, List.length_append, List.count_nil,
      placedAfter_first]
  · have hcount : x.count newlineByte = lines.count newlineByte := by
      rw [hx, List.count_append, List.count_eq_zero_of_not_mem hlast, Nat.add_zero]
    obtain ⟨row, hrow⟩ := Nat.exists_eq_succ_of_ne_zero
      (List.count_pos_iff.2 (hlines'.newlineByte_mem hne)).ne'
    rw [bytePosition_of_take_eq (htake.trans (List.append_assoc ..).symm)
        (hlines'.append_left hne x) hlast', List.count_append, hcount, hrow, placedAfter_later]
    rfl

/-! ## The search for the start of a line -/

/-- The last line feed among the first `n` bytes, looked for from the end. -/
def lastNewline? (bs : List UInt8) : Nat → Option Nat
  | 0 => none
  | n + 1 => if bs[n]? = some newlineByte then some n else lastNewline? bs n

/-- Where the last line starts: just past the last line feed, or at the front if there is none. This
is the distance that the column leaves out, while `bytePosition` counts the bytes that remain. -/
def lineStart (bs : List UInt8) : Nat := ((lastNewline? bs bs.length).map (· + 1)).getD 0

/-- The search passes over a part of a line. -/
theorem lastNewline?_append {lines last : List UInt8} (hlast : newlineByte ∉ last) {n : Nat}
    (hn : n ≤ last.length) :
    lastNewline? (lines ++ last) (lines.length + n) =
      lastNewline? (lines ++ last) lines.length := by
  induction n with
  | zero => rfl
  | succ n ih =>
    have hbyte : (lines ++ last)[lines.length + n]? ≠ some newlineByte := by
      rw [List.getElem?_append_right (Nat.le_add_right ..), Nat.add_sub_cancel_left]
      exact fun h => hlast (List.mem_of_getElem? h)
    rw [← Nat.add_assoc, lastNewline?, if_neg hbyte, ih (Nat.le_of_succ_le hn)]

/-- The last line starts behind the whole lines. -/
theorem lineStart_append {lines last : List UInt8} (hlines : AreLines lines)
    (hlast : newlineByte ∉ last) : lineStart (lines ++ last) = lines.length := by
  rw [lineStart, List.length_append, lastNewline?_append hlast le_rfl]
  obtain rfl | ⟨front, b, rfl⟩ := lines.eq_nil_or_concat
  · rfl
  · rw [List.concat_eq_append] at hlines ⊢
    have hb : b = newlineByte := hlines b List.getLast?_concat
    have hbyte : (front ++ [b] ++ last)[front.length]? = some newlineByte := by
      rw [hb, List.append_assoc, List.getElem?_append_right le_rfl, Nat.sub_self]
      rfl
    rw [List.length_append, List.length_singleton, lastNewline?, if_pos hbyte]
    rfl

theorem lineStart_le_length (bs : List UInt8) : lineStart bs ≤ bs.length := by
  obtain ⟨lines, last, rfl, hlines, hlast⟩ := exists_lines_append bs
  rw [lineStart_append hlines hlast, List.length_append]
  exact Nat.le_add_right ..

/-- **The column of an offset** is one more than its distance from the start of its line. -/
theorem bytePosition_eq_lineStart (source : List UInt8) (offset : Nat) :
    bytePosition source offset =
      ((source.take offset).count newlineByte + 1,
        (source.take offset).length - lineStart (source.take offset) + 1) := by
  obtain ⟨lines, last, htake, hlines, hlast⟩ := exists_lines_append (source.take offset)
  rw [bytePosition_of_take_eq htake hlines hlast, htake, lineStart_append hlines hlast,
    List.count_append, List.count_eq_zero_of_not_mem hlast, List.length_append,
    Nat.add_sub_cancel_left, Nat.add_zero]

/-! ## Steps over single bytes -/

/-- The position behind a byte at the front: a line feed ends the line, and any other byte takes one
column. -/
def afterByte (b : UInt8) : Nat × Nat := if b = newlineByte then (2, 1) else (1, 2)

theorem bytePosition_cons_one (b : UInt8) (bs : List UInt8) :
    bytePosition (b :: bs) 1 = afterByte b := by
  rw [afterByte]
  split
  · next h => rw [h]; rfl
  · next h =>
    have hlast : newlineByte ∉ [b] := by
      rw [List.mem_singleton]
      exact Ne.symm h
    exact bytePosition_of_take_eq rfl areLines_nil hlast

theorem bytePosition_cons_succ (b : UInt8) (bs : List UInt8) (k : Nat) :
    bytePosition (b :: bs) (k + 1) = placedAfter (afterByte b) (bytePosition bs k) := by
  have happend := bytePosition_append [b] bs k
  rw [List.length_singleton, bytePosition_cons_one, Nat.add_comm] at happend
  exact happend

/-- **A step over one byte** leads to the start of the next line or to the next column. -/
theorem bytePosition_succ {source : List UInt8} {i : Nat} (h : i < source.length) :
    bytePosition source (i + 1) =
      if source[i] = newlineByte then ((bytePosition source i).1 + 1, 1)
      else ((bytePosition source i).1, (bytePosition source i).2 + 1) := by
  have hlength : (source.take i).length = i := List.length_take_of_le h.le
  have hsource : source.take i ++ source[i] :: source.drop (i + 1) = source := by
    rw [List.getElem_cons_drop, List.take_append_drop]
  have hhere : bytePosition (source.take i) (source.take i).length = bytePosition source i := by
    rw [← bytePosition_append_left le_rfl (source[i] :: source.drop (i + 1)), hsource, hlength]
  have hstep := bytePosition_append (source.take i) (source[i] :: source.drop (i + 1)) 1
  rw [hhere, hsource, hlength, bytePosition_cons_one] at hstep
  rw [hstep, afterByte]
  split
  · exact placedAfter_later _ _ 0 1
  · exact placedAfter_first _ _ 1

/-- **Later offsets have later positions.** -/
theorem strictMonoOn_bytePosition (source : List UInt8) :
    StrictMonoOn (fun offset => toLex (bytePosition source offset)) (Set.Iic source.length) := by
  refine strictMonoOn_of_lt_add_one Set.ordConnected_Iic fun i _ _ hi => ?_
  rw [bytePosition_succ (Nat.lt_of_succ_le hi)]
  split_ifs
  · exact Prod.Lex.left _ _ (Nat.lt_succ_self _)
  · exact Prod.Lex.right _ (Nat.lt_succ_self _)

/-! ## The positions of a source -/

/-- A line and a column that a source has: the line is one of those between its line feeds, and the
column is that of one of its bytes or the one behind the last of them. -/
def IsPositionIn (source : List UInt8) (p : Nat × Nat) : Prop :=
  ∃ row line column, (source.splitOn newlineByte)[row]? = some line ∧ column ≤ line.length ∧
    p = (row + 1, column + 1)

/-- Where there are no bytes, there is one position. -/
theorem isPositionIn_nil {p : Nat × Nat} : IsPositionIn [] p ↔ p = (1, 1) := by
  constructor
  · rintro ⟨row, line, column, hline, hcolumn, rfl⟩
    obtain ⟨rfl, rfl⟩ : row = 0 ∧ [] = line := by
      rwa [List.splitOn_nil, List.getElem?_singleton, Option.ite_none_right_eq_some,
        Option.some.injEq] at hline
    rw [Nat.le_zero.1 hcolumn]
  · rintro rfl
    exact ⟨0, [], 0, rfl, le_rfl, rfl⟩

/-- A line feed in front is an empty line, and the others come one line later. -/
theorem isPositionIn_newline_cons {bs : List UInt8} {p : Nat × Nat} :
    IsPositionIn (newlineByte :: bs) p ↔
      p = (1, 1) ∨ ∃ q, IsPositionIn bs q ∧ placedAfter (2, 1) q = p := by
  have hlines : (newlineByte :: bs).splitOn newlineByte = [] :: bs.splitOn newlineByte := by
    rw [List.splitOn_cons_eq_if_modifyHead, if_pos (BEq.refl _)]
  have hlater (row column : Nat) :
      placedAfter (2, 1) (row + 1, column + 1) = (row + 2, column + 1) := by
    cases row with
    | zero => rw [placedAfter_first 1 0, Nat.zero_add]
    | succ row => rw [placedAfter_later 1 0, Nat.add_comm 1]
  constructor
  · rintro ⟨row, line, column, hline, hcolumn, rfl⟩
    rw [hlines] at hline
    cases row with
    | zero =>
      cases hline
      rw [Nat.le_zero.1 hcolumn]
      exact .inl rfl
    | succ row => exact .inr ⟨_, ⟨row, line, column, hline, hcolumn, rfl⟩, hlater row column⟩
  · rintro (rfl | ⟨_, ⟨row, line, column, hline, hcolumn, rfl⟩, rfl⟩)
    · exact ⟨0, [], 0, by rw [hlines]; rfl, le_rfl, rfl⟩
    · rw [hlater]
      exact ⟨row + 1, line, column, by rwa [hlines], hcolumn, rfl⟩

/-- Any other byte in front makes the first line longer, and the other lines stay. -/
theorem isPositionIn_cons_of_ne {b : UInt8} (hb : b ≠ newlineByte) {bs : List UInt8}
    {p : Nat × Nat} :
    IsPositionIn (b :: bs) p ↔
      p = (1, 1) ∨ ∃ q, IsPositionIn bs q ∧ placedAfter (1, 2) q = p := by
  obtain ⟨first, more, hfirst⟩ := List.exists_cons_of_ne_nil (List.splitOn_ne_nil newlineByte bs)
  have hlines : (b :: bs).splitOn newlineByte = (b :: first) :: more := by
    rw [List.splitOn_cons_eq_if_modifyHead, if_neg (mt beq_iff_eq.1 hb), hfirst]
    rfl
  have hlonger (column : Nat) : placedAfter (1, 2) (1, column + 1) = (1, column + 2) := by
    rw [placedAfter_first 0 1, Nat.add_comm 1]
  have hstays (row column : Nat) : placedAfter (1, 2) (row + 2, column) = (row + 2, column) := by
    rw [placedAfter_later 0 1, Nat.zero_add]
  constructor
  · rintro ⟨row, line, column, hline, hcolumn, rfl⟩
    rw [hlines] at hline
    -- in the first line the column moves by one; behind it nothing does
    rcases row with _ | row
    · cases hline
      rcases column with _ | column
      · exact .inl rfl
      · exact .inr ⟨_, ⟨0, first, column, by rw [hfirst]; rfl, Nat.le_of_succ_le_succ hcolumn, rfl⟩,
          hlonger column⟩
    · exact .inr ⟨_, ⟨row + 1, line, column, by rwa [hfirst], hcolumn, rfl⟩, hstays row _⟩
  · rintro (rfl | ⟨_, ⟨row, line, column, hline, hcolumn, rfl⟩, rfl⟩)
    · exact ⟨0, b :: first, 0, by rw [hlines]; rfl, Nat.zero_le _, rfl⟩
    · rw [hfirst] at hline
      rcases row with _ | row
      · cases hline
        rw [hlonger]
        exact ⟨0, b :: first, column + 1, by rw [hlines]; rfl, Nat.succ_le_succ hcolumn, rfl⟩
      · rw [hstays]
        exact ⟨row + 1, line, column, by rwa [hlines], hcolumn, rfl⟩

/-- Behind a byte, there are the positions of what follows it. -/
theorem isPositionIn_cons {b : UInt8} {bs : List UInt8} {p : Nat × Nat} :
    IsPositionIn (b :: bs) p ↔
      p = (1, 1) ∨ ∃ q, IsPositionIn bs q ∧ placedAfter (afterByte b) q = p := by
  rw [afterByte]
  split
  · next hb =>
    rw [hb]
    exact isPositionIn_newline_cons
  · next hb => exact isPositionIn_cons_of_ne hb

/-- **The positions of offsets** are all the lines and columns that a source has. -/
theorem exists_offset_iff {source : List UInt8} {p : Nat × Nat} :
    (∃ offset ≤ source.length, bytePosition source offset = p) ↔ IsPositionIn source p := by
  induction source generalizing p with
  | nil =>
    rw [isPositionIn_nil]
    constructor
    · rintro ⟨offset, hoffset, rfl⟩
      rw [bytePosition_of_length_le (Nat.zero_le _)]
      rfl
    · rintro rfl
      exact ⟨0, le_rfl, rfl⟩
  | cons b bs ih =>
    rw [isPositionIn_cons]
    constructor
    · rintro ⟨_ | offset, hoffset, rfl⟩
      · exact .inl rfl
      · exact .inr ⟨_, ih.1 ⟨offset, Nat.le_of_succ_le_succ hoffset, rfl⟩,
          (bytePosition_cons_succ b bs offset).symm⟩
    · rintro (rfl | ⟨q, hq, rfl⟩)
      · exact ⟨0, Nat.zero_le _, rfl⟩
      · obtain ⟨offset, hoffset, rfl⟩ := ih.2 hq
        exact ⟨offset + 1, Nat.succ_le_succ hoffset, bytePosition_cons_succ b bs offset⟩

/-- The positions of a source, ordered by their lines and by their columns on one line. -/
abbrev Positions (source : List UInt8) : Type :=
  {p : ℕ ×ₗ ℕ // IsPositionIn source (ofLex p)}

/-- The position of an offset, as one of those of the source. -/
def positionAt (source : List UInt8) (offset : Set.Iic source.length) : Positions source :=
  ⟨toLex (bytePosition source offset), exists_offset_iff.1 ⟨offset, offset.2, rfl⟩⟩

theorem strictMono_positionAt (source : List UInt8) : StrictMono (positionAt source) :=
  fun i j h => strictMonoOn_bytePosition source i.2 j.2 h

theorem surjective_positionAt (source : List UInt8) : Function.Surjective (positionAt source) := by
  rintro ⟨p, hp⟩
  obtain ⟨offset, hoffset, rfl⟩ := exists_offset_iff.2 hp
  exact ⟨⟨offset, hoffset⟩, rfl⟩

/-- **Offsets and positions correspond**, in their order.

* The offsets of a source, its end included, are mapped one-to-one and in order to the lines and
  columns that the source has: of two offsets, the later one has the later position, and two offsets
  with one position are the same.
* Lines and columns count from one. The column is counted from where the line starts, as a search
  from the end finds it, and that is never past the offset.
* The front has the first position, and an offset past the end has the position of the end.
* When bytes are put behind others, their positions are placed after the end of these. -/
theorem offsets_orderIso_positions (source : List UInt8) :
    (∃ e : Set.Iic source.length ≃o Positions source,
      ∀ offset, (e offset).1 = toLex (bytePosition source offset)) ∧
    (∀ i j, i < j → j ≤ source.length →
      toLex (bytePosition source i) < toLex (bytePosition source j)) ∧
    (∀ i j, i ≤ source.length → j ≤ source.length →
      (bytePosition source i = bytePosition source j ↔ i = j)) ∧
    (∀ offset, 1 ≤ (bytePosition source offset).1 ∧ 1 ≤ (bytePosition source offset).2) ∧
    (∀ offset, lineStart (source.take offset) ≤ (source.take offset).length ∧
      bytePosition source offset =
        ((source.take offset).count newlineByte + 1,
          (source.take offset).length - lineStart (source.take offset) + 1)) ∧
    bytePosition source 0 = (1, 1) ∧
    (∀ offset, source.length ≤ offset →
      bytePosition source offset = bytePosition source source.length) ∧
    ∀ more k, bytePosition (source ++ more) (source.length + k) =
      placedAfter (bytePosition source source.length) (bytePosition more k) := by
  have hmono := strictMonoOn_bytePosition source
  refine ⟨⟨(strictMono_positionAt source).orderIsoOfSurjective _ (surjective_positionAt source),
      fun _ => rfl⟩, ?_, ?_, one_le_bytePosition source, ?_, bytePosition_zero source, ?_,
    bytePosition_append source⟩
  · intro i j hij hj
    exact hmono (hij.le.trans hj) hj hij
  · intro i j hi hj
    exact ⟨fun h => hmono.injOn hi hj (congrArg toLex h), fun h => by rw [h]⟩
  · intro offset
    exact ⟨lineStart_le_length _, bytePosition_eq_lineStart source offset⟩
  · intro offset h
    exact bytePosition_of_length_le h

/-- An empty line, a line of two bytes, another empty line, and the end. -/
def emptyLines : List UInt8 := [0x0A, 0x61, 0x62, 0x0A, 0x0A]

theorem offsets_orderIso_positions_emptyLines :
    toLex (2, 3) < toLex (bytePosition emptyLines 5) ∧ bytePosition emptyLines 9 = (4, 1) ∧
      bytePosition (emptyLines ++ [0x63, 0x0A]) 6 = (4, 2) ∧
      bytePosition (emptyLines ++ [0x63, 0x0A]) 7 = (5, 1) := by
  obtain ⟨-, hlater, -, -, -, -, hbehind, happend⟩ := offsets_orderIso_positions emptyLines
  exact ⟨hlater 3 5 (by decide) (by decide), hbehind 9 (by decide), happend [0x63, 0x0A] 1,
    happend [0x63, 0x0A] 2⟩

end GoOutline.Text
