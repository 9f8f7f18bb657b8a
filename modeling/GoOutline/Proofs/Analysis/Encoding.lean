import GoOutline.Proofs.Analysis.Acceptance
import GoOutline.Proofs.Text.BytePosition
import GoOutline.Proofs.Text.WellFormed

/-!
# Sources that are no text

Bytes that are no text are refused at the end of the longest text at their front, whatever it is
that comes there: a byte that starts no character, a form that is too long, a surrogate, or a
character that breaks off.

## Main results

* `parse_of_not_isText`: what is said of a source that is no text
* `illegalEncoding_at_first_bad_byte`: where it is said to be wrong, in terms of its bytes alone
-/

namespace GoOutline

open GoOutline.Text

/-- A source that is no text is refused where the reader stops. -/
theorem parse_of_not_isText (path : String) {source : List UInt8} (h : ¬ Utf8.IsText source) :
    parse path source =
      .error (.malformed path (bytePosition source (Utf8.validLength source)).1
        (bytePosition source (Utf8.validLength source)).2 .illegalEncoding) :=
  accept_of_not_text _ _ path (mt Utf8.isText_iff.2 h)

/-- **A source that is no text is refused at its first bad byte.** Let `length` be that of the
longest text at the front of the source.

* The error is that of an illegal encoding, at the line and the column of that offset.
* The line is one more than the number of line feeds before the offset, the column one more than
  the number of bytes between the last of them and the offset.
* If a character breaks off somewhere behind a text, in that nothing that could be part of a
  character follows, the offset is that of its first byte. -/
theorem illegalEncoding_at_first_bad_byte (path : String) {source : List UInt8}
    (h : ¬ Utf8.IsText source) :
    ∃ length line column complaint, Utf8.IsLongestText source length ∧
      parse path source = .error (.malformed path line column complaint) ∧
      complaint.message = "illegal UTF-8 encoding" ∧
      (line, column) = bytePosition source length ∧
      (1 ≤ line ∧ line - 1 = (source.take length).count newlineByte) ∧
      (∃ lines last, source.take length = lines ++ last ∧ AreLines lines ∧
        newlineByte ∉ last ∧ 1 ≤ column ∧ column - 1 = last.length) ∧
      ∀ front part more rest, source = front ++ part ++ rest → Utf8.IsText front →
        Utf8.IsCharacter (part ++ more) → part ≠ [] → more ≠ [] →
        (∀ b ∈ rest.head?, Utf8.isTail b = false) → length = front.length := by
  obtain ⟨lines, last, htake, hlines, hlast⟩ :=
    exists_lines_append (source.take (Utf8.validLength source))
  have hposition := bytePosition_of_take_eq htake hlines hlast
  refine ⟨Utf8.validLength source, _, _, .illegalEncoding, Utf8.isLongestText_validLength source,
    parse_of_not_isText path h, rfl, rfl, ⟨Nat.le_add_left .., rfl⟩,
    ⟨lines, last, htake, hlines, hlast, Nat.le_add_left .., ?_⟩, ?_⟩
  · rw [hposition]
    rfl
  · rintro front part more rest rfl hfront hcharacter hpart hmore hrest
    exact Utf8.validLength_of_truncated hfront hcharacter hpart hmore hrest

/-- Two characters on a first line, one on a second, and then the first two bytes of one that takes
three. -/
def truncatedSource : List UInt8 := [0xC3, 0xA9, 0x61, 0x0A, 0x62, 0xE2, 0x82]

/-- The source is a text, and then a character that lacks its last byte. -/
theorem truncatedSource_breaksOff :
    truncatedSource = [0xC3, 0xA9, 0x61, 0x0A, 0x62] ++ [0xE2, 0x82] ++ [] ∧
      Utf8.IsText [0xC3, 0xA9, 0x61, 0x0A, 0x62] ∧ Utf8.IsCharacter ([0xE2, 0x82] ++ [0xAC]) :=
  ⟨rfl, Utf8.isText_iff.2 ⟨"éa\nb".toList, by decide⟩, Utf8.isCharacter_iff.2 ⟨'€', by decide⟩⟩

theorem not_isText_truncatedSource : ¬ Utf8.IsText truncatedSource := by
  obtain ⟨hsource, hfront, hcharacter⟩ := truncatedSource_breaksOff
  have hvalid : Utf8.validLength truncatedSource = 5 := by
    rw [hsource]
    exact Utf8.validLength_of_truncated hfront hcharacter nofun nofun nofun
  have hlongest := Utf8.isLongestText_validLength truncatedSource
  rw [hvalid] at hlongest
  exact hlongest.not_isText 7 (by decide) (by decide)

theorem illegalEncoding_at_first_bad_byte_truncatedSource :
    ¬ Utf8.IsText truncatedSource ∧ ∃ complaint,
      parse "a.go" truncatedSource = .error (.malformed "a.go" 2 2 complaint) ∧
      complaint.message = "illegal UTF-8 encoding" := by
  obtain ⟨hsource, hfront, hcharacter⟩ := truncatedSource_breaksOff
  obtain ⟨length, line, column, complaint, -, hparse, hmessage, hposition, -, -, htruncated⟩ :=
    illegalEncoding_at_first_bad_byte "a.go" not_isText_truncatedSource
  rw [htruncated _ _ [0xAC] [] hsource hfront hcharacter nofun nofun nofun] at hposition
  obtain ⟨rfl, rfl⟩ := Prod.mk.inj hposition
  exact ⟨not_isText_truncatedSource, complaint, hparse, hmessage⟩

end GoOutline
