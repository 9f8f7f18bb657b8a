import GoOutline.CommandLine.Run
import GoOutline.Proofs.Json.Layouts
import GoOutline.Proofs.Text.WellFormed

/-!
# Records as documents

A record is one document, whichever of the two layouts it is written in: the layouts differ in
blanks between tokens only. On one line the document is a line indeed, so a command that writes it
ends its output with the only line feed in it.

## Main definitions

* `IsOneDocument`: two texts that differ in their layout only, the second of which is on one line

## Main results

* `isOneDocument_render`: the texts of a value
* `layouts_agree`: the texts of all records, and what the command for a file writes
-/

namespace GoOutline

open GoOutline.Text GoOutline.Json

/-- The texts are one document: deleting the spaces and line feeds that stand outside of string
literals from the first gives the second, and that is a single line without control characters. -/
structure IsOneDocument (indented line : String) : Prop where
  unspaced_eq : Json.Text.unspaced indented.toList = line.toList
  le_of_mem : ∀ b ∈ Utf8.encode line.toList, 0x20 ≤ b

/-- **The two texts of a value are one document.** -/
theorem isOneDocument_render (v : Json) : IsOneDocument (v.render true) (v.render false) where
  unspaced_eq := Json.unspaced_render v
  le_of_mem b hb := by
    rw [UInt8.le_iff_toNat_le]
    exact Utf8.le_toNat_of_mem_encode (by decide) (Json.le_toNat_of_mem_render v) b hb

/-- A text on one line has no line feed. -/
theorem newline_not_mem_render (v : Json) : '\n' ∉ (v.render false).toList :=
  fun h => absurd (Json.le_toNat_of_mem_render v _ h) (by decide)

namespace CommandLine

/-- Whatever comes of a file is a value that is written out. -/
theorem exists_stdout_runFile (t : FileTree) (a : FileArguments) :
    ∃ v, (runFile t a).stdout = document a.pretty v := by
  unfold runFile
  split
  · exact ⟨_, rfl⟩
  · exact ⟨_, rfl⟩

end CommandLine

/-- **The layouts of records agree**: for every outline, failure, project and configuration, the
indented text without the spaces and line feeds outside of its literals is the text on one line,
and no byte of that is below a space. The command for a file writes a single line, unless it is
asked to indent. -/
theorem layouts_agree :
    (∀ o : Outline, IsOneDocument (o.toJson.render true) (o.toJson.render false)) ∧
    (∀ f : FailedOutline, IsOneDocument (f.toJson.render true) (f.toJson.render false)) ∧
    (∀ p : ProjectOutline, IsOneDocument (p.toJson.render true) (p.toJson.render false)) ∧
    (∀ c : Config, IsOneDocument (c.toJson.render true) (c.toJson.render false)) ∧
    ∀ (t : FileTree) (colored : Bool) (path : Option String), ∃ line,
      (CommandLine.runCommand t colored (.file ⟨path, false⟩)).stdout = line ++ "\n" ∧
      '\n' ∉ line.toList ∧ (Utf8.encode line.toList).all (0x20 ≤ ·) := by
  refine ⟨fun o => isOneDocument_render _, fun f => isOneDocument_render _,
    fun p => isOneDocument_render _, fun c => isOneDocument_render _, fun t colored path => ?_⟩
  obtain ⟨v, hv⟩ := CommandLine.exists_stdout_runFile t ⟨path, false⟩
  refine ⟨v.render false, hv, newline_not_mem_render v, ?_⟩
  rw [List.all_eq_true]
  exact fun b hb => decide_eq_true ((isOneDocument_render v).le_of_mem b hb)

end GoOutline
