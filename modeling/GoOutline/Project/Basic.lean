import GoOutline.Language
import GoOutline.Record.Decoding
import GoOutline.Record.Encoding

/-!
# The outline of a project

The outlines of all files of a project and totals over them. Nothing is resolved across files.

## Main definitions

* `Summary`: the totals, and `Summary.ofOutlines`
* `ProjectOutline`: the outlines of the files with their summary
* `toJson`, `ofJson?` for both
-/

namespace GoOutline

/-- Totals over the files of a project. -/
structure Summary where
  totalFiles : Nat := 0
  totalClasses : Nat := 0
  totalInterfaces : Nat := 0
  totalFunctions : Nat := 0
  totalEnums : Nat := 0
  totalTypeAliases : Nat := 0
  /-- The documented share of all symbols of all files, as a percentage. -/
  overallDocCoverage : Float := 0.0
  deriving Repr, Inhabited

namespace Summary

/-- The sum of a count over some outlines. -/
def total (count : Outline → Nat) : List Outline → Nat
  | [] => 0
  | o :: rest => count o + total count rest

/-- The totals over some outlines. -/
def ofOutlines (outlines : List Outline) : Summary where
  totalFiles := outlines.length
  totalClasses := total (·.classes.length) outlines
  totalInterfaces := total (·.interfaces.length) outlines
  totalFunctions := total (·.functions.length) outlines
  totalEnums := total (·.enums.length) outlines
  totalTypeAliases := total (·.typeAliases.length) outlines
  overallDocCoverage :=
    Doc.percentage (total (·.documentation.documentedSymbols) outlines)
      (total (·.documentation.totalSymbols) outlines)

/-- A summary as JSON. -/
def toJson (s : Summary) : Json := .object [
  ("totalFiles", .nat s.totalFiles), ("totalClasses", .nat s.totalClasses),
  ("totalInterfaces", .nat s.totalInterfaces), ("totalFunctions", .nat s.totalFunctions),
  ("totalEnums", .nat s.totalEnums), ("totalTypeAliases", .nat s.totalTypeAliases),
  ("overallDocCoverage", .float s.overallDocCoverage)]

open Json Json.Field in
/-- A summary from JSON. -/
def ofJson? (v : Json) : Option Summary := do
  return {
    totalFiles := ← required count? "totalFiles" v
    totalClasses := ← required count? "totalClasses" v
    totalInterfaces := ← required count? "totalInterfaces" v
    totalFunctions := ← required count? "totalFunctions" v
    totalEnums := ← required count? "totalEnums" v
    totalTypeAliases := ← required count? "totalTypeAliases" v
    overallDocCoverage := ← required double? "overallDocCoverage" v }

end Summary

/-- The outlines of the files of a project, with totals over them. -/
structure ProjectOutline where
  language : String
  files : List Outline
  summary : Summary
  deriving Repr, Inhabited

namespace ProjectOutline

/-- The project made of some outlines. -/
def ofOutlines (outlines : List Outline) : ProjectOutline where
  language := Language.go.id
  files := outlines
  summary := .ofOutlines outlines

/-- A project as JSON. -/
def toJson (p : ProjectOutline) : Json := .object [
  ("language", .string p.language), ("files", .array (p.files.map Outline.toJson)),
  ("summary", p.summary.toJson)]

open Json Json.Field in
/-- A project from JSON. -/
def ofJson? (v : Json) : Option ProjectOutline := do
  return {
    language := ← required text? "language" v
    files := ← required (listOf? Outline.ofJson?) "files" v
    summary := ← required Summary.ofJson? "summary" v }

end ProjectOutline

end GoOutline
