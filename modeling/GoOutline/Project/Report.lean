import GoOutline.Decimal.Places
import GoOutline.Project.Basic

/-!
# The report on a project

A report to read in a terminal: a heading, one line for each file, and the totals. Coverage is
coloured by how much of it there is.

## Main definitions

* `Style`, `Style.paint`: text with or without colours
* `coverageStyle`, `coverageText`: percentages
* `ProjectOutline.report`: the whole report
-/

namespace GoOutline

/-- How a piece of text looks in a terminal. -/
inductive Style where
  | bold | dimmed | red | yellow | green | boldGreen | boldCyan
  deriving DecidableEq, Repr, Inhabited

namespace Style

/-- The parameters of the control sequence that turns the style on. -/
def parameters : Style → String
  | .bold => "1"
  | .dimmed => "2"
  | .red => "31"
  | .yellow => "33"
  | .green => "32"
  | .boldGreen => "1;32"
  | .boldCyan => "1;36"

/-- The text in a style, or as it is when there are no colours. -/
def paint (colored : Bool) (style : Style) (text : String) : String :=
  if colored then "\x1b[" ++ style.parameters ++ "m" ++ text ++ "\x1b[0m" else text

end Style

/-- The style of a percentage of documented symbols. -/
def coverageStyle (coverage : Float) : Style :=
  if coverage ≥ 80.0 then .boldGreen
  else if coverage ≥ 50.0 then .green
  else if coverage ≥ 25.0 then .yellow
  else .red

/-- A percentage with one place. -/
def coverageText (colored : Bool) (coverage : Float) : String :=
  (coverageStyle coverage).paint colored (String.ofList (Decimal.fixedPlaces 1 coverage) ++ "%")

/-- The line about a file. -/
def Outline.reportLine (colored : Bool) (o : Outline) : String :=
  let methods := (o.classes.flatMap (·.methods)).length
  "    " ++ o.path ++ "  " ++ toString o.classes.length ++ " structs, " ++ toString methods ++
    " methods, " ++ toString o.interfaces.length ++ " interfaces, " ++
    toString o.functions.length ++ " functions, " ++ toString o.imports.length ++ " imports  " ++
    coverageText colored o.documentation.coverage ++ "\n"

/-- A total under its label, which fills twelve columns. -/
def reportRow (label value : String) : String :=
  "    " ++ label ++ String.ofList (List.replicate (12 - label.length) ' ') ++ " " ++ value ++ "\n"

namespace Summary

/-- The totals. -/
def report (colored : Bool) (s : Summary) : String :=
  "  " ++ Style.bold.paint colored "Summary:" ++ "\n" ++
    reportRow "structs" (toString s.totalClasses) ++
    reportRow "interfaces" (toString s.totalInterfaces) ++
    reportRow "functions" (toString s.totalFunctions) ++
    reportRow "doc coverage" (coverageText colored s.overallDocCoverage) ++ "\n"

end Summary

namespace ProjectOutline

/-- The lines about the files. -/
def fileLines (colored : Bool) (p : ProjectOutline) : List String :=
  p.files.map (Outline.reportLine colored)

/-- The part of the report about the files. -/
def filesReport (colored : Bool) (p : ProjectOutline) : String :=
  if p.files.isEmpty then "  " ++ Style.yellow.paint colored "No Go files found" ++ "\n\n"
  else
    "  " ++ Style.bold.paint colored "Files" ++ " (" ++ toString p.files.length ++ "):\n" ++
      String.join (p.fileLines colored) ++ "\n"

/-- The report on a project at a root. -/
def report (colored : Bool) (root : String) (p : ProjectOutline) : String :=
  "\n  " ++ Style.boldCyan.paint colored "goanalyze" ++ " v0.1.0\n\n  " ++
    Style.dimmed.paint colored "Analyzing: " ++ root ++ "\n\n" ++
    p.filesReport colored ++ p.summary.report colored

end ProjectOutline

end GoOutline
