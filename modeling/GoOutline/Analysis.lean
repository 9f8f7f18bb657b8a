import GoOutline.Outline.Collect
import GoOutline.Syntax.Tree
import GoOutline.Text.Blank

/-!
# Analysis of a source

A source is accepted when it is UTF-8, its tree has no fault and its file has a package clause. The
first of these that fails is reported, and nothing of the outline with it.

## Main definitions

* `Complaint`, `AnalysisError`: why there is no outline, and `AnalysisError.message`
* `Parsed`: an accepted source
* `accept`, `parse`: the acceptance of a source
* `analyze`: the outline of a source

## Main results

* `parse_eq_ok_iff`, `analyze_eq_ok_iff`: the sources that are accepted, and their outlines
-/

namespace GoOutline

open GoOutline.Syntax GoOutline.Text

/-- What is wrong at a place of a source. -/
inductive Complaint where
  /-- The bytes are not UTF-8. -/
  | illegalEncoding
  /-- A stretch of source fits nowhere; it is quoted. -/
  | near (snippet : String)
  /-- Something blank fits nowhere. -/
  | unspecific
  /-- Something is missing; its kind is named. -/
  | missing (name : String)
  /-- A complaint in other words. -/
  | other (text : String)
  deriving DecidableEq, Repr, Inhabited

/-- The text of a complaint. -/
def Complaint.message : Complaint → String
  | .illegalEncoding => "illegal UTF-8 encoding"
  | .near snippet => "syntax error near `" ++ snippet ++ "`"
  | .unspecific => "syntax error"
  | .missing name => "missing `" ++ name ++ "`"
  | .other text => text

/-- Why there is no outline of a source. -/
inductive AnalysisError where
  /-- The file cannot be read. -/
  | read (cause : String)
  /-- There is no tree. -/
  | noTree (path : String)
  /-- The source is malformed at a place. -/
  | malformed (path : String) (line column : Nat) (complaint : Complaint)
  /-- The file has no package clause. -/
  | missingPackage (path : String)
  deriving DecidableEq, Repr, Inhabited

namespace AnalysisError

/-- The text of an error. -/
def message : AnalysisError → String
  | .read cause => "failed to read file: " ++ cause
  | .noTree path => "failed to parse file: " ++ path ++ ": parser produced no tree"
  | .malformed path line column complaint =>
    "failed to parse file: " ++ path ++ ":" ++ toString line ++ ":" ++ toString column ++ ": " ++
      complaint.message
  | .missingPackage path => "failed to parse file: " ++ path ++ ": expected 'package' clause"

/-- The error is about the source and not about reading the file. -/
def isParseError : AnalysisError → Bool
  | .read _ => false
  | _ => true

end AnalysisError

/-- The most characters of source that are quoted in a complaint. -/
def snippetLength : Nat := 32

/-- The complaint about a fault of a tree. -/
def complaintAbout (fault : Node) : Complaint :=
  if fault.isMissing then
    .missing fault.kind.name
  else
    let line := Blank.trim (fault.text.toList.takeWhile (· != '\n'))
    if line.isEmpty then .unspecific else .near (String.ofList (line.take snippetLength))

/-- An accepted source. -/
structure Parsed where
  path : String
  source : List UInt8
  tree : Node
  deriving Repr, Inhabited

/-- Accepts a source, or says what is wrong with it first. The tree of its text is made by `treeOf`,
and `marked` says of a node whether there is a fault in it. -/
def accept (treeOf : List Char → Node) (marked : Node → Bool) (path : String)
    (source : List UInt8) : Except AnalysisError Parsed :=
  match Utf8.decode source with
  | (text, []) =>
    let tree := treeOf text
    match Tree.firstFault? marked tree with
    | some fault =>
      .error (.malformed path (fault.startRow + 1) (fault.span.start.column + 1)
        (complaintAbout fault))
    | none =>
      if Tree.hasPackageClause tree then .ok ⟨path, source, tree⟩
      else .error (.missingPackage path)
  | (_, _ :: _) =>
    let (line, column) := bytePosition source (Utf8.validLength source)
    .error (.malformed path line column .illegalEncoding)

/-- Accepts a source of the language. -/
def parse (path : String) (source : List UInt8) : Except AnalysisError Parsed :=
  accept Tree.ofSource Node.hasFault path source

/-- A source is accepted when it is a text whose tree has no fault and a package clause. -/
theorem parse_eq_ok_iff {path : String} {source : List UInt8} {p : Parsed} :
    parse path source = .ok p ↔ ∃ text, Utf8.decode source = (text, []) ∧
      Tree.firstFault? Node.hasFault (Tree.ofSource text) = none ∧
      Tree.hasPackageClause (Tree.ofSource text) ∧ p = ⟨path, source, Tree.ofSource text⟩ := by
  unfold parse accept
  constructor
  · intro h
    split at h
    · next text hdecode =>
      dsimp only at h
      split at h
      · cases h
      · next hfault =>
        split at h
        · next hpackage =>
          cases h
          exact ⟨text, hdecode, hfault, hpackage, rfl⟩
        · cases h
    · cases h
  · rintro ⟨text, hdecode, hfault, hpackage, rfl⟩
    rw [hdecode]
    dsimp only
    rw [hfault]
    exact if_pos hpackage

/-- The outline of an accepted source. -/
def Parsed.outline (p : Parsed) : Outline := Outline.ofTree p.path p.tree

/-- The outline of a source, reported under a path. -/
def analyze (path : String) (source : List UInt8) : Except AnalysisError Outline :=
  (parse path source).map Parsed.outline

/-- The sources that have an outline are those that are accepted. -/
theorem analyze_eq_ok_iff {path : String} {source : List UInt8} {o : Outline} :
    analyze path source = .ok o ↔ ∃ p, parse path source = .ok p ∧ o = p.outline := by
  rw [analyze]
  cases parse path source with
  | error e => exact ⟨nofun, nofun⟩
  | ok p =>
    constructor
    · rintro ⟨⟩
      exact ⟨p, rfl, rfl⟩
    · rintro ⟨_, ⟨⟩, rfl⟩
      rfl

end GoOutline
