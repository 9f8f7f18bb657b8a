import GoOutline.Analysis
import GoOutline.Project.Basic
import GoOutline.Project.Collect

/-!
# The analysis of a project

Every file is analyzed by itself and reported under its path relative to the root. Files that cannot
be read or parsed are reported apart.

## Main definitions

* `Project.analyzeFile`: one file
* `Project.oneByOne`, `Project.atOnce`: the results of some files, one after another or at the same
  time
* `Project.analyzeFiles`: the outlines and the failures, each in the order of the reported paths
* `Project.analyze`: the outline of the project
-/

namespace GoOutline

/-- The outline of a file of a tree, reported under its path. -/
def analyzeFile (t : FileTree) (path : String) : Except AnalysisError Outline :=
  match t.read path with
  | .error e => .error (.read e.message)
  | .ok source => analyze path source

namespace Project

/-- The outline of a file, or what is reported in its place. -/
def analyzeFile (p : Project) (t : FileTree) (path : String) : Except FailedOutline Outline :=
  let reported := p.relative path
  match t.read path with
  | .error e => .error ⟨(AnalysisError.read e.message).message, some reported⟩
  | .ok source =>
    match analyze reported source with
    | .error e => .error ⟨e.message, some reported⟩
    | .ok outline => .ok outline

/-- What came of some files: the outlines, and the failures. -/
structure Results where
  analyzed : List Outline
  failed : List FailedOutline
  deriving Repr, Inhabited

/-- The outlines and the failures among some results, each in the order of their paths. -/
def Results.ofList (results : List (Except FailedOutline Outline)) : Results where
  analyzed := (results.filterMap fun
    | .ok o => some o
    | .error _ => none).mergeSort fun a b => a.path ≤ b.path
  failed := (results.filterMap fun
    | .ok _ => none
    | .error f => some f).mergeSort fun a b => a.path.getD "" ≤ b.path.getD ""

/-- The results of some files that are analyzed one after another. -/
def oneByOne (p : Project) (t : FileTree) (paths : List String) :
    List (Except FailedOutline Outline) :=
  paths.map (p.analyzeFile t)

/-- Results that are put in the places of their files, in the order in which they get ready. -/
def asReady {α β : Type} (f : α → β) (xs : List α) (ready : List Nat) : List (Option β) :=
  ready.foldl (fun places i => places.set i (xs[i]?.map f)) (List.replicate xs.length none)

/-- The results of some files that are analyzed at the same time and get ready in some order. -/
def atOnce (p : Project) (t : FileTree) (paths : List String) (ready : List Nat) :
    List (Except FailedOutline Outline) :=
  (asReady (p.analyzeFile t) paths ready).filterMap id

/-- The outlines of some files, and the failures. -/
def analyzeFiles (p : Project) (t : FileTree) (paths : List String) : Results :=
  -- which file is ready first is not known: one order stands for all, and they do not differ
  .ofList (if p.config.parallel then p.atOnce t paths (List.range paths.length)
    else p.oneByOne t paths)

/-- The warning about a file without an outline. -/
def warning (f : FailedOutline) : String := "Warning: Failed to analyze file: " ++ f.error ++ "\n"

/-- The warnings about the files without an outline. -/
def Results.warnings (r : Results) : String := String.join (r.failed.map warning)

/-- The outline of the project made of some files. -/
def analyze (p : Project) (t : FileTree) (paths : List String) : ProjectOutline :=
  .ofOutlines (p.analyzeFiles t paths).analyzed

end Project

end GoOutline
