import GoOutline.Config.Basic
import GoOutline.Files.Walk
import GoOutline.Language

/-!
# The files of a project

## Main definitions

* `Project`: a root and a configuration
* `Project.selects`: whether a file belongs to the project
* `Project.collect`: the files of the project, in the order of their components
-/

namespace GoOutline

/-- A root to look below and the configuration to look with. -/
structure Project where
  root : String
  config : Config := {}
  deriving DecidableEq, Repr, Inhabited

/-- The file holds tests. -/
def isTestFile (name : String) : Bool := "_test.go".toList.isSuffixOf name.toList

namespace Project

/-- How a path is reported in the project. -/
def relative (p : Project) (path : String) : String := Path.relative p.root path

/-- A regular file below the root belongs to the project: it is written in the language, it holds
tests only when those are wanted, and no pattern excludes it. -/
def selects (p : Project) (path : String) : Bool :=
  Language.go.handles ((Path.extension? path).getD "") &&
    (p.config.includeTestFiles || !isTestFile ((Path.fileName? path).getD "")) &&
    !excludes p.config.exclusions (p.relative path)

/-- The files of the project, in the order of their components. -/
def collect (p : Project) (t : FileTree) : Except WalkError (List String) :=
  (t.walk p.root).map fun files => (files.filter p.selects).mergeSort Path.precedes

end Project

end GoOutline
