import GoOutline.CommandLine.Run
import GoOutline.CommandLine.Terminal
import Std.Data.HashSet

/-!
# The program

The program takes in the part of the disk that a command line speaks of, runs the command line on
it, and writes what comes of it. Everything but the reading and the writing is the work of
`CommandLine.run`.

## Main definitions

* `Survey`: the part of the disk that has been taken in
* `Survey.takeIn`, `Survey.ofCommand`: taking in what a command speaks of
* `main`: the program
-/

namespace GoOutline

/-- The part of the disk that has been taken in. -/
structure Survey where
  /-- What the root of the disk holds, as far as it is known. -/
  root : List (String × Entry) := []
  /-- The directories whose entries are all taken in. -/
  complete : Std.HashSet String := {}

namespace Survey

/-- Where a link that cannot be followed is said to lead: to itself when links go round in circles,
and otherwise to a name that no directory can hold. -/
def brokenTarget (entry : IO.FS.DirEntry) : IO String := do
  try
    let _ ← entry.path.metadata
    return "\x00"
  catch
    | .noFileOrDirectory .. => return "\x00"
    | _ => return entry.fileName

/-- Where a link leads. -/
def linkTarget (entry : IO.FS.DirEntry) : IO String := do
  try return (← IO.FS.realPath entry.path).toString
  catch _ => brokenTarget entry

/-- What stands on the disk, without anything that is below it. The content of a file is read when
it is wanted. -/
def readEntry (entry : IO.FS.DirEntry) (wanted : Bool) : IO (Option Entry) := do
  try
    match (← entry.path.symlinkMetadata).type with
    | .dir => return some (.directory [])
    | .file =>
      let content ← if wanted then IO.FS.readBinFile entry.path else pure .empty
      return some (.file content.toList)
    | .symlink => return some (.link (← linkTarget entry))
    | .other => return none
  catch _ => return none

/-- The names that a directory holds; what is no directory that can be read holds none. -/
def namesIn (directory : String) : IO (List String) := do
  try return (← IO.FS.DirEntry.root ⟨directory, ""⟩ |>.readDir).toList.map (·.fileName)
  catch _ => return []

/-- Puts an entry in its place below a directory. -/
def put (s : Survey) (path : String) (entry : Entry) : Survey :=
  { s with root := FileTree.insertEntry entry ((Path.segments path).filter (· != "")) s.root }

/-- Takes in everything on the way from a directory along some segments and, with `below`,
everything that is below their end. The directory is given by its real path. -/
partial def takeIn (s : Survey) (below : Bool) (here : String) : List String → IO Survey
  | [] => do
    if !below || s.complete.contains here then return s
    (← namesIn here).foldlM (fun s name => s.takeIn (!isPruned name) here [name])
      { s with complete := s.complete.insert here }
  | name :: rest => do
    if name == "" || name == "." then s.takeIn below here rest
    else if name == ".." then s.takeIn below ((Path.parent? here).getD here) rest
    else
      let path := Path.join here name
      let wanted := !below || Language.go.handles ((Path.extension? name).getD "")
      match ← readEntry ⟨here, name⟩ wanted with
      | none => return s
      | some (.link target) =>
        let start := if Path.isAbsolute target then "/" else here
        if target == name || target == "\x00" then return s.put path (.link target)
        else (s.put path (.link target)).takeIn below start (Path.segments target ++ rest)
      | some entry => (s.put path entry).takeIn below path rest

/-- Takes in what a path leads to. -/
def takePath (s : Survey) (below : Bool) (workingDirectory path : String) : IO Survey :=
  s.takeIn below (if Path.isAbsolute path then "/" else workingDirectory) (Path.segments path)

/-- Takes in what a command speaks of. -/
def ofCommand (workingDirectory : String) : CommandLine.Command → IO Survey
  | .file a => a.path.toList.foldlM (fun s path => s.takePath false workingDirectory path) {}
  | .project a => do
    let s ← takePath {} true workingDirectory a.path
    let configs := [a.path, (Path.parent? a.path).getD "."].flatMap fun root =>
      configNames.map (Path.join root)
    (a.config.toList ++ configs).foldlM (fun s path => s.takePath false workingDirectory path) s

end Survey

/-- The tree of files that a command line is run on. -/
def fileTree (arguments : List String) : IO FileTree := do
  let workingDirectory := (← IO.FS.realPath (← IO.currentDir)).toString
  let survey ←
    match CommandLine.parse arguments with
    | .ok command => Survey.ofCommand workingDirectory command
    | .error _ => pure {}
  let survey ← survey.takeIn false "/" (Path.segments workingDirectory)
  return ⟨survey.root, (Path.segments workingDirectory).filter (· != "")⟩

/-- The terminal that the program writes to. -/
def terminal : IO CommandLine.Terminal := do
  return {
    isTerminal := ← (← IO.getStdout).isTty
    color := ← IO.getEnv "CLICOLOR"
    noColor := ← IO.getEnv "NO_COLOR"
    forceColor := ← IO.getEnv "CLICOLOR_FORCE" }

end GoOutline

/-- Runs the command line of the program. -/
def main (arguments : List String) : IO UInt32 := do
  let colored := (← GoOutline.terminal).colored
  let output := GoOutline.CommandLine.run (← GoOutline.fileTree arguments) colored arguments
  IO.print output.stdout
  IO.eprint output.stderr
  return output.exitCode.toUInt32
