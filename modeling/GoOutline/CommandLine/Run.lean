import GoOutline.CommandLine.Parser
import GoOutline.Config.Load
import GoOutline.Json.Printer
import GoOutline.Project.Analysis
import GoOutline.Project.Report

/-!
# Running a command line

What a command line writes and the code it ends with, on a given tree of files.

## Main definitions

* `Output`: what is written, and the exit code
* `runFile`, `runProject`: the two commands
* `run`: a whole command line
-/

namespace GoOutline.CommandLine

/-- What a run writes, and the code it ends with. -/
structure Output where
  exitCode : Nat := 0
  stdout : String := ""
  stderr : String := ""
  deriving DecidableEq, Repr, Inhabited

/-- The exit code of a run that did its work. -/
def successCode : Nat := 0

/-- The exit code when a file has no outline. -/
def failureCode : Nat := 1

/-- The exit code when the run could not do its work. -/
def errorCode : Nat := 2

/-- A value as one document. -/
def document (pretty : Bool) (v : Json) : String := v.render pretty ++ "\n"

/-! ## One file -/

/-- The outcome of the command for one file: its outline, or what is reported in its place. -/
def fileOutcome (t : FileTree) (a : FileArguments) : Except FailedOutline Outline :=
  match a.path with
  | none => .error ⟨"No file path provided", none⟩
  | some path =>
    match analyzeFile t path with
    | .error e => .error ⟨e.message, some path⟩
    | .ok outline => .ok outline

/-- Runs the command for one file. Whatever comes of it is one document. -/
def runFile (t : FileTree) (a : FileArguments) : Output :=
  match fileOutcome t a with
  | .ok outline => { exitCode := successCode, stdout := document a.pretty outline.toJson }
  | .error failed => { exitCode := failureCode, stdout := document a.pretty failed.toJson }

/-! ## A project -/

/-- The configuration with the settings of the command line, which only ever turn something on. -/
def applyFlags (a : ProjectArguments) (c : Config) : Config :=
  { c with
    includeTestFiles := c.includeTestFiles || a.includeTests
    parallel := c.parallel && !a.sequential }

/-- Where the configuration of a project is looked for: in the root, or next to it when it is a
file. -/
def configRoot (path : String) (entry : Entry) : String :=
  if entry.isDirectory then path else (Path.parent? path).getD "."

/-- The end of a run that could not do its work. -/
def errorOutput (message : String) : Output :=
  { exitCode := errorCode, stderr := "Error: " ++ message ++ "\n" }

/-- The outline of a project in a format. -/
def projectText (colored : Bool) (a : ProjectArguments) (pretty : Bool) (o : ProjectOutline) :
    String :=
  match a.format with
  | .json => document pretty o.toJson
  | .pretty => o.report colored a.path

/-- The warning that a project has no files. -/
def emptyWarning (path : String) (files : List String) : String :=
  if files.isEmpty then "Warning: no Go files found under " ++ path ++ "\n" else ""

/-- Runs the command for a project with a configuration. -/
def runWithConfig (t : FileTree) (colored : Bool) (a : ProjectArguments) (config : Config) :
    Output :=
  let project : Project := ⟨a.path, config⟩
  match project.collect t with
  | .error e => errorOutput e.message
  | .ok files =>
    { exitCode := successCode
      stdout := projectText colored a config.pretty (project.analyze t files)
      stderr := emptyWarning a.path files ++ (project.analyzeFiles t files).warnings }

/-- Runs the command for a project. -/
def runProject (t : FileTree) (colored : Bool) (a : ProjectArguments) : Output :=
  match t.stat a.path with
  | .error e =>
    errorOutput ("cannot access path " ++ Text.Quoted.quotePath a.path ++ ": " ++ e.message)
  | .ok (_, entry) =>
    match Config.load t (configRoot a.path entry) a.config with
    | .error e => errorOutput ("invalid config: " ++ e.message)
    | .ok (config, _) => runWithConfig t colored a (applyFlags a config)

/-! ## Command lines -/

/-- Runs a command. -/
def runCommand (t : FileTree) (colored : Bool) : Command → Output
  | .file a => runFile t a
  | .project a => runProject t colored a

/-- What is written instead of a run. -/
def refuse : Refusal → Output
  | .text content => { exitCode := successCode, stdout := content }
  | .nothingAsked => { exitCode := errorCode, stderr := mainHelp }
  | .wrong error => { exitCode := errorCode, stderr := error.message }

/-- Runs a command line on a tree of files. -/
def run (t : FileTree) (colored : Bool) (arguments : List String) : Output :=
  match parse arguments with
  | .ok command => runCommand t colored command
  | .error refusal => refuse refusal

end GoOutline.CommandLine
