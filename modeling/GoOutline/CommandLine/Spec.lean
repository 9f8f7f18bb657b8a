/-!
# Commands and their arguments

What each command accepts, and the texts that explain it.

## Main definitions

* `Switch`: an argument with a name
* `CommandSpec`: what a command accepts
* `CommandSpec.usage`: how a command is used, given the switches that matter
* `mainSpec`, `fileSpec`, `projectSpec`: the commands there are
* `mainHelp`, `fileHelp`, `projectHelp`, `helpHelp`, `versionText`: the texts about them
-/

namespace GoOutline.CommandLine

/-- An argument with a name. -/
structure Switch where
  long : String
  short : Option Char := none
  /-- What its value is called, when it takes one. -/
  valueName : Option String := none
  /-- The values there are, when not every text is one. -/
  choices : List String := []
  deriving DecidableEq, Repr, Inhabited

/-- The switch as it is written in messages. -/
def Switch.title (s : Switch) : String :=
  "--" ++ s.long ++ (match s.valueName with
    | some name => " <" ++ name ++ ">"
    | none => "")

/-- What a command accepts. -/
structure CommandSpec where
  /-- The words that call the command. -/
  words : String
  switches : List Switch
  /-- What its argument without a name is called, when it takes one. -/
  operand : Option String := none
  deriving DecidableEq, Repr, Inhabited

/-- A switch that shows a text and nothing else. -/
def helpSwitch : Switch := { long := "help", short := some 'h' }

/-- A switch that shows the version and nothing else. -/
def versionSwitch : Switch := { long := "version", short := some 'V' }

/-- A switch for indented output. -/
def prettySwitch : Switch := { long := "pretty" }

/-- A switch that names a configuration file. -/
def configSwitch : Switch := { long := "config", short := some 'c', valueName := some "CONFIG" }

/-- A switch that chooses a format. -/
def formatSwitch : Switch :=
  { long := "format", short := some 'f', valueName := some "FORMAT", choices := ["json", "pretty"] }

/-- A switch for files of tests. -/
def includeTestsSwitch : Switch := { long := "include-tests" }

/-- A switch for one file at a time. -/
def sequentialSwitch : Switch := { long := "sequential" }

/-- What stands before the name of a command. -/
def mainSpec : CommandSpec := { words := "goanalyze", switches := [helpSwitch, versionSwitch] }

/-- The command for one file. -/
def fileSpec : CommandSpec where
  words := "goanalyze file"
  switches := [prettySwitch, helpSwitch]
  operand := some "PATH"

/-- The command for a project. -/
def projectSpec : CommandSpec where
  words := "goanalyze project"
  switches := [configSwitch, formatSwitch, includeTestsSwitch, sequentialSwitch, helpSwitch]
  operand := some "PATH"

namespace CommandSpec

/-- The operand as it is written in messages. -/
def operandTitle (c : CommandSpec) : String := "[" ++ c.operand.getD "" ++ "]"

/-- How a command is used. When some of its arguments matter, those are shown; without an operand
the name of a command follows. -/
def usage (c : CommandSpec) (used : Option (List Switch)) : String :=
  let switches :=
    match used with
    | some switches => String.join (switches.map (" " ++ ·.title))
    | none => if c.operand.isSome then " [OPTIONS]" else ""
  "Usage: " ++ c.words ++ switches ++
    (if c.operand.isSome then " " ++ c.operandTitle else " <COMMAND>")

/-- The switch of a long name. -/
def switch? (c : CommandSpec) (long : String) : Option Switch := c.switches.find? (·.long == long)

/-- The switch of a letter. -/
def letter? (c : CommandSpec) (short : Char) : Option Switch :=
  c.switches.find? (·.short == some short)

end CommandSpec

/-! ## Texts -/

/-- The name and the version of the program. -/
def versionText : String := "goanalyze 0.1.0\n"

/-- The text about the program. -/
def mainHelp : String :=
  "Single-file Go source analyzer - extracts declared symbols and documentation coverage\n\n" ++
  "Usage: goanalyze <COMMAND>\n\n" ++
  "Commands:\n" ++
  "  file     Analyze a single Go file and print the result as JSON [alias: analyze]\n" ++
  "  project  Analyze every Go file under a directory\n" ++
  "  help     Print this message or the help of the given subcommand(s)\n\n" ++
  "Options:\n" ++
  "  -h, --help     Print help\n" ++
  "  -V, --version  Print version\n"

/-- The text about the command for one file. -/
def fileHelp : String :=
  "Analyze a single Go file and print the result as JSON\n\n" ++
  "Usage: goanalyze file [OPTIONS] [PATH]\n\n" ++
  "Arguments:\n" ++
  "  [PATH]  Go source file to analyze\n\n" ++
  "Options:\n" ++
  "      --pretty  Indent the JSON output\n" ++
  "  -h, --help    Print help\n"

/-- The text about the command for a project. -/
def projectHelp : String :=
  "Analyze every Go file under a directory\n\n" ++
  "Usage: goanalyze project [OPTIONS] [PATH]\n\n" ++
  "Arguments:\n" ++
  "  [PATH]  Project root (default: current directory) [default: .]\n\n" ++
  "Options:\n" ++
  "  -c, --config <CONFIG>  Path to config YAML file (default: auto-discover in the root)\n" ++
  "  -f, --format <FORMAT>  Output format [default: json] [possible values: json, pretty]\n" ++
  "      --include-tests    Also analyze _test.go files\n" ++
  "      --sequential       Analyze files one at a time instead of in parallel\n" ++
  "  -h, --help             Print help\n"

/-- The text about the command that shows these texts. -/
def helpHelp : String :=
  "Print this message or the help of the given subcommand(s)\n\n" ++
  "Usage: goanalyze help [COMMAND]...\n\n" ++
  "Arguments:\n" ++
  "  [COMMAND]...  Print help for the subcommand(s)\n"

end GoOutline.CommandLine
