import GoOutline.CommandLine.Spec

/-!
# When nothing is run

A command line may ask for a text instead of a run, or it may be wrong.

## Main definitions

* `UsageError`: what is wrong with a command line, and `UsageError.message`
* `Refusal`: what is shown instead of a run
-/

namespace GoOutline.CommandLine

/-- Advice that comes with an error. -/
inductive Tip where
  /-- There is a switch of a similar name. -/
  | similarSwitch (long : String)
  /-- There are commands of similar names. -/
  | similarCommands (names : List String)
  /-- There is a value of a similar spelling. -/
  | similarValue (value : String)
  /-- A command has a switch of a similar name. -/
  | switchOfCommand (command long : String)
  /-- The argument can be meant as a value. -/
  | asValue (argument : String)
  /-- A command is hidden behind the mark that ends the switches. -/
  | hiddenCommand (name : String)
  deriving DecidableEq, Repr, Inhabited

/-- The text of a piece of advice. -/
def Tip.message : Tip → String
  | .similarSwitch long => "a similar argument exists: '--" ++ long ++ "'"
  | .similarCommands [name] => "a similar subcommand exists: '" ++ name ++ "'"
  | .similarCommands names =>
    "some similar subcommands exist: " ++ ", ".intercalate (names.map fun n => "'" ++ n ++ "'")
  | .similarValue value => "a similar value exists: '" ++ value ++ "'"
  | .switchOfCommand command long => "'" ++ command ++ " --" ++ long ++ "' exists"
  | .asValue argument =>
    "to pass '" ++ argument ++ "' as a value, use '-- " ++ argument ++ "'"
  | .hiddenCommand name =>
    "subcommand '" ++ name ++ "' exists; to use it, remove the '--' before it"

/-- What is wrong with a command line. -/
inductive UsageError where
  /-- An argument has no meaning. -/
  | unexpectedArgument (argument : String) (tip : Option Tip) (usage : String)
  /-- There is no such command. -/
  | unknownCommand (name : String) (similar : List String) (usage : String)
  /-- A value is not one of those there are. -/
  | invalidValue (value argument : String) (choices : List String) (tip : Option Tip)
  /-- A value is missing or empty. -/
  | missingValue (argument : String) (choices : List String)
  /-- A value is given to a switch that takes none. -/
  | unexpectedValue (value argument usage : String)
  /-- A switch is given twice. -/
  | repeated (argument usage : String)
  deriving DecidableEq, Repr, Inhabited

/-- The values there are, on a line of their own. -/
def choicesLine (choices : List String) : String :=
  if choices.isEmpty then "" else "\n  [possible values: " ++ ", ".intercalate choices ++ "]"

/-- Advice in a paragraph of its own. -/
def tipParagraph (tip : Option Tip) : String :=
  match tip with
  | some tip => "\n\n  tip: " ++ tip.message
  | none => ""

/-- The text of an error. -/
def UsageError.message (e : UsageError) : String :=
  let body :=
    match e with
    | .unexpectedArgument argument tip usage =>
      "unexpected argument '" ++ argument ++ "' found" ++ tipParagraph tip ++ "\n\n" ++ usage
    | .unknownCommand name similar usage =>
      let tip := if similar.isEmpty then none else some (Tip.similarCommands similar)
      "unrecognized subcommand '" ++ name ++ "'" ++ tipParagraph tip ++ "\n\n" ++ usage
    | .invalidValue value argument choices tip =>
      "invalid value '" ++ value ++ "' for '" ++ argument ++ "'" ++ choicesLine choices ++
        tipParagraph tip
    | .missingValue argument choices =>
      "a value is required for '" ++ argument ++ "' but none was supplied" ++ choicesLine choices
    | .unexpectedValue value argument usage =>
      "unexpected value '" ++ value ++ "' for '" ++ argument ++
        "' found; no more were expected\n\n" ++ usage
    | .repeated argument usage =>
      "the argument '" ++ argument ++ "' cannot be used multiple times\n\n" ++ usage
  "error: " ++ body ++ "\n\nFor more information, try '--help'.\n"

/-- What is shown instead of a run. -/
inductive Refusal where
  /-- A text that was asked for. -/
  | text (content : String)
  /-- The text about the program, because nothing was asked for. -/
  | nothingAsked
  /-- The command line is wrong. -/
  | wrong (error : UsageError)
  deriving DecidableEq, Repr, Inhabited

end GoOutline.CommandLine
