import GoOutline.CommandLine.Refusal
import GoOutline.CommandLine.Similarity

/-!
# Reading a command line

The arguments of a command are read from left to right. A switch that takes a value waits for it in
the next argument; what an argument stands for is checked when the next one is read, or at the end.
After two hyphens every argument is an operand.

## Main definitions

* `Command`: what a command line asks for
* `Progress`: the arguments read so far, and `Progress.settle`
* `parseArguments`: the arguments of one command
* `parse`: a whole command line
-/

namespace GoOutline.CommandLine

/-- How the outline of a project is written. -/
inductive Format where
  | json | pretty
  deriving DecidableEq, Repr, Inhabited

/-- The arguments of the command for one file. -/
structure FileArguments where
  path : Option String := none
  pretty : Bool := false
  deriving DecidableEq, Repr, Inhabited

/-- The arguments of the command for a project. -/
structure ProjectArguments where
  path : String := "."
  config : Option String := none
  format : Format := .json
  includeTests : Bool := false
  sequential : Bool := false
  deriving DecidableEq, Repr, Inhabited

/-- What a command line asks for. -/
inductive Command where
  | file (arguments : FileArguments)
  | project (arguments : ProjectArguments)
  deriving DecidableEq, Repr, Inhabited

/-- What a value is given to. -/
inductive Slot where
  | switch (s : Switch)
  | operand
  deriving DecidableEq, Repr, Inhabited

/-- The arguments read so far. -/
structure Progress where
  /-- What has been given, in order. -/
  given : List (Slot × String) := []
  /-- What has been named but not checked, with its value when that has been read. -/
  pending : Option (Slot × Option String) := none
  /-- Two hyphens have been read. -/
  operandsOnly : Bool := false
  deriving DecidableEq, Repr, Inhabited

namespace Slot

/-- What a value is given to, as written in messages. -/
def title (spec : CommandSpec) : Slot → String
  | .switch s => s.title
  | .operand => spec.operandTitle

/-- The values there are. -/
def choices : Slot → List String
  | .switch s => s.choices
  | .operand => []

/-- Checks a value. -/
def check (spec : CommandSpec) (slot : Slot) (value : String) : Except Refusal Unit :=
  let choices := slot.choices
  if value == "" then .error (.wrong (.missingValue (slot.title spec) choices))
  else if choices.isEmpty || choices.contains value then .ok ()
  else
    let tip := (Similarity.similarTo value choices).getLast?.map Tip.similarValue
    .error (.wrong (.invalidValue value (slot.title spec) choices tip))

end Slot

namespace Progress

/-- Something has been given a value. -/
def has (p : Progress) (slot : Slot) : Bool := p.given.any (·.1 == slot)

/-- The operand has been read. -/
def hasOperand (p : Progress) : Bool :=
  p.has .operand || (match p.pending with
    | some (.operand, _) => true
    | _ => false)

/-- Checks what is pending and adds it to what is given. -/
def settle (spec : CommandSpec) (p : Progress) : Except Refusal Progress :=
  match p.pending with
  | none => .ok p
  | some (slot, none) => .error (.wrong (.missingValue (slot.title spec) slot.choices))
  | some (slot, some value) =>
    -- whether it is given twice is asked before its value is looked at
    if p.has slot then .error (.wrong (.repeated (slot.title spec) (spec.usage none)))
    else do
      slot.check spec value
      return { p with given := p.given ++ [(slot, value)], pending := none }

/-- What has been given, with what is pending added unchecked. -/
def settled (p : Progress) : List Slot :=
  p.given.map (·.1) ++ (match p.pending with
    | some (slot, some _) => if p.has slot then [] else [slot]
    | _ => [])

/-- How the command is used with some arguments. Nothing given is as good as no arguments at all. -/
def usageWith (spec : CommandSpec) (slots : List Slot) : String :=
  if slots.isEmpty then spec.usage none
  else
    spec.usage (some (slots.filterMap fun
      | .switch s => some s
      | .operand => none))

/-- A switch without a value. -/
def flag (spec : CommandSpec) (help : String) (s : Switch) (p : Progress) :
    Except Refusal Progress := do
  let p ← p.settle spec
  if s == helpSwitch then .error (.text help)
  else if s == versionSwitch then .error (.text versionText)
  else if p.has (.switch s) then .error (.wrong (.repeated s.title (spec.usage none)))
  else return { p with given := p.given ++ [(.switch s, "true")] }

/-- A switch with its value in the same argument. -/
def attached (spec : CommandSpec) (s : Switch) (value : String) (p : Progress) :
    Except Refusal Progress := do
  let p ← p.settle spec
  ({ p with pending := some (.switch s, some value) } : Progress).settle spec

/-- A switch with its value in the next argument. -/
def awaiting (spec : CommandSpec) (s : Switch) (p : Progress) : Except Refusal Progress := do
  let p ← p.settle spec
  return { p with pending := some (.switch s, none) }

end Progress

/-! ## Arguments -/

/-- The part of an argument before its first equals sign, and the part after it. -/
def splitEquals (text : List Char) : String × Option String :=
  let name := String.ofList (text.takeWhile (· != '='))
  match text.dropWhile (· != '=') with
  | [] => (name, none)
  | _ :: value => (name, some (String.ofList value))

/-- The advice on a switch that a command does not have. `elsewhere` finds it in other commands. -/
def switchTip (spec : CommandSpec) (elsewhere : String → Option Tip) (long : String) :
    Option Switch × Option Tip :=
  match ((Similarity.similarTo long (spec.switches.map (·.long))).getLast?).bind spec.switch? with
  | some s => (some s, some (.similarSwitch s.long))
  | none =>
    match elsewhere long with
    | some tip => (none, some tip)
    | none => (none, if spec.operand.isSome then some (.asValue ("--" ++ long)) else none)

/-- An argument that starts with two hyphens, without them. -/
def longArgument (spec : CommandSpec) (help : String) (elsewhere : String → Option Tip)
    (text : List Char) (p : Progress) : Except Refusal Progress :=
  let (long, value) := splitEquals text
  match spec.switch? long with
  | some s =>
    match s.valueName, value with
    | none, none => p.flag spec help s
    | some _, none => p.awaiting spec s
    | some _, some value => p.attached spec s value
    | none, some value =>
      let slots := p.given.map (·.1)
      let slots := if slots.contains (.switch s) then slots else slots ++ [.switch s]
      .error (.wrong (.unexpectedValue value s.title (Progress.usageWith spec slots)))
  | none =>
    let (similar, tip) := switchTip spec elsewhere long
    let slots := p.settled
    let slots :=
      match similar with
      | some s => if slots.contains (.switch s) then slots else slots ++ [.switch s]
      | none => slots
    .error (.wrong (.unexpectedArgument ("--" ++ long) tip (Progress.usageWith spec slots)))

/-- The letters of an argument that starts with one hyphen. -/
def shortArguments (spec : CommandSpec) (help : String) :
    List Char → Progress → Except Refusal Progress
  | [], p => .ok p
  | c :: rest, p =>
    match spec.letter? c with
    | none =>
      let argument := "-" ++ c.toString
      let tip := if spec.operand.isSome then some (Tip.asValue argument) else none
      .error (.wrong (.unexpectedArgument argument tip (spec.usage none)))
    | some s =>
      match s.valueName, rest with
      | none, _ => do
        let p ← p.flag spec help s
        shortArguments spec help rest p
      | some _, [] => p.awaiting spec s
      -- the other letters are its value, with an equals sign before them or not
      | some _, '=' :: value => p.attached spec s (String.ofList value)
      | some _, value => p.attached spec s (String.ofList value)

/-- An argument without a name. -/
def operandArgument (spec : CommandSpec) (argument : String) (p : Progress) :
    Except Refusal Progress :=
  if spec.operand.isSome && !p.hasOperand then do
    let p ← p.settle spec
    return { p with pending := some (.operand, some argument) }
  else .error (.wrong (.unexpectedArgument argument none (spec.usage none)))

/-- Reads one argument of a command. -/
def readArgument (spec : CommandSpec) (help argument : String) (p : Progress) :
    Except Refusal Progress :=
  if p.operandsOnly then operandArgument spec argument p
  else
    match argument.toList with
    | ['-', '-'] => .ok { p with operandsOnly := true }
    | '-' :: '-' :: text => longArgument spec help (fun _ => none) text p
    | '-' :: c :: letters => shortArguments spec help (c :: letters) p
    | _ =>
      -- a switch that waits for its value takes the argument
      match p.pending with
      | some (slot, none) => .ok { p with pending := some (slot, some argument) }
      | _ => operandArgument spec argument p

/-- Reads the arguments of a command. -/
def parseArguments (spec : CommandSpec) (help : String) :
    List String → Progress → Except Refusal Progress
  | [], p => p.settle spec
  | argument :: rest, p =>
    match readArgument spec help argument p with
    | .error e => .error e
    | .ok p => parseArguments spec help rest p

namespace Progress

/-- The value that has been given to something. -/
def value? (p : Progress) (slot : Slot) : Option String := p.given.lookup slot

/-- The arguments of the command for one file. -/
def toFileArguments (p : Progress) : FileArguments where
  path := p.value? .operand
  pretty := p.has (.switch prettySwitch)

/-- The arguments of the command for a project. -/
def toProjectArguments (p : Progress) : ProjectArguments where
  path := (p.value? .operand).getD "."
  config := p.value? (.switch configSwitch)
  format := if p.value? (.switch formatSwitch) == some "pretty" then .pretty else .json
  includeTests := p.has (.switch includeTestsSwitch)
  sequential := p.has (.switch sequentialSwitch)

end Progress

/-! ## Commands -/

/-- The names of the commands, other names included. -/
def commandNames : List String := ["file", "analyze", "project", "help"]

/-- The text about a command. -/
def helpOf? : String → Option String
  | "file" | "analyze" => some fileHelp
  | "project" => some projectHelp
  | "help" => some helpHelp
  | _ => none

/-- The text that the command `help` shows for some names. -/
def parseHelp : List String → Refusal
  | [] => .text mainHelp
  | name :: rest =>
    match helpOf? name, rest with
    | none, _ => .wrong (.unknownCommand name [] (mainSpec.usage none))
    | some text, [] => .text text
    | some _, next :: _ => .wrong (.unknownCommand next [] (mainSpec.usage none))

/-- A command that has a switch of a similar name, of those that follow on the command line. -/
def commandWithSwitch? (following : List String) (long : String) : Option Tip :=
  let candidates := [("file", fileSpec), ("project", projectSpec)].filterMap fun (name, spec) => do
    let candidate ← (Similarity.similarTo long (spec.switches.map (·.long))).getLast?
    let place ← following.findIdx? (· == name)
    return (place, Tip.switchOfCommand name candidate)
  match candidates with
  | [] => none
  | [(_, tip)] => some tip
  -- the command that comes first on the line counts
  | (i, first) :: (j, second) :: _ => some (if j < i then second else first)

/-- A word that is no command. -/
def notACommand (afterHyphens : Bool) (word : String) : Refusal :=
  let usage := mainSpec.usage none
  if afterHyphens && commandNames.contains word then
    .wrong (.unexpectedArgument word (some (.hiddenCommand word)) usage)
  else .wrong (.unknownCommand word (Similarity.similarTo word commandNames) usage)

/-- Reads the arguments of a named command. -/
def parseCommand (name : String) (rest : List String) : Except Refusal Command :=
  match name with
  | "file" | "analyze" =>
    (parseArguments fileSpec fileHelp rest {}).map fun p => .file p.toFileArguments
  | "project" =>
    (parseArguments projectSpec projectHelp rest {}).map fun p => .project p.toProjectArguments
  | _ => .error (parseHelp rest)

/-- What a command line asks for. -/
def parse : List String → Except Refusal Command
  | [] => .error .nothingAsked
  | argument :: rest =>
    if commandNames.contains argument then parseCommand argument rest
    else
      match argument.toList with
      | ['-', '-'] =>
        match rest with
        | [] => .error .nothingAsked
        | word :: _ => .error (notACommand true word)
      | '-' :: '-' :: text =>
        match longArgument mainSpec mainHelp (commandWithSwitch? rest) text {} with
        | .error e => .error e
        | .ok _ => .error .nothingAsked
      | '-' :: c :: letters =>
        match shortArguments mainSpec mainHelp (c :: letters) {} with
        | .error e => .error e
        | .ok _ => .error .nothingAsked
      | _ => .error (notACommand false argument)

end GoOutline.CommandLine
