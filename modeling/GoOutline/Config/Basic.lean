import GoOutline.Glob.Reader
import GoOutline.Json.Mismatch
import GoOutline.Text.Blank
import GoOutline.Text.Quoted

/-!
# Configuration

A configuration says which files of a project are visited and how the result is written. It has no
say in what is reported about a file.

## Main definitions

* `Config`: the settings, with `toJson` and `ofJson`
* `Config.validate`: whether every pattern for excluded paths can be used
* `Config.exclusions`, `excludes`: the patterns in use
-/

namespace GoOutline

/-- The settings of a project run. -/
structure Config where
  /-- Files of tests are visited too. -/
  includeTestFiles : Bool := false
  /-- Patterns of paths that are left out. -/
  excludedPaths : List String := []
  /-- Files may be analyzed at the same time, which makes no difference to the result. -/
  parallel : Bool := true
  /-- JSON is written with indentation. -/
  pretty : Bool := false
  deriving DecidableEq, Repr, Inhabited

/-- A pattern that cannot be used. -/
inductive PatternError where
  /-- The pattern is blank. -/
  | blank
  /-- The pattern is no glob. -/
  | malformed (pattern : String) (cause : Glob.Error)
  deriving DecidableEq, Repr, Inhabited

/-- The text of an error. -/
def PatternError.message : PatternError → String
  | .blank => "invalid excluded_paths pattern: empty pattern"
  | .malformed pattern cause =>
    "invalid excluded_paths pattern " ++ Text.Quoted.quote pattern ++ ": error parsing glob '" ++
      pattern ++ "': " ++ cause.message

/-- The pattern can be used. -/
def checkPattern (pattern : String) : Except PatternError Unit :=
  if (Text.Blank.trim pattern.toList).isEmpty then .error .blank
  else
    match Glob.read pattern with
    | .ok _ => .ok ()
    | .error e => .error (.malformed pattern e)

/-- Checks patterns in turn. -/
def checkPatterns : List String → Except PatternError Unit
  | [] => .ok ()
  | pattern :: rest =>
    match checkPattern pattern with
    | .ok () => checkPatterns rest
    | .error e => .error e

/-- Some pattern stands for the path. -/
def excludes (patterns : List Glob.Pattern) (path : String) : Bool :=
  patterns.any (·.accepts path)

namespace Config

/-- Every pattern can be used. -/
def validate (c : Config) : Except PatternError Unit := checkPatterns c.excludedPaths

/-- The patterns in use. One that is no glob is left out. -/
def exclusions (c : Config) : List Glob.Pattern :=
  c.excludedPaths.filterMap fun pattern => (Glob.read pattern).toOption

/-- A configuration as JSON. -/
def toJson (c : Config) : Json := .object [
  ("include_test_files", .bool c.includeTestFiles),
  ("excluded_paths", .array (c.excludedPaths.map .string)), ("parallel", .bool c.parallel),
  ("pretty", .bool c.pretty)]

/-- A member that may be left out. -/
def settingOr {α : Type} (read : Json → Except Json.Mismatch α) (default : α) (key : String)
    (v : Json) : Except Json.Mismatch α :=
  match v.field? key with
  | none => .ok default
  | some value => read value

open Json in
/-- A configuration from JSON. Every member may be left out; the first one in the order of names
that is of the wrong kind is reported. -/
def ofJson (v : Json) : Except Mismatch Config :=
  match v with
  | .object _ => do
    let excludedPaths ← settingOr (expectList expectText) [] "excluded_paths" v
    let includeTestFiles ← settingOr expectBool false "include_test_files" v
    let parallel ← settingOr expectBool true "parallel" v
    let pretty ← settingOr expectBool false "pretty" v
    return { includeTestFiles, excludedPaths, parallel, pretty }
  | _ => .error ⟨v, "struct Config"⟩

end Config

end GoOutline
