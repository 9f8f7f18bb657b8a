import GoOutline.Config.Reader
import GoOutline.Files.Tree

/-!
# The configuration of a project

The configuration of a project stands in a file that is named, or else in the first file of a few
names that the root of the project holds. Without any, the defaults hold. A configuration from a
file is checked before it is used.

## Main definitions

* `configNames`, `discoverConfig?`: the file at the root of a project
* `LoadError`: why there is no configuration
* `Config.load`: the configuration of a project and the file it comes from
-/

namespace GoOutline

/-- The names of configuration files, in the order in which they are tried. -/
def configNames : List String := ["goanalyze.yaml", ".goanalyze.yaml"]

/-- The configuration file at a root. -/
def discoverConfig? (t : FileTree) (root : String) : Option String :=
  (configNames.map (Path.join root)).find? t.isFile

/-- Why there is no configuration. -/
inductive LoadError where
  /-- The file cannot be read. -/
  | access (path : String) (cause : FileError)
  /-- The file is not text. -/
  | encoding (path : String)
  /-- The text is no configuration. -/
  | content (path : String) (cause : ConfigError)
  /-- A pattern cannot be used. -/
  | pattern (cause : PatternError)
  deriving Repr, Inhabited

/-- The text of an error. -/
def LoadError.message : LoadError → String
  | .access path cause => "parsing config " ++ path ++ ": " ++ cause.message
  | .encoding path => "parsing config " ++ path ++ ": stream did not contain valid UTF-8"
  | .content path cause => "parsing config " ++ path ++ ": " ++ cause.message
  | .pattern cause => cause.message

namespace Config

/-- The configuration in a file. -/
def readFile (t : FileTree) (path : String) : Except LoadError Config :=
  match t.read path with
  | .error e => .error (.access path e)
  | .ok bytes =>
    match Text.Utf8.decode bytes with
    | (_, _ :: _) => .error (.encoding path)
    | (text, []) => (Config.read (String.ofList text)).mapError (.content path)

/-- The configuration in a file, checked. -/
def loadFile (t : FileTree) (path : String) : Except LoadError Config :=
  match readFile t path with
  | .error e => .error e
  | .ok config =>
    match config.validate with
    | .error e => .error (.pattern e)
    | .ok () => .ok config

/-- The configuration of a project at a root, and the file it comes from. -/
def load (t : FileTree) (root : String) (explicit : Option String) :
    Except LoadError (Config × Option String) :=
  match explicit.or (discoverConfig? t root) with
  | none => .ok ({}, none)
  | some path => (loadFile t path).map (·, some path)

end Config

end GoOutline
