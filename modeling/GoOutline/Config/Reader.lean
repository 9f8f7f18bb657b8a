import GoOutline.Config.Basic
import GoOutline.Yaml.Reader
import GoOutline.Yaml.Value

/-!
# Reading a configuration

A configuration is written as a mapping from the names of settings to their values. Other names are
ignored, a setting may be given only once, and a text without any node stands for the defaults.

## Main definitions

* `ConfigError`: why a text is no configuration
* `Config.ofNode`: the configuration that a node stands for
* `Config.read`: the configuration that a text spells
-/

namespace GoOutline

open GoOutline.Yaml

/-- Why a text is no configuration. -/
inductive ConfigError where
  /-- The text is no document. -/
  | malformed (cause : Yaml.Error)
  /-- A node at a path is not what is expected there. -/
  | invalidType (path : String) (found : Node) (expected : String)
  /-- A setting is given twice. -/
  | duplicate (name : String) (mark : Mark)
  /-- There is more than one document. -/
  | manyDocuments
  deriving Repr, Inhabited

/-- The text of an error. -/
def ConfigError.message : ConfigError → String
  | .malformed cause => cause.message
  | .invalidType path found expected =>
    (if path == "" then "" else path ++ ": ") ++ "invalid type: " ++ found.description ++
      ", expected " ++ expected ++ found.mark.suffix
  | .duplicate name mark => "duplicate field \x60" ++ name ++ "\x60" ++ mark.suffix
  | .manyDocuments =>
    "deserializing from YAML containing more than one document is not supported"

/-- A truth value at a path. -/
def boolAt (path : String) : Node → Except ConfigError Bool
  | .scalar mark true text =>
    match Value.bool? text with
    | some b => .ok b
    | none => .error (.invalidType path (.scalar mark true text) "a boolean")
  | node => .error (.invalidType path node "a boolean")

/-- A text at a path: any scalar as it is written. -/
def textAt (path : String) : Node → Except ConfigError String
  | .scalar _ _ text => .ok text
  | node => .error (.invalidType path node "a string")

/-- The texts of some items, counted from a number on. -/
def textsFrom (path : String) : Nat → List Node → Except ConfigError (List String)
  | _, [] => .ok []
  | index, item :: items => do
    let text ← textAt (path ++ "[" ++ toString index ++ "]") item
    let texts ← textsFrom path (index + 1) items
    return text :: texts

/-- A list of texts at a path. A plain text for nothing stands for no texts. -/
def textsAt (path : String) : Node → Except ConfigError (List String)
  | .sequence _ items => textsFrom path 0 items
  | .scalar mark true text =>
    if Value.isNull text then .ok []
    else .error (.invalidType path (.scalar mark true text) "a sequence")
  | node => .error (.invalidType path node "a sequence")

/-- The settings gathered from the entries of a mapping. -/
structure Settings where
  includeTestFiles : Option Bool := none
  excludedPaths : Option (List String) := none
  parallel : Option Bool := none
  pretty : Option Bool := none
  deriving DecidableEq, Repr, Inhabited

namespace Settings

/-- Gives a setting its value, once. -/
def once {α : Type} (mark : Mark) (name : String) (current : Option α)
    (value : Except ConfigError α) : Except ConfigError (Option α) :=
  if current.isSome then .error (.duplicate name mark) else value.map some

/-- The settings with one more entry of the mapping at `mark`. -/
def add (mark : Mark) (s : Settings) (key value : Node) : Except ConfigError Settings := do
  match key with
  | .scalar _ _ "include_test_files" =>
    let name := "include_test_files"
    return { s with
      includeTestFiles := ← once mark name s.includeTestFiles (boolAt name value) }
  | .scalar _ _ "excluded_paths" =>
    let name := "excluded_paths"
    return { s with excludedPaths := ← once mark name s.excludedPaths (textsAt name value) }
  | .scalar _ _ "parallel" =>
    let name := "parallel"
    return { s with parallel := ← once mark name s.parallel (boolAt name value) }
  | .scalar _ _ "pretty" =>
    let name := "pretty"
    return { s with pretty := ← once mark name s.pretty (boolAt name value) }
  | .scalar .. => return s
  | other => .error (.invalidType "" other "field identifier")

/-- The configuration with the defaults for settings that are not given. -/
def toConfig (s : Settings) : Config where
  includeTestFiles := s.includeTestFiles.getD false
  excludedPaths := s.excludedPaths.getD []
  parallel := s.parallel.getD true
  pretty := s.pretty.getD false

end Settings

namespace Config

/-- The configuration that a node stands for. -/
def ofNode : Node → Except ConfigError Config
  | .mapping mark entries => do
    let settings ← entries.foldlM (fun s (key, value) => Settings.add mark s key value) {}
    return settings.toConfig
  | .scalar mark true text =>
    if text == "" then .ok {} else .error (.invalidType "" (.scalar mark true text) "struct Config")
  | node => .error (.invalidType "" node "struct Config")

/-- The configuration that a text spells. -/
def read (text : String) : Except ConfigError Config :=
  if (Text.Blank.trim text.toList).isEmpty then .ok {}
  else
    match Yaml.read text with
    | .error e => .error (.malformed e)
    | .ok ⟨none, _⟩ => .ok {}
    | .ok ⟨some node, hasMore⟩ => do
      let config ← ofNode node
      if hasMore then .error .manyDocuments else return config

end Config

end GoOutline
