import GoOutline.Record.Basic

/-!
# Records from JSON

A record is read from an object. Unknown members are ignored, a required member must be there with
the right kind of value, and an optional text may be absent or `null`. A count is an integer that
fits 64 bits; a percentage may be written as an integer.

## Main definitions

* `Json.Field.required`, `Json.Field.optionalText`: members of an object
* `Outline.ofJson?`, `FailedOutline.ofJson?` and the functions for the records inside them
-/

namespace GoOutline

open GoOutline.Text

namespace Json

/-- A text. -/
def text? : Json → Option String
  | .string s => some s
  | _ => none

/-- A truth value. -/
def bool? : Json → Option Bool
  | .bool b => some b
  | _ => none

/-- Counts are below this. -/
def countLimit : Nat := 18446744073709551616

/-- A count, which fits 64 bits. -/
def count? : Json → Option Nat
  | .number (.int i) => if 0 ≤ i && i.toNat < countLimit then some i.toNat else none
  | _ => none

/-- A double. -/
def double? : Json → Option Float
  | .number (.float x) => some x
  | .number (.int i) => some (Float.ofInt i)
  | _ => none

/-- An array whose items are all read. -/
def listOf? {α : Type} (item? : Json → Option α) : Json → Option (List α)
  | .array items => items.mapM item?
  | _ => none

section

variable {α : Type}

@[simp] theorem text?_string (s : String) : text? (.string s) = some s := rfl

@[simp] theorem bool?_bool (b : Bool) : bool? (.bool b) = some b := rfl

@[simp] theorem double?_float (x : Float) : double? (.float x) = some x := rfl

@[simp] theorem listOf?_array (item? : Json → Option α) (items : List Json) :
    listOf? item? (.array items) = items.mapM item? := rfl

end

namespace Field

/-- A member that must be there. -/
def required {α : Type} (read? : Json → Option α) (key : String) (v : Json) : Option α :=
  (v.field? key).bind read?

/-- A text, which may be absent or `null`. -/
def textOrNone? : Option Json → Option (Option String)
  | none | some .null => some none
  | some (.string s) => some (some s)
  | some _ => none

@[simp] theorem textOrNone?_none : textOrNone? none = some none := rfl

@[simp] theorem textOrNone?_string (s : String) : textOrNone? (some (.string s)) = some (some s) :=
  rfl

/-- A text that may be absent or `null`. -/
def optionalText (key : String) (v : Json) : Option (Option String) := textOrNone? (v.field? key)

end Field

end Json

open Json Json.Field

/-- The location that a value stands for. -/
def Text.Location.ofJson? (v : Json) : Option Location := do
  return {
    startLine := ← required count? "startLine" v
    startColumn := ← required count? "startColumn" v
    endLine := ← required count? "endLine" v
    endColumn := ← required count? "endColumn" v }

/-- The parameter that a value stands for. -/
def Parameter.ofJson? (v : Json) : Option Parameter := do
  return {
    name := ← required text? "name" v
    type := ← optionalText "type" v
    isOptional := ← required bool? "isOptional" v
    defaultValue := ← optionalText "defaultValue" v }

/-- The field that a value stands for. -/
def Property.ofJson? (v : Json) : Option Property := do
  return {
    name := ← required text? "name" v
    type := ← optionalText "type" v
    documentation := ← optionalText "documentation" v
    location := ← required Text.Location.ofJson? "location" v
    isExported := ← required bool? "isExported" v }

/-- The method that a value stands for. -/
def Method.ofJson? (v : Json) : Option Method := do
  return {
    name := ← required text? "name" v
    documentation := ← optionalText "documentation" v
    location := ← required Text.Location.ofJson? "location" v
    isExported := ← required bool? "isExported" v
    parameters := ← required (listOf? Parameter.ofJson?) "parameters" v
    returnType := ← optionalText "returnType" v
    receiverType := ← optionalText "receiverType" v }

/-- The function that a value stands for. -/
def Function.ofJson? (v : Json) : Option Function := do
  return {
    name := ← required text? "name" v
    documentation := ← optionalText "documentation" v
    location := ← required Text.Location.ofJson? "location" v
    isExported := ← required bool? "isExported" v
    parameters := ← required (listOf? Parameter.ofJson?) "parameters" v
    returnType := ← optionalText "returnType" v }

/-- The struct that a value stands for. -/
def Struct.ofJson? (v : Json) : Option Struct := do
  return {
    name := ← required text? "name" v
    documentation := ← optionalText "documentation" v
    location := ← required Text.Location.ofJson? "location" v
    isExported := ← required bool? "isExported" v
    properties := ← required (listOf? Property.ofJson?) "properties" v
    methods := ← required (listOf? Method.ofJson?) "methods" v }

/-- The interface that a value stands for. -/
def Interface.ofJson? (v : Json) : Option Interface := do
  return {
    name := ← required text? "name" v
    documentation := ← optionalText "documentation" v
    location := ← required Text.Location.ofJson? "location" v
    isExported := ← required bool? "isExported" v
    methods := ← required (listOf? Method.ofJson?) "methods" v }

/-- The import that a value stands for. -/
def Import.ofJson? (v : Json) : Option Import := do
  return {
    importedNames := ← required (listOf? text?) "importedNames" v
    moduleSpecifier := ← required text? "moduleSpecifier" v }

/-- The coverage that a value stands for. -/
def Coverage.ofJson? (v : Json) : Option Coverage := do
  return {
    hasDocumentation := ← required bool? "hasDocumentation" v
    documentedSymbols := ← required count? "documentedSymbols" v
    totalSymbols := ← required count? "totalSymbols" v
    coverage := ← required double? "coverage" v }

/-- The outline that a value stands for. -/
def Outline.ofJson? (v : Json) : Option Outline := do
  return {
    path := ← required text? "path" v
    classes := ← required (listOf? Struct.ofJson?) "classes" v
    functions := ← required (listOf? Function.ofJson?) "functions" v
    interfaces := ← required (listOf? Interface.ofJson?) "interfaces" v
    enums := ← required (listOf? some) "enums" v
    typeAliases := ← required (listOf? some) "typeAliases" v
    imports := ← required (listOf? Import.ofJson?) "imports" v
    exports := ← required (listOf? some) "exports" v
    documentation := ← required Coverage.ofJson? "documentation" v }

/-- The failure that a value stands for. -/
def FailedOutline.ofJson? (v : Json) : Option FailedOutline := do
  return {
    error := ← required text? "error" v
    path := ← optionalText "path" v }

end GoOutline
