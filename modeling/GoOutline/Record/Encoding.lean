import GoOutline.Record.Basic

/-!
# Records as JSON

Members are written in a fixed order. Documentation, receiver types and the path of a failure are
left out when absent; types, results and default values are `null` then.

## Main definitions

* `Outline.toJson`, `FailedOutline.toJson` and the functions for the records inside them
-/

namespace GoOutline

open GoOutline.Text

/-- An absent text is `null`. -/
def Json.orNull (s : Option String) : Json := (s.map Json.string).getD .null

@[simp] theorem Json.orNull_none : orNull none = .null := rfl

@[simp] theorem Json.orNull_some (s : String) : orNull (some s) = .string s := rfl

/-- An absent text has no member. -/
def Json.memberOf (key : String) (s : Option String) : List (String × Json) :=
  (s.map fun s => (key, Json.string s)).toList

@[simp] theorem Json.memberOf_none (key : String) : memberOf key none = [] := rfl

@[simp] theorem Json.memberOf_some (key s : String) : memberOf key (some s) = [(key, .string s)] :=
  rfl

namespace Text.Location

/-- A location as a value. -/
def toJson (l : Location) : Json := .object [
  ("startLine", .nat l.startLine), ("startColumn", .nat l.startColumn),
  ("endLine", .nat l.endLine), ("endColumn", .nat l.endColumn)]

end Text.Location

/-- A parameter as a value. -/
def Parameter.toJson (p : Parameter) : Json := .object [
  ("name", .string p.name), ("type", .orNull p.type), ("isOptional", .bool p.isOptional),
  ("defaultValue", .orNull p.defaultValue)]

/-- A field as a value; documentation that is absent is left out. -/
def Property.toJson (p : Property) : Json := .object (
  [("name", .string p.name), ("type", .orNull p.type)] ++
  Json.memberOf "documentation" p.documentation ++
  [("location", p.location.toJson), ("isExported", .bool p.isExported)])

/-- A method as a value; documentation and receiver are left out when absent. -/
def Method.toJson (m : Method) : Json := .object (
  [("name", .string m.name)] ++ Json.memberOf "documentation" m.documentation ++
  [("location", m.location.toJson), ("isExported", .bool m.isExported),
    ("parameters", .array (m.parameters.map Parameter.toJson)),
    ("returnType", .orNull m.returnType)] ++
  Json.memberOf "receiverType" m.receiverType)

/-- A function as a value; documentation that is absent is left out. -/
def Function.toJson (f : Function) : Json := .object (
  [("name", .string f.name)] ++ Json.memberOf "documentation" f.documentation ++
  [("location", f.location.toJson), ("isExported", .bool f.isExported),
    ("parameters", .array (f.parameters.map Parameter.toJson)),
    ("returnType", .orNull f.returnType)])

/-- A struct as a value; documentation that is absent is left out. -/
def Struct.toJson (s : Struct) : Json := .object (
  [("name", .string s.name)] ++ Json.memberOf "documentation" s.documentation ++
  [("location", s.location.toJson), ("isExported", .bool s.isExported),
    ("properties", .array (s.properties.map Property.toJson)),
    ("methods", .array (s.methods.map Method.toJson))])

/-- An interface as a value; documentation that is absent is left out. -/
def Interface.toJson (i : Interface) : Json := .object (
  [("name", .string i.name)] ++ Json.memberOf "documentation" i.documentation ++
  [("location", i.location.toJson), ("isExported", .bool i.isExported),
    ("methods", .array (i.methods.map Method.toJson))])

/-- An import as a value. -/
def Import.toJson (i : Import) : Json := .object [
  ("importedNames", .array (i.importedNames.map Json.string)),
  ("moduleSpecifier", .string i.moduleSpecifier)]

/-- Coverage as a value. -/
def Coverage.toJson (c : Coverage) : Json := .object [
  ("hasDocumentation", .bool c.hasDocumentation),
  ("documentedSymbols", .nat c.documentedSymbols), ("totalSymbols", .nat c.totalSymbols),
  ("coverage", .float c.coverage)]

/-- An outline as a value. -/
def Outline.toJson (o : Outline) : Json := .object [
  ("path", .string o.path), ("classes", .array (o.classes.map Struct.toJson)),
  ("functions", .array (o.functions.map Function.toJson)),
  ("interfaces", .array (o.interfaces.map Interface.toJson)), ("enums", .array o.enums),
  ("typeAliases", .array o.typeAliases), ("imports", .array (o.imports.map Import.toJson)),
  ("exports", .array o.exports), ("documentation", o.documentation.toJson)]

/-- A failure as a value; a path that is not known is left out. -/
def FailedOutline.toJson (f : FailedOutline) : Json := .object (
  [("error", .string f.error)] ++ Json.memberOf "path" f.path)

end GoOutline
