import GoOutline.Outline.Name
import GoOutline.Outline.Signature
import GoOutline.Outline.Visit

/-!
# Records of declarations

Each function reads the record of one declaration off its node.

## Main definitions

* `propertiesOf`: the fields of one field declaration
* `structOf`, `interfaceOf`: records of type definitions
* `functionOf`, `methodOf?`: records of functions and methods
* `importsOf`: the imports of one declaration
-/

namespace GoOutline

open GoOutline.Syntax GoOutline.Text

/-- The text of a node's name. -/
def nameOf (n : Node) : String := ((n.child? .name).map (·.text)).getD ""

/-- The location of a node. -/
def locationOf (n : Node) : Location := .ofSpan n.span

/-! ## Types -/

/-- The definitions and aliases of a type declaration. -/
def typeSpecs (declaration : Node) : List Node :=
  declaration.children.filter fun n => n.kind == .typeSpec || n.kind == .typeAlias

/-- An embedded field stands behind a star. -/
def hasStar (field : Node) : Bool := field.children.any (·.kind == .token "*")

/-- The fields of a declaration: one per name, or one that is named after its embedded type. -/
def propertiesOf (v : Visit) : List Property :=
  let field := v.node
  let type := field.child? .type
  match (field.childrenWith .name).map (·.text) with
  | [] =>
    match type with
    | none => []
    | some type =>
      let text := (if hasStar field then "*" else "") ++ TypeExpr.renderNode type
      [{ name := text, type := some text, documentation := v.doc, location := locationOf field,
         isExported := true }]
  | names => names.map fun name =>
    { name := name, type := type.map TypeExpr.renderNode, documentation := v.doc,
      location := locationOf field, isExported := isExportedName name }

/-- The visits to the field declarations of a struct type. -/
def fieldVisits (body : Node) : List Visit :=
  match body.children.find? (·.kind == .fieldDeclarationList) with
  | none => []
  | some list => (Visit.children list).filter (·.node.kind == .fieldDeclaration)

/-- The record of a struct definition, before methods are bound to it. -/
def structOf (doc : Option String) (spec body : Node) : Struct where
  name := nameOf spec
  documentation := doc
  location := locationOf spec
  isExported := isExportedName (nameOf spec)
  properties := (fieldVisits body).flatMap propertiesOf
  methods := []

/-- The record of a method that an interface asks for. -/
def requiredMethodOf (v : Visit) : Method where
  name := nameOf v.node
  documentation := v.doc
  location := locationOf v.node
  isExported := isExportedName (nameOf v.node)
  parameters := parametersOf (v.node.child? .parameters)
  returnType := returnTypeOf (v.node.child? .result)
  receiverType := none

/-- The visits to the methods of an interface type. -/
def requiredMethodVisits (body : Node) : List Visit :=
  (Visit.children body).filter fun v =>
    v.node.kind == .methodElem && (v.node.child? .name).isSome

/-- The record of an interface definition. -/
def interfaceOf (doc : Option String) (spec body : Node) : Interface where
  name := nameOf spec
  documentation := doc
  location := locationOf spec
  isExported := isExportedName (nameOf spec)
  methods := (requiredMethodVisits body).map requiredMethodOf

/-! ## Functions -/

/-- The record of a function declaration. -/
def functionOf (v : Visit) : Function where
  name := nameOf v.node
  documentation := v.doc
  location := locationOf v.node
  isExported := isExportedName (nameOf v.node)
  parameters := parametersOf (v.node.child? .parameters)
  returnType := returnTypeOf (v.node.child? .result)

/-- The type of a method's receiver: that of the first group of the receiver list. -/
def receiverType? (method : Node) : Option Node := do
  let list ← method.child? .receiver
  let group ← (parameterGroups list).head?
  group.child? .type

/-- The name that a receiver type binds a method to: its text without one star in front. -/
def ownerOf (receiver : Node) : String :=
  match (TypeExpr.renderNode receiver).toList with
  | '*' :: rest => String.ofList rest
  | text => String.ofList text

/-- The record of a method declaration, when its receiver has a type. -/
def methodOf? (v : Visit) : Option Method :=
  (receiverType? v.node).map fun receiver => {
    name := nameOf v.node
    documentation := v.doc
    location := locationOf v.node
    isExported := isExportedName (nameOf v.node)
    parameters := parametersOf (v.node.child? .parameters)
    returnType := returnTypeOf (v.node.child? .result)
    receiverType := some (ownerOf receiver) }

/-! ## Imports -/

/-- The import specifications of a declaration, grouped or not. -/
def importSpecs (declaration : Node) : List Node :=
  declaration.children.flatMap fun child =>
    if child.kind == .importSpec then [child]
    else if child.kind == .importSpecList then child.children.filter (·.kind == .importSpec)
    else []

/-- A text without the double quotes at its ends. -/
def withoutQuotes (s : String) : String :=
  let isQuote (c : Char) := c == '"'
  String.ofList ((s.toList.dropWhile isQuote).reverse.dropWhile isQuote).reverse

/-- The record of an import specification. -/
def importOf (spec : Node) : Import where
  importedNames := ((spec.child? .name).map (·.text)).toList
  moduleSpecifier := ((spec.child? .path).map (withoutQuotes ·.text)).getD ""

/-- The imports of a declaration. -/
def importsOf (declaration : Node) : List Import := (importSpecs declaration).map importOf

end GoOutline
