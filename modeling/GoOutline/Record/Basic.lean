import GoOutline.Text.Position
import GoOutline.Json.Basic
import GoOutline.Doc.Tally

/-!
# The records of an outline

What is reported about a file: its structs with their fields and methods, its interfaces, its
functions, its imports, and how much of it is documented. The shape is shared with outlines of other
languages, so a file also has lists of enums, type aliases and exports, which stay empty here.

## Main definitions

* `Parameter`, `Property`, `Method`, `Function`, `Struct`, `Interface`, `Import`: the symbols
* `Coverage`: the documentation coverage
* `Outline`: everything about one file
* `FailedOutline`: what is reported in place of an outline
-/

namespace GoOutline

open GoOutline.Text

/-- A parameter of a function or method. -/
structure Parameter where
  name : String
  type : Option String
  isOptional : Bool := false
  defaultValue : Option String := none
  deriving DecidableEq, Repr, Inhabited

/-- A field of a struct. -/
structure Property where
  name : String
  type : Option String
  documentation : Option String
  location : Location
  isExported : Bool
  deriving DecidableEq, Repr, Inhabited

/-- A method of a type, or a method that an interface asks for. -/
structure Method where
  name : String
  documentation : Option String
  location : Location
  isExported : Bool
  parameters : List Parameter
  returnType : Option String
  /-- The name of the receiver's type; a method of an interface has none. -/
  receiverType : Option String
  deriving DecidableEq, Repr, Inhabited

/-- A function without a receiver. -/
structure Function where
  name : String
  documentation : Option String
  location : Location
  isExported : Bool
  parameters : List Parameter
  returnType : Option String
  deriving DecidableEq, Repr, Inhabited

/-- A struct type with the methods that are declared on it. -/
structure Struct where
  name : String
  documentation : Option String
  location : Location
  isExported : Bool
  properties : List Property
  methods : List Method
  deriving DecidableEq, Repr, Inhabited

/-- An interface type. -/
structure Interface where
  name : String
  documentation : Option String
  location : Location
  isExported : Bool
  methods : List Method
  deriving DecidableEq, Repr, Inhabited

/-- An import. -/
structure Import where
  /-- The local name, if one is given. -/
  importedNames : List String
  moduleSpecifier : String
  deriving DecidableEq, Repr, Inhabited

/-- How much of a file is documented. -/
structure Coverage where
  hasDocumentation : Bool
  documentedSymbols : Nat
  totalSymbols : Nat
  /-- A percentage. -/
  coverage : Float
  deriving Repr, Inhabited

/-- Everything that is reported about one file. -/
structure Outline where
  path : String
  classes : List Struct
  functions : List Function
  interfaces : List Interface
  enums : List Json
  typeAliases : List Json
  imports : List Import
  exports : List Json
  documentation : Coverage
  deriving Repr, Inhabited

/-- What is reported when there is no outline. -/
structure FailedOutline where
  error : String
  path : Option String
  deriving DecidableEq, Repr, Inhabited

/-- The coverage that a tally amounts to. -/
def Doc.Tally.toCoverage (t : Tally) : Coverage where
  hasDocumentation := t.documented > 0
  documentedSymbols := t.documented
  totalSymbols := t.total
  coverage := t.coverage

namespace Outline

/-- The first struct of a name. -/
def struct? (o : Outline) (name : String) : Option Struct := o.classes.find? (·.name == name)

/-- The first interface of a name. -/
def interface? (o : Outline) (name : String) : Option Interface :=
  o.interfaces.find? (·.name == name)

/-- The first function of a name. -/
def function? (o : Outline) (name : String) : Option Function :=
  o.functions.find? (·.name == name)

end Outline

end GoOutline
