import GoOutline.Outline.Binding
import GoOutline.Outline.Declaration

/-!
# The outline of a tree

The walk collects the records of declarations and counts documented symbols. When it is over, the
methods are bound to the structs.

## Main definitions

* `Collected`: what the walk has met so far
* `Collected.visit`: one visit
* `Outline.ofTree`: the outline of a tree
-/

namespace GoOutline

open GoOutline.Syntax

/-- What the walk has met so far. -/
structure Collected where
  structs : List Struct := []
  functions : List Function := []
  interfaces : List Interface := []
  imports : List Import := []
  methods : MethodTable := []
  tally : Doc.Tally := {}
  deriving Repr, Inhabited

namespace Collected

/-- Takes up a struct definition. -/
def addStruct (c : Collected) (s : Struct) : Collected :=
  { c with structs := c.structs ++ [s], tally := c.tally.record s.documentation }

/-- Takes up an interface definition; its methods count as symbols too. -/
def addInterface (c : Collected) (i : Interface) : Collected :=
  { c with
    interfaces := c.interfaces ++ [i]
    tally := i.methods.foldl (fun t m => t.record m.documentation)
      (c.tally.record i.documentation) }

/-- Takes up a function. -/
def addFunction (c : Collected) (f : Function) : Collected :=
  { c with functions := c.functions ++ [f], tally := c.tally.record f.documentation }

/-- Takes up a method under its owner. -/
def addMethod (c : Collected) (m : Method) : Collected :=
  { c with
    methods := c.methods.add (m.receiverType.getD "") m
    tally := c.tally.record m.documentation }

/-- Takes up one specification of a type declaration with the documentation of the declaration.
Only structs and interfaces are of interest. -/
def addTypeSpec (doc : Option String) (c : Collected) (spec : Node) : Collected :=
  match spec.child? .type with
  | none => c
  | some body =>
    if body.kind == .structType then c.addStruct (structOf doc spec body)
    else if body.kind == .interfaceType then c.addInterface (interfaceOf doc spec body)
    else c

/-- One visit of the walk. -/
def visit (c : Collected) (v : Visit) : Collected :=
  match v.node.kind with
  | .typeDeclaration => (typeSpecs v.node).foldl (addTypeSpec v.doc) c
  | .importDeclaration => { c with imports := c.imports ++ importsOf v.node }
  | .functionDeclaration => c.addFunction (functionOf v)
  | .methodDeclaration =>
    match methodOf? v with
    | some m => c.addMethod m
    | none => c
  | _ => c

/-- The outline that the walk amounts to. -/
def finish (c : Collected) (path : String) : Outline where
  path := path
  classes := c.structs.map (Struct.bind c.methods)
  functions := c.functions
  interfaces := c.interfaces
  enums := []
  typeAliases := []
  imports := c.imports
  exports := []
  documentation := c.tally.toCoverage

end Collected

/-- The outline of a tree, under a path. -/
def Outline.ofTree (path : String) (root : Node) : Outline :=
  (walkTree Collected.visit root {}).finish path

end GoOutline
