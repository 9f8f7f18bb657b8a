import GoOutline.Record.Basic
import GoOutline.TypeExpr

/-!
# Signatures

Parameter lists expand to one record per name, names that are declared together sharing their type.
The result of a function is a type text, or a parenthesized list of them with one entry per group.

## Main definitions

* `parameterGroups`: the groups of a parameter list
* `groupType`, `groupParameters`: what a group says
* `parametersOf`, `returnTypeOf`: the two halves of a signature
-/

namespace GoOutline

open GoOutline.Syntax

/-- The name of a parameter that is declared by its type only. -/
def unnamedParameter : String := "_"

/-- The kinds of parameter groups. -/
def isParameterGroup (n : Node) : Bool :=
  n.kind == .parameterDeclaration || n.kind == .variadicParameterDeclaration

/-- The groups of a parameter list. -/
def parameterGroups (list : Node) : List Node := list.children.filter isParameterGroup

/-- The type text of a group; that of a variadic group is not spelled out. -/
def groupType (group : Node) : Option String :=
  if group.kind == .variadicParameterDeclaration then some TypeExpr.unknown.render
  else (group.child? .type).map TypeExpr.renderNode

/-- The names of a group. -/
def groupNameTexts (group : Node) : List String := (group.childrenWith .name).map (·.text)

/-- The parameters of a group: one per name, or a single unnamed one. -/
def groupParameters (group : Node) : List Parameter :=
  match groupNameTexts group with
  | [] => [{ name := unnamedParameter, type := groupType group }]
  | names => names.map fun name => { name := name, type := groupType group }

/-- The parameters of a list, if there is one. -/
def parametersOf (list : Option Node) : List Parameter :=
  match list with
  | none => []
  | some list => (parameterGroups list).flatMap groupParameters

/-- Types in parentheses. -/
def resultTuple (types : List String) : String := "(" ++ String.intercalate ", " types ++ ")"

/-- The text of a result. A list of a single unnamed group is written like a bare type. -/
def returnTypeOf (result : Option Node) : Option String :=
  match result with
  | none => none
  | some result =>
    if result.kind == .parameterList then
      match parameterGroups result with
      | [] => none
      | [group] =>
        if (group.child? .name).isNone then groupType group
        else some (resultTuple (groupType group).toList)
      | groups => some (resultTuple (groups.filterMap groupType))
    else some (TypeExpr.renderNode result)

end GoOutline
