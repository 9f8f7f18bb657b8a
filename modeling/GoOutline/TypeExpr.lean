import GoOutline.Syntax.Node

/-!
# Type expressions

The types that an outline reports, and how they are written. The form is lossy on purpose: inline
interfaces and function types keep only their keyword, array lengths are dropped, and every other
shape is `unknown`.

## Main definitions

* `TypeExpr`: the reported types
* `TypeExpr.ofNode`: the type that a syntax node stands for
* `TypeExpr.render`: its text
-/

namespace GoOutline

open GoOutline.Syntax

/-- A type as it is reported. -/
inductive TypeExpr where
  /-- A name on its own. -/
  | named (name : String)
  /-- A pointer. -/
  | pointer (pointee : TypeExpr)
  /-- A slice; also an array, whose length is dropped. -/
  | slice (element : TypeExpr)
  /-- A map. -/
  | map (key value : TypeExpr)
  /-- A name of another package. -/
  | qualified (package name : String)
  /-- An inline interface, whatever its elements. -/
  | interface
  /-- A channel of any direction. -/
  | chan (element : TypeExpr)
  /-- A function type, whatever its signature. -/
  | func
  /-- Any other shape. -/
  | unknown
  deriving DecidableEq, Repr, Inhabited

namespace TypeExpr

mutual

/-- The type that a node stands for. -/
def ofNode : Node → TypeExpr
  | .mk head children =>
    match head.kind with
    | .typeIdentifier | .identifier => .named head.text
    | .pointerType => .pointer (ofFirstNamed children)
    | .sliceType | .arrayType | .implicitLengthArrayType => .slice (ofRole .element children)
    | .mapType => .map (ofRole .key children) (ofRole .value children)
    | .qualifiedType =>
      match children.find? (·.role == some .package), children.find? (·.role == some .name) with
      | some package, some name => .qualified package.text name.text
      | _, _ => .unknown
    | .interfaceType => .interface
    | .channelType => .chan (ofRole .value children)
    | .functionType => .func
    | _ => .unknown

/-- The type that the first node in a role stands for. -/
def ofRole (role : Role) : List Node → TypeExpr
  | [] => .unknown
  | n :: rest => if n.role == some role then ofNode n else ofRole role rest

/-- The type that the first named node stands for. -/
def ofFirstNamed : List Node → TypeExpr
  | [] => .unknown
  | n :: rest => if n.isNamed then ofNode n else ofFirstNamed rest

end

/-- The text of a type. -/
def render : TypeExpr → String
  | .named name => name
  | .pointer pointee => "*" ++ pointee.render
  | .slice element => "[]" ++ element.render
  | .map key value => "map[" ++ key.render ++ "]" ++ value.render
  | .qualified package name => package ++ "." ++ name
  | .interface => "interface\x7b\x7d"
  | .chan element => "chan " ++ element.render
  | .func => "func"
  | .unknown => "unknown"

/-- The text of the type that a node stands for. -/
def renderNode (n : Node) : String := (ofNode n).render

end TypeExpr

end GoOutline
