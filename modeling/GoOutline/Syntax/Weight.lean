import GoOutline.Syntax.Node

/-!
# Weights of readings

Some texts can be read in two ways. The heavier reading counts. A generic type and its arguments
add weight, a plain name that stands for a type takes some away, and so do conversions and
instantiations.

## Main definitions

* `Node.weight`: the weight of a tree where it stands
* `Node.weightAll`: the weight of some siblings
-/

namespace GoOutline.Syntax.Node

/-- The parts are those of a field that is only a type. -/
def isEmbedding (kind : Kind) (parts : List Node) : Bool :=
  kind == .fieldDeclaration && !parts.any (·.role == some .name)

/-- A plain name in this place stands for a type by itself. It does not as a part of a longer name
for a type, as the name that a declaration introduces, in front of the braces of a literal, or as
an embedded field. -/
def standsForType (parent : Kind) (embedding : Bool) (role : Option Role) : Bool :=
  role != some .name && parent != .qualifiedType &&
    !(role == some .type && (parent == .genericType || parent == .compositeLiteral || embedding))

/-- What a node adds by itself under a parent of a kind. -/
def ownWeight (parent : Kind) (embedding : Bool) (head : Head) : Int :=
  match head.kind with
  | .typeIdentifier => if standsForType parent embedding head.role then -1 else 0
  | .genericType => 1
  | .typeArguments => if parent == .typeInstantiationExpression then 0 else 2
  | .typeConversionExpression | .typeInstantiationExpression => -1
  | _ => 0

mutual

/-- The weight of a tree under a parent of a kind. -/
def weight (parent : Kind) (embedding : Bool) : Node → Int
  | .mk head children =>
    ownWeight parent embedding head +
      weightAll head.kind (isEmbedding head.kind children) children

/-- The weight of some siblings under a parent of a kind. -/
def weightAll (parent : Kind) (embedding : Bool) : List Node → Int
  | [] => 0
  | n :: rest => weight parent embedding n + weightAll parent embedding rest

end

end GoOutline.Syntax.Node
