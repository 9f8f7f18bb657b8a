import GoOutline.Syntax.Grammar.Types

/-!
# Rules for expressions

An expression is an operand with what is applied to it (selectors, brackets, calls, literal
braces), behind unary operators and between binary ones.

Types occur among expressions: as the type of a composite literal, as a conversion, and as type
arguments. A name may turn out to be a type only at the brace after it; the literal is then read
again from the name on.

## Main definitions

* `expressionRule`: an expression
* `literalValueRule`: the braces of a composite literal
* `expressionList`: expressions with commas between them
-/

namespace GoOutline.Syntax

open Rule

variable (g : Grammar)

/-- An expression inside brackets. -/
def innerExpression : Rule (List Node) := g (.expression Goal.anyLevel {})

/-- Expressions with commas between them, as one node. The first stands at its own site. -/
def expressionList (first rest : Site) : Rule (List Node) := enclosed .expressionList do
  let head ← g (.expression Goal.anyLevel first)
  if ← nextIs first.line ',' then
    let comma ← symbol ","
    let more ← bounded (commaList rest.line (g (.expression Goal.anyLevel rest)))
    return head ++ comma ++ more
  else return head

/-! ## Literal braces -/

/-- An element of a literal: an expression or nested braces. -/
def literalElement : Rule (List Node) := enclosed .literalElement do
  if ← nextIs false '{' then g .literalValue else innerExpression g

/-- An element of a literal with perhaps a key before it. -/
def keyedElement : Rule (List Node) := do
  let first ← literalElement g
  if ← nextIs false ':' then
    let colon ← symbol ":"
    let value ← literalElement g
    return Node.enclose .keyedElement (Node.labelled .key first ++ colon ++
      Node.labelled .value value)
  else return first

/-- The braces of a composite literal. -/
def literalValueRule : Rule (List Node) := enclosed .literalValue do
  let opening ← symbol "\x7b"
  let elements ←
    if ← nextIs false '}' then pure []
    else if ← nextIs false ',' then symbol ","
    else bounded (commaItems '}' (keyedElement g))
  let close ← symbol "\x7d"
  return opening ++ elements ++ close

/-! ## Calls and brackets -/

/-- An argument, perhaps spread with dots. -/
def argument : Rule (List Node) := do
  let value ← innerExpression g
  if ← nextStarts false "..." then
    let dots ← symbol "..."
    return Node.enclose .variadicArgument (value ++ dots)
  else return value

/-- The parenthesized arguments of a call, the first of which is read by its own rule. -/
def argumentsWith (first : Rule (List Node)) : Rule (List Node) := enclosed .argumentList do
  let opening ← symbol "("
  let items ←
    if ← nextIs false ')' then pure []
    else do
      let head ← first
      if ← nextIs false ',' then
        let comma ← symbol ","
        -- a comma may stand before the closing parenthesis
        if ← nextIs false ')' then pure (head ++ comma)
        else do
          let more ← bounded (commaItems ')' (argument g))
          pure (head ++ comma ++ more)
      else pure head
  let close ← closing ")"
  return opening ++ items ++ close

/-- The parenthesized arguments of a call. -/
def arguments : Rule (List Node) := argumentsWith g (argument g)

/-- The arguments of `new` and `make`, of which the first may be a type. -/
def allocationArguments : Rule (List Node) :=
  argumentsWith g (orElse
    (do
      let type ← g (.type false)
      if (← nextIs false ',') || (← nextIs false ')') then return type else stuck)
    (argument g))

/-- The single parenthesized operand of a conversion. -/
def conversionOperand : Rule (List Node) := do
  let opening ← symbol "("
  let operand ← innerExpression g
  let comma ← if ← nextIs false ',' then symbol "," else pure []
  let close ← closing ")"
  return opening ++ operand ++ comma ++ close

/-- The bounds of a slice after the first, from its colon on. -/
def sliceBounds : Rule (List Node) := do
  let colon ← symbol ":"
  if ← nextIs false ']' then return colon
  let upper ← innerExpression g
  if ← nextIs false ':' then
    let colon' ← symbol ":"
    let capacity ← innerExpression g
    return colon ++ upper ++ colon' ++ capacity
  else return colon ++ upper

/-- An index or a slice of an operand. -/
def indexOrSlice (operand : List Node) : Rule (List Node) := do
  let opening ← symbol "["
  if ← nextIs false ':' then
    let bounds ← sliceBounds g
    let close ← closing "]"
    return Node.enclose .sliceExpression (operand ++ opening ++ bounds ++ close)
  let index ← innerExpression g
  if ← nextIs false ':' then
    let bounds ← sliceBounds g
    let close ← closing "]"
    return Node.enclose .sliceExpression (operand ++ opening ++ index ++ bounds ++ close)
  else
    let close ← closing "]"
    return Node.enclose .indexExpression (operand ++ opening ++ index ++ close)

/-- Type arguments of an operand. They need a call after them unless the operand names a type. -/
def instantiation (site : Site) (isName : Bool) (operand : List Node) : Rule (List Node) := do
  let types ← inRole .typeArguments (typeArguments g)
  if ← nextIs site.line '(' then
    let arguments ← arguments g
    return Node.enclose .callExpression (operand ++ types ++ arguments)
  else if isName then return Node.enclose .typeInstantiationExpression (operand ++ types)
  else stuck

/-! ## What is applied to an operand -/

/-- What an operand has shown itself to be so far. -/
inductive Shape where
  /-- A name that may name a type. -/
  | name
  /-- A name qualified by another. -/
  | qualified
  /-- A name with brackets. -/
  | indexed
  /-- Anything else. -/
  | value
  deriving DecidableEq, Repr, Inhabited

/-- The operand may turn out to be a type. -/
def Shape.mayBeType : Shape → Bool
  | .value => false
  | _ => true

/-- The operand is a name without brackets. -/
def Shape.isName : Shape → Bool
  | .name | .qualified => true
  | _ => false

/-- A selector or a type assertion. -/
def selector (shape : Shape) (operand : List Node) : Rule (Shape × List Node) := do
  let dot ← symbol "."
  if ← nextIs false '(' then
    let opening ← symbol "("
    let type ← inRole .type (g (.type false))
    let close ← symbol ")"
    return (.value, Node.enclose .typeAssertionExpression
      (operand ++ dot ++ opening ++ type ++ close))
  else
    let field ← word .fieldIdentifier
    let shape' := if shape == .name then .qualified else .value
    return (shape', Node.enclose .selectorExpression (operand ++ dot ++ field))

/-- Applies selectors, brackets, calls and literal braces to an operand as long as they follow.
`start` is where the operand starts. -/
def applications (site : Site) (start : Cursor) :
    Nat → Shape × List Node → Rule (List Node)
  | 0, _ => stuck
  | rounds + 1, (shape, operand) => do
    match ← upcoming site.line with
    -- dots spread the operand as an argument and select nothing from it
    | '.' :: '.' :: _ => return operand
    | '.' :: _ =>
      let next ← selector g shape operand
      applications site start rounds next
    | '[' :: _ =>
      -- brackets that hold no expression hold types
      let next ← orElse (indexOrSlice g operand) (instantiation g site shape.isName operand)
      applications site start rounds (if shape.isName then .indexed else .value, next)
    | '(' :: _ =>
      let arguments ← arguments g
      applications site start rounds (.value, Node.enclose .callExpression (operand ++ arguments))
    | '{' :: _ =>
      if site.header || !shape.mayBeType then return operand
      -- the operand has been a type all along, and is read again as one
      set start
      let type ← inRole .type (namedType g site.line)
      let body ← inRole .body (g .literalValue)
      applications site start rounds (.value, Node.enclose .compositeLiteral (type ++ body))
    | _ => return operand

/-! ## Operands -/

/-- A composite literal or a conversion whose type is not a name. -/
def typedOperand (type : Rule (List Node)) (mayHoldLiteral : Bool) : Rule (List Node) := do
  let type ← type
  if mayHoldLiteral && (← nextIs false '{') then
    let body ← inRole .body (g .literalValue)
    return Node.enclose .compositeLiteral (Node.labelled .type type ++ body)
  else
    let operand ← conversionOperand g
    return Node.enclose .typeConversionExpression (Node.labelled .type type ++ operand)

/-- An array type whose length is left to its literal. -/
def implicitLengthArrayType : Rule (List Node) := enclosed .implicitLengthArrayType do
  let opening ← symbol "["
  let dots ← symbol "..."
  let close ← symbol "]"
  let element ← inRole .element (g (.type false))
  return opening ++ dots ++ close ++ element

/-- A literal or conversion that starts with a bracket. -/
def bracketOperand : Rule (List Node) :=
  typedOperand g (orElse (bracketType g false) (implicitLengthArrayType g)) true

/-- A function literal, or a conversion to a function type. -/
def functionOperand : Rule (List Node) := do
  let signature ← signature g false
  if ← nextIs false '{' then
    let body ← inRole .body (g .block)
    return Node.enclose .funcLiteral (signature ++ body)
  else typedOperand g (pure (Node.enclose .functionType signature)) false

/-- A parenthesized expression, or a conversion to a parenthesized type. -/
def parenthesizedOperand : Rule (List Node) :=
  orElse
    (enclosed .parenthesizedExpression do
      let opening ← symbol "("
      let inner ← innerExpression g
      let close ← symbol ")"
      return opening ++ inner ++ close)
    (typedOperand g (g (.type false)) false)

/-- An operand that is a word. -/
def wordOperand (site : Site) (name : String) : Rule (Shape × List Node) := do
  match name with
  | "func" => return (.value, ← functionOperand g)
  | "struct" => return (.value, ← typedOperand g (structType g) true)
  | "map" => return (.value, ← typedOperand g (mapType g false) true)
  | "chan" | "interface" => return (.value, ← typedOperand g (g (.type false)) false)
  | "nil" => return (.value, ← word .nilLiteral)
  | "true" => return (.value, ← word .trueLiteral)
  | "false" => return (.value, ← word .falseLiteral)
  | "iota" => return (.value, ← word .iotaLiteral)
  -- words for functions that may be called with a type, and names like others otherwise
  | "new" | "make" =>
    let name ← word .identifier
    if ← nextIs site.line '(' then
      let arguments ← allocationArguments g
      return (.value, Node.enclose .callExpression (name ++ arguments))
    else return (.value, name)
  | _ => return (.name, ← word .identifier)

/-- An operand before anything is applied to it. -/
def operandRule (site : Site) : Rule (Shape × List Node) := do
  let text ← upcoming false
  match text with
  | '(' :: _ => return (.value, ← parenthesizedOperand g)
  | '[' :: _ => return (.value, ← bracketOperand g)
  | '~' :: _ => return (.value, ← typedOperand g (g (.type false)) false)
  | _ =>
    match String.ofList (Lexeme.word text) with
    | "" =>
      match Lexeme.longer (Lexeme.number? text)
          (Lexeme.longer (Lexeme.string? text) ((Lexeme.rune? text).map (.runeLiteral, ·))) with
      | some (kind, n) => return (.value, ← take kind n)
      | none => stuck
    | name => wordOperand g site name

/-- An operand with unary operators before it and applications after it. -/
def unaryRule (site : Site) : Rule (List Node) := do
  match Lexeme.unaryOperator? (← upcoming false) with
  | some operator => enclosed .unaryExpression do
    let operator ← symbol operator
    let operand ← g (.expression Goal.operandLevel site)
    return operator ++ operand
  | none =>
    let start ← get
    let operand ← operandRule g site
    bounded fun rounds => applications g site start rounds operand

/-- Joins operands with binary operators of at least a precedence, grouping to the left. -/
def binaryTail (level : Nat) (site : Site) : Nat → List Node → Rule (List Node)
  | 0, _ => stuck
  | rounds + 1, left => do
    match Lexeme.binaryOperator? site.statement (← upcoming site.line) with
    | some (spelling, precedence) =>
      if precedence < level then return left
      let operator ← symbol spelling
      -- an operator of the same precedence is left to the next round, which groups to the left
      let right ← g (.expression (precedence + 1) site)
      binaryTail level site rounds (Node.enclose .binaryExpression (left ++ operator ++ right))
    | none => return left

/-- An expression whose binary operators have at least a precedence. -/
def expressionRule (level : Nat) (site : Site) : Rule (List Node) := do
  let first ← unaryRule g site
  bounded fun rounds => binaryTail g level site rounds first

end GoOutline.Syntax
