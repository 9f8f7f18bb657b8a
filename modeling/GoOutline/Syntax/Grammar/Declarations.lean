import GoOutline.Syntax.Grammar.Expressions

/-!
# Rules for declarations

Constants, variables, types, imports, the package clause, functions and methods.

## Main definitions

* `constDeclaration`, `varDeclaration`, `typeDeclaration`: declarations that are statements
* `packageClause`, `importDeclaration`: the clauses at the head of a file
* `functionDeclaration`, `methodDeclaration`: functions and methods
-/

namespace GoOutline.Syntax

open Rule

variable (g : Grammar)

/-- An expression that ends with its line. -/
def lineSite : Site := { line := true }

/-- Either one specification or a parenthesized group of them, each ended by a terminator. -/
def specGroup (spec : Rule (List Node)) : Rule (List Node) := do
  if ← nextIs false '(' then
    let opening ← symbol "("
    let specs ← bounded (closedItems ')' spec)
    let close ← symbol ")"
    return opening ++ specs ++ close
  else spec

/-- The values after an equals sign. -/
def initialValues : Rule (List Node) := do
  let equals ← symbol "="
  let values ← inRole .value (expressionList g lineSite lineSite)
  return equals ++ values

/-- Constant names, perhaps with values, which may have a type. -/
def constSpec : Rule (List Node) := enclosed .constSpec do
  let names ← bounded (commaList true (inRole .name (word .identifier)))
  let text ← upcoming true
  if text.head? == some '=' then
    let values ← initialValues g
    return names ++ values
  else if startsType text then
    let type ← inRole .type (g (.type true))
    let values ← initialValues g
    return names ++ type ++ values
  else return names

/-- A declaration of constants. -/
def constDeclaration : Rule (List Node) := enclosed .constDeclaration do
  let head ← keyword "const"
  let specs ← specGroup (constSpec g)
  return head ++ specs

/-- Variable names with a type, values or both. -/
def varSpec : Rule (List Node) := enclosed .varSpec do
  let names ← bounded (commaList false (inRole .name (word .identifier)))
  if ← nextIs false '=' then
    let values ← initialValues g
    return names ++ values
  else
    let type ← inRole .type (g (.type true))
    if ← nextIs true '=' then
      let values ← initialValues g
      return names ++ type ++ values
    else return names ++ type

/-- A declaration of variables. -/
def varDeclaration : Rule (List Node) := enclosed .varDeclaration do
  let head ← keyword "var"
  if ← nextIs false '(' then
    let specs ← enclosed .varSpecList (specGroup (varSpec g))
    return head ++ specs
  else
    let spec ← varSpec g
    return head ++ spec

/-- A type definition. A bracket after the name starts an array type or type parameters. -/
def typeDefinition : Rule (List Node) := enclosed .typeSpec do
  let name ← inRole .name (word .typeIdentifier)
  let plain := inRole .type (g (.type true))
  if ← nextIs false '[' then
    let rest ← heavier .typeSpec plain do
      let parameters ← inRole .typeParameters (typeParameterList g)
      let type ← plain
      return parameters ++ type
    return name ++ rest
  else
    let type ← plain
    return name ++ type

/-- A type definition or a type alias. -/
def typeSpec : Rule (List Node) := do
  let cursor ← get
  let _ ← word .typeIdentifier
  let isAlias ← nextIs false '='
  -- the name is read again as a part of what it names
  set cursor
  if isAlias then
    enclosed .typeAlias do
      let name ← inRole .name (word .typeIdentifier)
      let equals ← symbol "="
      let type ← inRole .type (g (.type true))
      return name ++ equals ++ type
  else typeDefinition g

/-- A declaration of types. -/
def typeDeclaration : Rule (List Node) := enclosed .typeDeclaration do
  let head ← keyword "type"
  let specs ← specGroup (typeSpec g)
  return head ++ specs

/-! ## The head of a file -/

/-- The package clause. -/
def packageClause : Rule (List Node) := enclosed .packageClause do
  let head ← keyword "package"
  let name ← word .packageIdentifier
  return head ++ name

/-- An import path, perhaps behind a local name. -/
def importSpec : Rule (List Node) := enclosed .importSpec do
  let name ←
    if ← nextIs false '.' then inRole .name (take .dot 1)
    else
      match ← nextWord false with
      | "" => pure []
      | "_" => inRole .name (word .blankIdentifier)
      | _ => inRole .name (word .packageIdentifier)
  match Lexeme.string? (← upcoming false) with
  | some (kind, n) =>
    let path ← inRole .path (take kind n)
    return name ++ path
  | none => stuck

/-- An import declaration. -/
def importDeclaration : Rule (List Node) := enclosed .importDeclaration do
  let head ← keyword "import"
  if ← nextIs false '(' then
    let list ← enclosed .importSpecList do
      let opening ← symbol "("
      let specs ← bounded (terminatedItems ')' importSpec)
      let close ← symbol ")"
      return opening ++ specs ++ close
    return head ++ list
  else
    let spec ← importSpec
    return head ++ spec

/-! ## Functions -/

/-- The parameters, the result and the body of a declaration; the last two may be left out. -/
def functionTail : Rule (List Node) := do
  let parameters ← inRole .parameters (parameterList g)
  let result ← resultRule g true
  let body ← if ← nextIs true '{' then inRole .body (g .block) else pure []
  return parameters ++ result ++ body

/-- A function declaration. -/
def functionDeclaration : Rule (List Node) := enclosed .functionDeclaration do
  let head ← keyword "func"
  let name ← inRole .name (word .identifier)
  let typeParameters ←
    if ← nextIs false '[' then inRole .typeParameters (typeParameterList g) else pure []
  let tail ← functionTail g
  return head ++ name ++ typeParameters ++ tail

/-- A method declaration. -/
def methodDeclaration : Rule (List Node) := enclosed .methodDeclaration do
  let head ← keyword "func"
  let receiver ← inRole .receiver (parameterList g)
  let name ← inRole .name (word .fieldIdentifier)
  let tail ← functionTail g
  return head ++ receiver ++ name ++ tail

/-- After `func` and a list of parameters, a name and another parenthesis follow. -/
def looksLikeMethod : Rule Bool := fun cursor =>
  let look : Rule Bool := do
    let _ ← keyword "func"
    let _ ← parameterList g
    -- a word for types starts the result of a function without a name
    if (← nextWord false) ∈ "" :: typeKeywords then return false
    let _ ← word .fieldIdentifier
    nextIs false '('
  match look cursor with
  | .ok (found, _) => .ok (found, cursor)
  | .error _ => .ok (false, cursor)

end GoOutline.Syntax
