import GoOutline.Syntax.Grammar.Basic

/-!
# Rules for types

Types, the parameter lists of functions, and the bodies of struct and interface types.

## Main definitions

* `typeRule`: a type
* `parameterList`, `parameterGroup`: the parameters of a function and one group of them
* `resultRule`: the result of a function, if it has one
* `typeParameterList`: the type parameters of a declaration
* `namedType`: a type that a name starts
-/

namespace GoOutline.Syntax

open Rule

variable (g : Grammar)

/-- A union of types, as a node of the given kind. -/
def typeUnion (kind : Kind) (line : Bool) : Rule (List Node) :=
  let rec alternatives : Nat → Rule (List Node)
    | 0 => stuck
    | rounds + 1 => do
      let first ← g (.type line)
      if ← nextIs line '|' then
        let bar ← symbol "|"
        let more ← alternatives rounds
        return first ++ bar ++ more
      else return first
  enclosed kind (bounded alternatives)

/-- The bracketed arguments of a generic type. -/
def typeArguments : Rule (List Node) := enclosed .typeArguments do
  let opening ← symbol "["
  let items ← bounded (commaItems ']' (typeUnion g .typeElem false))
  let close ← closing "]"
  return opening ++ items ++ close

/-- A type that starts with a name: the name, a name qualified by a package, or either with type
arguments. The keywords of types are names here: `typeRule` has read them before it comes to a
name, and an embedded field has no other type than a named one. -/
def namedType (line : Bool) : Rule (List Node) := do
  let first ← word .typeIdentifier
  let base ←
    if (← nextIs line '.') && !(← nextStarts line "...") then
      -- the word was read as the name of a type, and is that of a package before a dot; the
      -- comments in front stay comments
      let package := first.map fun n =>
        if n.isComment then n else .leaf .packageIdentifier n.span n.text
      let dot ← symbol "."
      let name ← word .typeIdentifier
      pure (Node.enclose .qualifiedType
        (Node.labelled .package package ++ dot ++ Node.labelled .name name))
    else pure first
  if ← nextIs line '[' then
    let arguments ← typeArguments g
    return Node.enclose .genericType
      (Node.labelled .type base ++ Node.labelled .typeArguments arguments)
  else return base

/-! ## Parameters -/

/-- The names at the start of a group of parameters. They are names only when a type follows the
last of them. Only a name can follow the comma after a name, so any word will do there. -/
def groupNames : Nat → Rule (List Node)
  | 0 => stuck
  | rounds + 1 => do
    let name ← inRole .name (word .identifier)
    if ← nextIs false ',' then
      let comma ← symbol ","
      let more ← groupNames rounds
      return name ++ comma ++ more
    -- without a type after it the last name would be a type itself
    else if startsType (← upcoming false) then return name
    else stuck

/-- The names at the start of a group, the first of which is no keyword. -/
def leadingNames : Rule (List Node) := do
  if (← nextWord false) ∈ typeKeywords then stuck
  bounded groupNames

/-- Nothing more belongs to the group of parameters. -/
def groupEnds : Rule Unit := do
  if (← nextIs false ',') || (← nextIs false ')') then return () else stuck

/-- Names that share a type. -/
def sharedType : Rule (List Node) := enclosed .parameterDeclaration do
  let names ← leadingNames
  let type ← inRole .type (g (.type false))
  groupEnds
  return names ++ type

/-- A parameter that is only a type. -/
def bareType : Rule (List Node) := enclosed .parameterDeclaration (inRole .type (g (.type false)))

/-- Parameters that are only types, up to the first that a keyword starts. -/
def bareTypes : Nat → Rule (List Node)
  | 0 => stuck
  | rounds + 1 => do
    let isLast := (← nextWord false) ∈ typeKeywords
    let first ← bareType g
    -- the keyword is where the two readings of the group part, so this reading ends with it
    if isLast then
      groupEnds
      return first
    else
      let comma ← symbol ","
      let more ← bareTypes rounds
      return first ++ comma ++ more

/-- Names that share a type. When one of the names is a keyword, it may as well start a type of its
own, and the names before it be types. -/
def namedGroup : Rule (List Node) := do
  let names ← peek leadingNames
  if names.any (·.text ∈ typeKeywords) then
    heavier .parameterList (sharedType g) (bounded (bareTypes g))
  else sharedType g

/-- A group of parameters: names that share a type, a type alone, or a variadic parameter. -/
def parameterGroup : Rule (List Node) :=
  orElse (namedGroup g)
    (orElse
      (enclosed .variadicParameterDeclaration do
        let name ← if ← nextStarts false "..." then pure [] else inRole .name (word .identifier)
        let dots ← symbol "..."
        let type ← inRole .type (g (.type false))
        return name ++ dots ++ type)
      (bareType g))

/-- A parenthesized list of parameter groups. -/
def parameterList : Rule (List Node) := enclosed .parameterList do
  let opening ← symbol "("
  let groups ←
    if ← nextIs false ')' then pure []
    else if ← nextIs false ',' then symbol ","
    else bounded (commaItems ')' (parameterGroup g))
  let close ← symbol ")"
  return opening ++ groups ++ close

/-- The result of a function, when one follows. -/
def resultRule (line : Bool) : Rule (List Node) := do
  let text ← upcoming line
  if text.head? == some '(' then inRole .result (parameterList g)
  else if startsType text then inRole .result (g (.type line))
  else return []

/-- A group of type parameters: names and their constraint. -/
def typeParameterGroup : Rule (List Node) := enclosed .typeParameterDeclaration do
  let names ← leadingNames
  let constraint ← inRole .type (typeUnion g .typeConstraint false)
  return names ++ constraint

/-- The bracketed type parameters of a declaration. -/
def typeParameterList : Rule (List Node) := enclosed .typeParameterList do
  let opening ← symbol "["
  let groups ← bounded (commaItems ']' (typeParameterGroup g))
  let close ← symbol "]"
  return opening ++ groups ++ close

/-! ## Struct and interface bodies -/

/-- The tag after a field, when one follows on the line. -/
def fieldTag : Rule (List Node) := do
  match Lexeme.string? (← upcoming true) with
  | some (kind, n) => inRole .tag (take kind n)
  | none => return []

/-- Field names and the type they share. -/
def namedField : Rule (List Node) := do
  let names ← bounded (commaList false (inRole .name (word .fieldIdentifier)))
  let type ← inRole .type (g (.type true))
  return names ++ type

/-- A field that is only a type, perhaps behind a star. -/
def embeddedField : Rule (List Node) := do
  let star ← if ← nextIs false '*' then symbol "*" else pure []
  let type ← inRole .type (namedType g true)
  return star ++ type

/-- The list of fields can go on from here: it ends, or a terminator and another field follow. -/
def fieldsGoOn (field : Rule (List Node)) : Rule Unit := do
  if ← nextIs true '}' then return ()
  let _ ← terminator
  if ← nextIs false '}' then return ()
  let _ ← field

/-- A field of a struct. What follows its first name on the line tells the two forms apart. A
bracket there starts the arguments of an embedded generic type if the list of fields can go on after
it, and an array or slice type otherwise. -/
def fieldDeclaration : Nat → Rule (List Node)
  | 0 => stuck
  | rounds + 1 => enclosed .fieldDeclaration do
    let text ← if ← nextIs false '*' then pure [] else peek (word .fieldIdentifier *> upcoming true)
    let withTag (field : Rule (List Node)) : Rule (List Node) := do
      return (← field) ++ (← fieldTag)
    match text.head? with
    | some ',' => withTag (namedField g)
    | some '[' =>
      orElse
        (do
          let field ← withTag (embeddedField g)
          peek (fieldsGoOn (fieldDeclaration rounds))
          return field)
        (withTag (namedField g))
    | _ => withTag (if startsType text then namedField g else embeddedField g)

/-- The fields of a struct in their braces. -/
def fieldDeclarationList : Rule (List Node) := enclosed .fieldDeclarationList do
  let opening ← symbol "\x7b"
  let fields ← bounded (terminatedItems '}' (bounded (fieldDeclaration g)))
  let close ← symbol "\x7d"
  return opening ++ fields ++ close

/-- An element of an interface: a method when a name with a parenthesis starts it, a union of types
otherwise. -/
def interfaceElement : Rule (List Node) := do
  let cursor ← get
  let name ← nextWord false
  -- the word is read only to look behind it; the cursor goes back to before it
  let isMethod ←
    if name.isEmpty || name ∈ typeKeywords then pure false
    else do
      let _ ← word .fieldIdentifier
      let isMethod ← nextIs true '('
      set cursor
      pure isMethod
  if isMethod then
    enclosed .methodElem do
      let name ← inRole .name (word .fieldIdentifier)
      let parameters ← inRole .parameters (parameterList g)
      let result ← resultRule g true
      return name ++ parameters ++ result
  else typeUnion g .typeElem true

/-! ## Types -/

/-- A struct type. -/
def structType : Rule (List Node) := enclosed .structType do
  let head ← keyword "struct"
  let fields ← fieldDeclarationList g
  return head ++ fields

/-- An interface type. -/
def interfaceType : Rule (List Node) := enclosed .interfaceType do
  let head ← keyword "interface"
  let opening ← symbol "\x7b"
  let elements ← bounded (terminatedItems '}' (interfaceElement g))
  let close ← symbol "\x7d"
  return head ++ opening ++ elements ++ close

/-- A map type. -/
def mapType (line : Bool) : Rule (List Node) := enclosed .mapType do
  let head ← keyword "map"
  let opening ← symbol "["
  let key ← inRole .key (g (.type false))
  let close ← symbol "]"
  let value ← inRole .value (g (.type line))
  return head ++ opening ++ key ++ close ++ value

/-- A channel type, of any direction. -/
def channelType (line : Bool) : Rule (List Node) := enclosed .channelType do
  let before ← if ← nextStarts false "<-" then symbol "<-" else pure []
  let head ← keyword "chan"
  -- a channel has one arrow at most, so none is looked for behind `chan` after one before it
  let after ←
    if before.isEmpty && (← nextStarts false "<-") then symbol "<-" else pure []
  let value ← inRole .value (g (.type line))
  return before ++ head ++ after ++ value

/-- The word `func`, parameters and perhaps a result. -/
def signature (line : Bool) : Rule (List Node) := do
  let head ← keyword "func"
  let parameters ← inRole .parameters (parameterList g)
  let result ← resultRule g line
  return head ++ parameters ++ result

/-- A slice type or an array type. -/
def bracketType (line : Bool) : Rule (List Node) := do
  let opening ← symbol "["
  if ← nextIs false ']' then
    let close ← symbol "]"
    let element ← inRole .element (g (.type line))
    return Node.enclose .sliceType (opening ++ close ++ element)
  else
    let length ← inRole .length (g (.expression Goal.anyLevel {}))
    let close ← symbol "]"
    let element ← inRole .element (g (.type line))
    return Node.enclose .arrayType (opening ++ length ++ close ++ element)

/-- A type. -/
def typeRule (line : Bool) : Rule (List Node) := do
  let text ← upcoming false
  match text with
  | '*' :: _ => enclosed .pointerType do
    let star ← symbol "*"
    let pointee ← g (.type line)
    return star ++ pointee
  | '[' :: _ => bracketType g line
  | '(' :: _ => enclosed .parenthesizedType do
    let opening ← symbol "("
    let inner ← g (.type false)
    let close ← symbol ")"
    return opening ++ inner ++ close
  | '~' :: _ => enclosed .negatedType do
    let tilde ← symbol "~"
    let inner ← g (.type line)
    return tilde ++ inner
  | '<' :: '-' :: _ => channelType g line
  | _ =>
    match String.ofList (Lexeme.word text) with
    | "struct" => structType g
    | "interface" => interfaceType g
    | "map" => mapType g line
    | "chan" => channelType g line
    | "func" => enclosed .functionType (signature g line)
    | _ => namedType g line

end GoOutline.Syntax
