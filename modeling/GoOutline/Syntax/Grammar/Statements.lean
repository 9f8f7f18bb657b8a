import GoOutline.Syntax.Grammar.Declarations

/-!
# Rules for statements

Simple statements, the compound statements with their headers and clauses, and lists of statements
with terminators between them.

## Main definitions

* `statementRule`: a statement
* `blockRule`: a block
* `ifRule`: a conditional statement
* `statementList`: the statements of a block or clause
-/

namespace GoOutline.Syntax

open Rule

variable (g : Grammar)

/-! ## Simple statements -/

/-- The operator that may follow the left side of a statement. -/
inductive Continuation where
  | increment | decrement | send | define
  | assign (operator : String)
  deriving DecidableEq, Repr

/-- What follows the left side of a statement. -/
def continuation? (text : List Char) : Option Continuation :=
  if Lexeme.startsWith "++" text then some .increment
  else if Lexeme.startsWith "--" text then some .decrement
  else if Lexeme.startsWith "<-" text then some .send
  else if Lexeme.startsWith ":=" text then some .define
  else (Lexeme.assignmentOperator? text).map .assign

/-- The first expression of a statement. -/
def Site.atStatement (site : Site) : Site := { site with statement := true }

/-- The expressions of a left side after the first. No block can follow them, so a brace starts a
literal again. -/
def Site.afterComma (site : Site) : Site := { line := site.line, statement := true }

/-- The expressions to the left of a statement's operator. -/
structure LeftSide where
  /-- The first expression. -/
  first : List Node
  /-- More expressions, with the commas before them. -/
  more : List Node

/-- The expressions as a list node. -/
def LeftSide.list (left : LeftSide) : List Node :=
  Node.enclose .expressionList (left.first ++ left.more)

/-- Reads the left side of a statement. -/
def leftSide (site : Site) : Rule LeftSide := do
  let first ← g (.expression Goal.anyLevel site.atStatement)
  if ← nextIs site.line ',' then
    let comma ← symbol ","
    let more ← bounded (commaList site.line (g (.expression Goal.anyLevel site.afterComma)))
    return ⟨first, comma ++ more⟩
  else return ⟨first, []⟩

/-- The rest of a simple statement after its left side. The expressions to the right of an operator
stand at the site `right`. -/
def simpleTail (line : Bool) (right : Site) (left : LeftSide) : Rule (List Node) := do
  let rightList := expressionList g right right
  match continuation? (← upcoming line) with
  | some .define =>
    let operator ← symbol ":="
    let values ← rightList
    return Node.enclose .shortVarDeclaration (left.list ++ operator ++ values)
  | some (.assign spelling) =>
    let operator ← symbol spelling
    let values ← rightList
    return Node.enclose .assignmentStatement (left.list ++ operator ++ values)
  | other =>
    -- only assignments and declarations have more than one expression to the left
    if !left.more.isEmpty then stuck
    match other with
    | some .increment => return Node.enclose .incStatement (left.first ++ (← symbol "++"))
    | some .decrement => return Node.enclose .decStatement (left.first ++ (← symbol "--"))
    | some .send =>
      let operator ← symbol "<-"
      let value ← g (.expression Goal.anyLevel right)
      return Node.enclose .sendStatement (left.first ++ operator ++ value)
    | _ => return Node.enclose .expressionStatement left.first

/-- A simple statement. -/
def simpleStatement (site right : Site) : Rule (List Node) := do
  let left ← leftSide g site
  simpleTail g site.line right left

/-- The last node of a run is an expression statement. -/
def isExpressionStatement (parts : List Node) : Bool :=
  match parts.getLast? with
  | some n => n.kind == .expressionStatement
  | none => false

/-- The header of a compound statement: a brace after an expression ends it. -/
def headerSite : Site := { header := true }

/-! ## Lists of statements -/

/-- The list of statements ends here. -/
def listEnds (place : Place) : Rule Bool := do
  let text ← upcoming false
  if text.isEmpty || text.head? == some '}' then return true
  return place == .clause && String.ofList (Lexeme.word text) ∈ ["case", "default"]

/-- A label starts here: a word that no expression keyword is, and a colon on its line. -/
def labelAhead : Rule Bool := fun cursor =>
  let look : Rule Bool := do
    if (← nextWord false) ∈ expressionKeywords then return false
    let _ ← word .labelName
    return (← nextIs true ':') && !(← nextStarts true ":=")
  match look cursor with
  | .ok (found, _) => .ok (found, cursor)
  | .error _ => .ok (false, cursor)

/-- A label and its colon. -/
def label : Rule (List Node) := do
  let name ← word .labelName
  let colon ← symbol ":"
  return name ++ colon

/-- A label with nothing after it, if one comes next. -/
def emptyLabel? (place : Place) : Rule (Option (List Node)) := do
  let cursor ← get
  if !(← labelAhead) then return none
  let parts ← label
  if ← listEnds place then return some (Node.enclose .labeledStatement parts)
  -- a statement follows, and the label is read again with it
  set cursor
  return none

/-- Statements with terminators between them. -/
def statementList (place : Place) : Nat → Rule (List Node)
  | 0 => stuck
  | rounds + 1 => do
    if ← listEnds place then return []
    match ← emptyLabel? place with
    | some parts => return parts
    | none =>
      let first ← g (.statement place)
      match ← terminator? with
      | some terminator =>
        let more ← statementList place rounds
        return first ++ terminator ++ more
      | none => return first

/-- A block. -/
def blockRule : Rule (List Node) := enclosed .block do
  let opening ← symbol "\x7b"
  let statements ← bounded (statementList g .body)
  let close ← symbol "\x7d"
  return opening ++ statements ++ close

/-! ## Conditional statements and loops -/

/-- The header of a conditional: perhaps a simple statement and a semicolon, then a condition. -/
def ifHeader : Rule (List Node) := do
  let first ← simpleStatement g headerSite {}
  if ← nextIs false ';' then
    let semicolon ← symbol ";"
    let condition ← g (.expression Goal.anyLevel headerSite)
    return first ++ semicolon ++ condition
  else if isExpressionStatement first then return first
  else stuck

/-- A conditional statement. -/
def ifRule : Rule (List Node) := enclosed .ifStatement do
  let head ← keyword "if"
  let header ← ifHeader g
  let consequence ← g .block
  if (← nextWord true) == "else" then
    let otherwise ← keyword "else"
    let alternative ← if (← nextWord false) == "if" then g .ifStatement else g .block
    return head ++ header ++ consequence ++ otherwise ++ alternative
  else return head ++ header ++ consequence

/-- The word `range` and what it ranges over. -/
def rangeTail : Rule (List Node) := do
  let head ← keyword "range"
  let value ← g (.expression Goal.anyLevel headerSite)
  return head ++ value

/-- The part of a loop header from the first semicolon on. -/
def clauseTail : Rule (List Node) := do
  let first ← symbol ";"
  let condition ←
    if ← nextIs false ';' then pure [] else g (.expression Goal.anyLevel {})
  let second ← symbol ";"
  let update ←
    if ← nextIs false '{' then pure [] else simpleStatement g headerSite headerSite
  return first ++ condition ++ second ++ update

/-- The header of a loop: nothing, a condition, three clauses or a range. -/
def forHeader : Rule (List Node) := do
  if ← nextIs false '{' then return []
  if ← nextIs false ';' then return ← enclosed .forClause (clauseTail g)
  if (← nextWord false) == "range" then return ← enclosed .rangeClause (rangeTail g)
  let left ← leftSide g headerSite
  -- without `range` behind it the operator belongs to a simple statement, which starts here
  let start ← get
  let operator ←
    match continuation? (← upcoming false) with
    | some .define => symbol ":="
    | some (.assign "=") => symbol "="
    | _ => pure []
  if !operator.isEmpty && (← nextWord false) == "range" then
    let tail ← rangeTail g
    return Node.enclose .rangeClause (left.list ++ operator ++ tail)
  set start
  let first ← simpleTail g false {} left
  if ← nextIs false ';' then
    let tail ← clauseTail g
    return Node.enclose .forClause (first ++ tail)
  else if isExpressionStatement first then return first
  else stuck

/-- A loop. -/
def forRule : Rule (List Node) := enclosed .forStatement do
  let head ← keyword "for"
  let header ← forHeader g
  let body ← inRole .body (g .block)
  return head ++ header ++ body

/-! ## Switch and select statements -/

/-- A clause that starts with `default`. -/
def defaultCase : Rule (List Node) := enclosed .defaultCase do
  let head ← keyword "default"
  let colon ← symbol ":"
  let body ← bounded (statementList g .clause)
  return head ++ colon ++ body

/-- A clause that starts with `case`. -/
def caseClause (kind : Kind) (subject : Rule (List Node)) : Rule (List Node) := enclosed kind do
  let head ← keyword "case"
  let subject ← subject
  let colon ← symbol ":"
  let body ← bounded (statementList g .clause)
  return head ++ subject ++ colon ++ body

/-- Clauses up to the closing brace. -/
def clauses (case : Rule (List Node)) : Nat → Rule (List Node)
  | 0 => stuck
  | rounds + 1 => do
    match ← nextWord false with
    | "case" =>
      let first ← case
      return first ++ (← clauses case rounds)
    | "default" =>
      let first ← defaultCase g
      return first ++ (← clauses case rounds)
    | _ => return []

/-- Clauses in braces. -/
def clauseBody (case : Rule (List Node)) : Rule (List Node) := do
  let opening ← symbol "\x7b"
  let clauses ← bounded (clauses g case)
  let close ← symbol "\x7d"
  return opening ++ clauses ++ close

/-- The node asserts the word `type`, which only the header of a type switch does. -/
def assertsTypeWord (n : Node) : Bool :=
  n.kind == .typeAssertionExpression &&
    (match n.child? .type with
    | some t => t.kind == .typeIdentifier && t.text == "type"
    | none => false)

/-- The subject of a switch asks for a type: an assertion of the word `type`, perhaps bound to a
name. -/
def asksForType (parts : List Node) : Bool :=
  match parts.getLast? with
  | some (.mk head children) =>
    match head.kind, children.getLast? with
    | .expressionStatement, some value => assertsTypeWord value
    | .shortVarDeclaration, some (.mk _ [value]) => assertsTypeWord value
    | _, _ => false
  | none => false

/-- The header of a switch: perhaps a simple statement and a semicolon, then perhaps a subject. The
parts of the header come with the subject apart. -/
def switchHeader : Rule (List Node × List Node) := do
  if ← nextIs false '{' then return ([], [])
  let first ← simpleStatement g headerSite {}
  if ← nextIs false ';' then
    let semicolon ← symbol ";"
    if ← nextIs false '{' then return (first ++ semicolon, [])
    let second ← simpleStatement g headerSite {}
    return (first ++ semicolon, second)
  else return ([], first)

/-- A switch on a value or on a type. -/
def switchRule : Rule (List Node) := do
  let head ← keyword "switch"
  let (initializer, subject) ← switchHeader g
  if asksForType subject then
    let types := bounded (commaList false (inRole .type (g (.type false))))
    let body ← clauseBody g (caseClause g .typeCase types)
    return Node.enclose .typeSwitchStatement (head ++ initializer ++ subject ++ body)
  -- a simple statement that is no expression cannot be switched on
  else if subject.isEmpty || isExpressionStatement subject then
    let body ← clauseBody g (caseClause g .expressionCase (expressionList g {} {}))
    return Node.enclose .expressionSwitchStatement (head ++ initializer ++ subject ++ body)
  else stuck

/-- The communication of a clause of a select statement. -/
def communication : Rule (List Node) := do
  let left ← leftSide g {}
  match continuation? (← upcoming false) with
  | some .define =>
    let operator ← symbol ":="
    let value ← innerExpression g
    return Node.enclose .receiveStatement (left.list ++ operator ++ value)
  | some (.assign "=") =>
    let operator ← symbol "="
    let value ← innerExpression g
    return Node.enclose .receiveStatement (left.list ++ operator ++ value)
  | other =>
    -- several expressions to the left stand only before `:=` and `=`
    if !left.more.isEmpty then stuck
    if other == some .send then
      let operator ← symbol "<-"
      let value ← innerExpression g
      return Node.enclose .sendStatement (left.first ++ operator ++ value)
    else return Node.enclose .receiveStatement left.first

/-- A select statement. -/
def selectRule : Rule (List Node) := enclosed .selectStatement do
  let head ← keyword "select"
  let body ← clauseBody g (caseClause g .communicationCase (communication g))
  return head ++ body

/-! ## Statements -/

/-- The statement has nothing more on its line. -/
def lineEnds (place : Place) : Rule Bool := do
  match ← upcoming true with
  | [] => return true
  | c :: _ =>
    if c ∈ ['\n', ';', '\x00', '}'] then return true
    -- the next clause may start on the same line
    return place == .clause && (← nextWord true) ∈ ["case", "default"]

/-- A word and perhaps a label after it. -/
def jump (kind : Kind) (spelling : String) (place : Place) : Rule (List Node) := enclosed kind do
  let head ← keyword spelling
  if ← lineEnds place then return head
  let label ← word .labelName
  return head ++ label

/-- A word and the expression it acts on. -/
def prefixed (kind : Kind) (spelling : String) : Rule (List Node) := enclosed kind do
  let head ← keyword spelling
  let value ← g (.expression Goal.anyLevel lineSite)
  return head ++ value

/-- A statement that no keyword starts. -/
def plainStatement (place : Place) : Rule (List Node) := do
  match (← upcoming false).head? with
  | some '{' => g .block
  | some ';' => take .emptyStatement 1
  | _ =>
    if ← labelAhead then
      enclosed .labeledStatement do
        let label ← label
        let statement ← g (.statement place)
        return label ++ statement
    else simpleStatement g lineSite lineSite

/-- A statement. -/
def statementRule (place : Place) : Rule (List Node) := do
  match ← nextWord false with
  | "const" => constDeclaration g
  | "var" => varDeclaration g
  | "type" => typeDeclaration g
  | "return" => enclosed .returnStatement do
    let head ← keyword "return"
    if ← lineEnds place then return head
    let values ← expressionList g lineSite lineSite
    return head ++ values
  | "go" => prefixed g .goStatement "go"
  | "defer" => prefixed g .deferStatement "defer"
  | "if" => g .ifStatement
  | "for" => forRule g
  | "switch" => switchRule g
  | "select" => selectRule g
  | "fallthrough" => word .fallthroughStatement
  | "break" => jump .breakStatement "break" place
  | "continue" => jump .continueStatement "continue" place
  | "goto" => enclosed .gotoStatement do
    let head ← keyword "goto"
    let label ← word .labelName
    return head ++ label
  | _ => plainStatement g place

end GoOutline.Syntax
