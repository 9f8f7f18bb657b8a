import GoOutline.Syntax.Cursor
import GoOutline.Syntax.Lexeme
import GoOutline.Syntax.Weight

/-!
# Grammar rules as readers

A rule reads a construct at a cursor and returns its parts as a run of sibling nodes, or says where
it could not go on. Rules look ahead and commit; the few places where the language needs a second
reading use `Rule.orElse`, or `Rule.heavier` where both may fit.

A line feed ends a construct exactly where the grammar lets a statement end, and is white space
everywhere else. Rules that may end a statement therefore take a flag `line`: under it a line feed
counts as the next token whenever the construct read so far could be complete.

## Main definitions

* `Failure`: where a reading stopped
* `Rule`: readers
* `Rule.orElse`, `Rule.heavier`: two readings of one place
* `Rule.symbol`, `Rule.word`, `Rule.keyword`: single tokens
* `Rule.terminator?`: the end of a statement
* `Goal`, `Grammar`: the constructs that rules refer to, tied together by recursion
-/

namespace GoOutline.Syntax

open GoOutline.Text

/-- Where a reading stopped. -/
structure Failure where
  /-- The token that did not fit. -/
  cursor : Cursor
  /-- A closing bracket of a call or an index that was due, and the point where it was due. -/
  due : Option (String × Point) := none
  deriving DecidableEq, Repr, Inhabited

/-- A reader of some part of a source. -/
abbrev Rule (α : Type) := StateT Cursor (Except Failure) α

namespace Rule

/-- Stops at the next token. -/
def stuck {α : Type} : Rule α := fun cursor => .error { cursor := (cursor.trivia false).2 }

/-- Tries a second reading from the same place when the first one stops. When both stop, the one
that came further is reported. -/
def orElse {α : Type} (first second : Rule α) : Rule α := fun cursor =>
  match first cursor with
  | .ok result => .ok result
  | .error e =>
    match second cursor with
    | .ok result => .ok result
    | .error f => .error (if f.cursor.rest.length < e.cursor.rest.length then f else e)

/-- Two readings of the same text as parts of a construct of a kind. When both fit and end at the
same place, the heavier one counts, and the first of two equals. -/
def heavier (kind : Kind) (first second : Rule (List Node)) : Rule (List Node) := fun cursor =>
  match first cursor, second cursor with
  | .ok (a, endOfFirst), .ok (b, endOfSecond) =>
    if endOfFirst == endOfSecond && Node.weightAll kind false a < Node.weightAll kind false b then
      .ok (b, endOfSecond)
    else .ok (a, endOfFirst)
  | .ok result, .error _ => .ok result
  | .error _, .ok result => .ok result
  | .error e, .error f =>
    .error (if f.cursor.rest.length < e.cursor.rest.length then f else e)

/-- Reads without moving on. -/
def peek {α : Type} (rule : Rule α) : Rule α := do
  let cursor ← get
  let result ← rule
  set cursor
  return result

/-- The text from the next token on; under `line` a line feed counts as a token. -/
def upcoming (line : Bool) : Rule (List Char) := fun cursor => .ok (cursor.upcoming line, cursor)

/-- The next token starts with the character. -/
def nextIs (line : Bool) (c : Char) : Rule Bool := do
  return (← upcoming line).head? == some c

/-- The next token starts with the spelling. -/
def nextStarts (line : Bool) (spelling : String) : Rule Bool := do
  return Lexeme.startsWith spelling (← upcoming line)

/-- The word that comes next, empty when something else does. -/
def nextWord (line : Bool) : Rule String := do
  return String.ofList (Lexeme.word (← upcoming line))

/-- A leaf of the given kind over the next `n` characters, after the comments before it. -/
def take (kind : Kind) (n : Nat) : Rule (List Node) := fun cursor =>
  let (comments, here) := cursor.trivia false
  let (node, next) := here.leaf kind n
  .ok (comments ++ [node], next)

/-- A token of a given spelling. -/
def symbol (spelling : String) : Rule (List Node) := do
  if ← nextStarts false spelling then take (.token spelling) spelling.length else stuck

/-- The bracket that closes a call or an index. When a closing brace stands in its place, the
bracket is known to be missing after the last token. -/
def closing (spelling : String) : Rule (List Node) := fun cursor =>
  match symbol spelling cursor with
  | .ok result => .ok result
  | .error e =>
    -- any other token in its place is the one that does not fit
    match e.cursor.rest with
    | '}' :: _ => .error { e with due := some (spelling, cursor.point) }
    | _ => .error e

/-- Any word, as a leaf of the given kind. -/
def word (kind : Kind) : Rule (List Node) := do
  let text := Lexeme.word (← upcoming false)
  if text.isEmpty then stuck else take kind text.length

/-- A particular word. -/
def keyword (spelling : String) : Rule (List Node) := do
  if (← nextWord false) == spelling then take (.token spelling) spelling.length else stuck

/-- The end of a statement, if it comes next: a line feed, a semicolon or the character zero. -/
def terminator? : Rule (Option (List Node)) := fun cursor =>
  let (comments, here) := cursor.trivia true
  match here.rest with
  | c :: _ =>
    if c == '\n' || c == ';' || c == '\x00' then
      let spelling := if c == '\x00' then "" else c.toString
      let (node, next) := here.leaf (.token spelling) 1
      .ok (some (comments ++ [node]), next)
    -- the comments are left for what is read next
    else .ok (none, cursor)
  | [] => .ok (none, cursor)

/-- The end of a statement. -/
def terminator : Rule (List Node) := do
  match ← terminator? with
  | some nodes => return nodes
  | none => stuck

/-- Encloses the parts that a rule reads in one node. -/
def enclosed (kind : Kind) (rule : Rule (List Node)) : Rule (List Node) :=
  Node.enclose kind <$> rule

/-- Gives the parts that a rule reads a role. -/
def inRole (role : Role) (rule : Rule (List Node)) : Rule (List Node) :=
  Node.labelled role <$> rule

/-- Runs a loop with as many rounds as there are characters left, and one more: every round reads
at least one. -/
def bounded {α : Type} (loop : Nat → Rule α) : Rule α := fun cursor =>
  loop (cursor.rest.length + 1) cursor

/-- Items with commas between them and perhaps one after the last, up to a closing character. -/
def commaItems (close : Char) (item : Rule (List Node)) : Nat → Rule (List Node)
  | 0 => stuck
  | rounds + 1 => do
    let first ← item
    if ← nextIs false ',' then
      let comma ← symbol ","
      if ← nextIs false close then return first ++ comma
      let more ← commaItems close item rounds
      return first ++ comma ++ more
    else return first

/-- Items with commas between them; under `line` a line feed ends the list. -/
def commaList (line : Bool) (item : Rule (List Node)) : Nat → Rule (List Node)
  | 0 => stuck
  | rounds + 1 => do
    let first ← item
    if ← nextIs line ',' then
      let comma ← symbol ","
      let more ← commaList line item rounds
      return first ++ comma ++ more
    else return first

/-- Items that terminators separate, up to a closing character; the last may do without. -/
def terminatedItems (close : Char) (item : Rule (List Node)) : Nat → Rule (List Node)
  | 0 => stuck
  | rounds + 1 => do
    if ← nextIs false close then return []
    let first ← item
    match ← terminator? with
    | some terminator =>
      let more ← terminatedItems close item rounds
      return first ++ terminator ++ more
    | none => return first

/-- Items that each end with a terminator, up to a closing character. -/
def closedItems (close : Char) (item : Rule (List Node)) : Nat → Rule (List Node)
  | 0 => stuck
  | rounds + 1 => do
    if ← nextIs false close then return []
    let first ← item
    let last ← terminator
    let more ← closedItems close item rounds
    return first ++ last ++ more

end Rule

/-! ## The constructs that rules refer to -/

/-- Where an expression stands. -/
structure Site where
  /-- A line feed after the expression ends the statement. -/
  line : Bool := false
  /-- A brace after the expression starts a block and not a literal. -/
  header : Bool := false
  /-- The operators of statements may follow the expression. -/
  statement : Bool := false
  deriving DecidableEq, Repr, Inhabited

/-- Where a statement stands. -/
inductive Place where
  /-- At the top level of a file. -/
  | file
  /-- In a block. -/
  | body
  /-- In a clause of a switch or select statement, where `case` and `default` are keywords. -/
  | clause
  deriving DecidableEq, Repr, Inhabited

/-- The constructs that contain one another. -/
inductive Goal where
  /-- A type. -/
  | type (line : Bool)
  /-- An expression whose binary operators have at least a given precedence. -/
  | expression (level : Nat) (site : Site)
  /-- The braces of a composite literal. -/
  | literalValue
  /-- A block. -/
  | block
  /-- A statement. -/
  | statement (place : Place)
  /-- A statement that starts with `if`. -/
  | ifStatement
  deriving DecidableEq, Repr, Inhabited

/-- A reading of every construct. -/
abbrev Grammar := Goal → Rule (List Node)

/-- The lowest precedence of a binary operator: an expression of any form. -/
def Goal.anyLevel : Nat := 1

/-- The level above all binary operators: an operand of a unary operator. -/
def Goal.operandLevel : Nat := 6

/-- The words that are keywords wherever a type may stand. -/
def typeKeywords : List String := ["func", "struct", "map", "chan", "interface"]

/-- The words that are keywords wherever an expression may stand. -/
def expressionKeywords : List String :=
  typeKeywords ++ ["new", "make", "nil", "true", "false", "iota"]

/-- A type may start with the text. -/
def startsType (text : List Char) : Bool :=
  !(Lexeme.word text).isEmpty || Lexeme.startsWith "<-" text ||
    (match text.head? with
    | some c => c ∈ ['*', '[', '(', '~']
    | none => false)

end GoOutline.Syntax
