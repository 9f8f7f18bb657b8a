import GoOutline.Syntax.Grammar.Statements

/-!
# The grammar of a file

The rules tied together, and the top level of a file: declarations and statements with terminators
after them.

## Main definitions

* `grammar`: a reading of every construct, to a given depth
* `fileRule`: a whole file
-/

namespace GoOutline.Syntax

open Rule

/-- The rule of a construct, given readings of the constructs inside it. -/
def ruleOf (g : Grammar) : Grammar
  | .type line => typeRule g line
  | .expression level site => expressionRule g level site
  | .literalValue => literalValueRule g
  | .block => blockRule g
  | .statement place => statementRule g place
  | .ifStatement => ifRule g

/-- The grammar, with constructs nested at most `depth` deep. -/
def grammar : Nat → Grammar
  | 0 => fun _ => stuck
  | depth + 1 => ruleOf (grammar depth)

/-- A depth that no text of a length reaches: each level of nesting takes a character of its own,
with at most a few constructs around it. -/
def depthFor (length : Nat) : Nat := 4 * length + 32

variable (g : Grammar)

/-- A name follows the word `func`. -/
def namedFunctionAhead : Rule Bool := fun cursor =>
  let look : Rule Bool := do
    let _ ← keyword "func"
    return !(← nextWord false).isEmpty
  match look cursor with
  | .ok (found, _) => .ok (found, cursor)
  | .error _ => .ok (false, cursor)

/-- A declaration or statement at the top level of a file. -/
def topLevel : Rule (List Node) := do
  match ← nextWord false with
  | "package" => packageClause
  | "import" => importDeclaration
  | "func" =>
    if ← namedFunctionAhead then functionDeclaration g
    else if ← looksLikeMethod g then methodDeclaration g
    else g (.statement .file)
  | _ => g (.statement .file)

/-- The comments up to the next token. -/
def comments : Rule (List Node) := fun cursor => .ok (cursor.trivia false)

/-- The items of a file. The last one may do without a terminator. -/
def fileItems : Nat → Rule (List Node)
  | 0 => stuck
  | rounds + 1 => do
    if (← upcoming false).isEmpty then return ← comments
    let first ← topLevel g
    match ← terminator? with
    | some terminator =>
      let more ← fileItems rounds
      return first ++ terminator ++ more
    | none =>
      if (← upcoming false).isEmpty then
        let last ← comments
        return first ++ last
      else stuck

/-- A whole file. -/
def fileRule : Rule (List Node) := fun cursor =>
  bounded (fileItems (grammar (depthFor cursor.rest.length))) cursor

end GoOutline.Syntax
