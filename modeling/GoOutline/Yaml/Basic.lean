/-!
# Documents of nested scalars, sequences and mappings

A document is read into nodes that remember where they start. What is wrong with a text is told by
the place where reading stopped and by the construct that was being read there.

## Main definitions

* `Yaml.Mark`: a line and a column
* `Yaml.Node`: the nodes
* `Yaml.Problem`, `Yaml.Context`, `Yaml.Error`: what is wrong with a text
-/

namespace GoOutline.Yaml

/-- A line and a column, both counted from zero; the column counts characters. -/
structure Mark where
  line : Nat := 0
  column : Nat := 0
  deriving DecidableEq, Repr, Inhabited

namespace Mark

/-- The mark stands at the very start. -/
def isStart (m : Mark) : Bool := m.line == 0 && m.column == 0

/-- The mark in words, counted from one. -/
def text (m : Mark) : String :=
  "line " ++ toString (m.line + 1) ++ " column " ++ toString (m.column + 1)

/-- The mark behind a message. The start of the text is not mentioned. -/
def suffix (m : Mark) : String := if m.isStart then "" else " at " ++ m.text

end Mark

/-- A node of a document. -/
inductive Node where
  /-- A text; a plain one is written without quotes and on its own may stand for another value. -/
  | scalar (mark : Mark) (isPlain : Bool) (text : String)
  | sequence (mark : Mark) (items : List Node)
  | mapping (mark : Mark) (entries : List (Node × Node))
  deriving Repr, Inhabited

namespace Node

/-- Where the node starts. -/
def mark : Node → Mark
  | .scalar mark _ _ => mark
  | .sequence mark _ => mark
  | .mapping mark _ => mark

/-- A node that is not written. -/
def empty (mark : Mark) : Node := .scalar mark true ""

end Node

/-- What is wrong at a place. -/
inductive Problem where
  | controlCharacter
  | cannotStartToken
  | expectedNode
  | expectedKey
  | expectedEntry
  | expectedCommaOrBracket
  | expectedCommaOrBrace
  | expectedColon
  | expectedDocumentStart
  | sequenceNotAllowed
  | keyNotAllowed
  | valueNotAllowed
  | tabInIndentation
  | tabForIndentation
  | unexpectedColon
  | unexpectedEnd
  | unexpectedDocumentMark
  | unknownEscape
  | expectedHexadecimal
  | invalidCodePoint
  | zeroIndentation
  | expectedCommentOrBreak
  | expectedName
  | expectedTagEnd
  | unknownAlias
  | unknownDirective
  | expectedVersion
  | incompatibleVersion
  deriving DecidableEq, Repr, Inhabited

/-- The text of a problem. -/
def Problem.text : Problem → String
  | .controlCharacter => "control characters are not allowed"
  | .cannotStartToken => "found character that cannot start any token"
  | .expectedNode => "did not find expected node content"
  | .expectedKey => "did not find expected key"
  | .expectedEntry => "did not find expected '-' indicator"
  | .expectedCommaOrBracket => "did not find expected ',' or ']'"
  | .expectedCommaOrBrace => "did not find expected ',' or '\x7d'"
  | .expectedColon => "could not find expected ':'"
  | .expectedDocumentStart => "did not find expected <document start>"
  | .sequenceNotAllowed => "block sequence entries are not allowed in this context"
  | .keyNotAllowed => "mapping keys are not allowed in this context"
  | .valueNotAllowed => "mapping values are not allowed in this context"
  | .tabInIndentation => "found a tab character that violates indentation"
  | .tabForIndentation => "found a tab character where an indentation space is expected"
  | .unexpectedColon => "found unexpected ':'"
  | .unexpectedEnd => "found unexpected end of stream"
  | .unexpectedDocumentMark => "found unexpected document indicator"
  | .unknownEscape => "found unknown escape character"
  | .expectedHexadecimal => "did not find expected hexdecimal number"
  | .invalidCodePoint => "found invalid Unicode character escape code"
  | .zeroIndentation => "found an indentation indicator equal to 0"
  | .expectedCommentOrBreak => "did not find expected comment or line break"
  | .expectedName => "did not find expected alphabetic or numeric character"
  | .expectedTagEnd => "did not find expected whitespace or line break"
  | .unknownAlias => "unknown anchor"
  | .unknownDirective => "found unknown directive name"
  | .expectedVersion => "did not find expected version number"
  | .incompatibleVersion => "found incompatible YAML document"

/-- What was being read. -/
inductive Context where
  | token
  | blockNode
  | flowNode
  | blockMapping
  | blockSequence
  | flowMapping
  | flowSequence
  | simpleKey
  | plainScalar
  | quotedScalar
  | escape
  | blockScalar
  | anchor
  | reference
  | tag
  | directive
  deriving DecidableEq, Repr, Inhabited

/-- The text of a context. -/
def Context.text : Context → String
  | .token => "while scanning for the next token"
  | .blockNode => "while parsing a block node"
  | .flowNode => "while parsing a flow node"
  | .blockMapping => "while parsing a block mapping"
  | .blockSequence => "while parsing a block collection"
  | .flowMapping => "while parsing a flow mapping"
  | .flowSequence => "while parsing a flow sequence"
  | .simpleKey => "while scanning a simple key"
  | .plainScalar => "while scanning a plain scalar"
  | .quotedScalar => "while scanning a quoted scalar"
  | .escape => "while parsing a quoted scalar"
  | .blockScalar => "while scanning a block scalar"
  | .anchor => "while scanning an anchor"
  | .reference => "while scanning an alias"
  | .tag => "while scanning a tag"
  | .directive => "while scanning a directive"

/-- What is wrong with a text, where, and inside of what. -/
structure Error where
  problem : Problem
  mark : Mark
  context : Option (Context × Mark) := none
  deriving DecidableEq, Repr, Inhabited

/-- The text of an error. -/
def Error.message (e : Error) : String :=
  let inside :=
    match e.context with
    | none => ""
    | some (context, mark) =>
      ", " ++ context.text ++ (if mark == e.mark then "" else mark.suffix)
  e.problem.text ++ e.mark.suffix ++ inside

end GoOutline.Yaml
