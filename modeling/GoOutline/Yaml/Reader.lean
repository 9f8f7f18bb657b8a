import GoOutline.Yaml.Scalar

/-!
# Reading documents

A node is a scalar, a sequence or a mapping. Collections are written in brackets and braces, or as
blocks whose parts start at the same column. A scalar or a bracketed collection with a colon behind
it on its line is the first key of a block mapping that starts where it starts.

Readers take the column of the block collection around them, which is -1 outside of all.

## Main definitions

* `Yaml.properties`: anchors and tags before a node
* `Yaml.blockNode`, `Yaml.flowNode`: nodes
* `Yaml.Stream`, `Yaml.read`: the first document of a text
-/

namespace GoOutline.Yaml

open Reading

/-! ## Properties -/

/-- The name at the start of a text. -/
def nameAt (s : State) : List Char := s.rest.takeWhile isNameChar

/-- What may follow the name of an anchor or an alias. -/
def nameEnds : List Char → Bool
  | [] => true
  | c :: _ => isBlank c || isBreak c || ['?', ':', ',', ']', '}', '%', '@', '\x60'].contains c

/-- The name behind the mark of an anchor or an alias, which is next. -/
def markedName (context : Context) : Reading String := do
  let start := (← get).mark
  bump
  let name := nameAt (← get)
  modify (State.skip name.length)
  if name.isEmpty || !nameEnds (← get).rest then fail .expectedName (some (context, start))
  allowKey false
  return String.ofList name

/-- A tag, whose mark is next. What it says makes no difference to a configuration. -/
def tag (flow : Bool) : Reading Unit := do
  let start := (← get).mark
  let isTagChar (c : Char) : Bool :=
    !isBlank c && !isBreak c && !(flow && isFlowMark c) && c.toNat < 0x7F
  let text := (← get).rest.takeWhile isTagChar
  modify (State.skip text.length)
  let s ← get
  if !(wordEnds s.rest || (flow && s.rest.head? == some ',')) then
    fail .expectedTagEnd (some (.tag, start))
  allowKey false

/-- The anchors and tags before a node; gives the names of the anchors, and whether there is any
property at all. -/
def properties (flow : Bool) : Nat → Reading (List String × Bool)
  | 0 => return ([], false)
  | rounds + 1 => do
    match (← get).rest with
    | '&' :: _ =>
      let name ← markedName .anchor
      trivia flow
      let (names, _) ← properties flow rounds
      return (name :: names, true)
    | '!' :: _ =>
      tag flow
      trivia flow
      let (names, _) ← properties flow rounds
      return (names, true)
    | _ => return ([], false)

/-- Gives names to a node. -/
def withAnchors (names : List String) (node : Node) : Reading Node := do
  modify fun s => { s with anchors := names.map (·, node) ++ s.anchors }
  return node

/-- The node that an alias stands for. -/
def aliasNode : Reading Node := do
  let start := (← get).mark
  let name ← markedName .reference
  match (← get).anchors.lookup name with
  | some node => return node
  | none => failAt .unknownAlias start none

/-- A colon stands behind a key that starts on this line. -/
def colonFollows (flow : Bool) (line : Nat) (s : State) : Bool :=
  let s := s.triviaLoop flow (s.rest.length + 1) false
  s.mark.line == line && (if flow then s.rest.head? == some ':' else s.atIndicator ':')

/-- The problem with a character that starts no node. -/
def noNode {α : Type} (flow : Bool) : Reading α := do
  let s ← get
  let inNode := if flow then Context.flowNode else Context.blockNode
  match s.rest with
  | [] => fail .expectedNode (some (inNode, s.mark))
  | c :: _ =>
    if c == ':' then fail .valueNotAllowed none
    else if c == '-' then fail .sequenceNotAllowed none
    else if c == '?' then fail .keyNotAllowed none
    else if isFlowMark c then fail .expectedNode (some (inNode, s.mark))
    else fail .cannotStartToken (some (.token, s.mark))

/-! ## Collections in brackets -/

mutual

/-- A scalar, an alias or a collection in brackets, without its properties. -/
def content (flow : Bool) (parent : Int) : Nat → Reading Node
  | 0 => noNode flow
  | fuel + 1 => do
    let s ← get
    match s.rest with
    | '[' :: _ =>
      bump
      let items ← flowItems parent s.mark fuel
      allowKey false
      return .sequence s.mark items
    | '{' :: _ =>
      bump
      let entries ← flowEntries parent s.mark fuel
      allowKey false
      return .mapping s.mark entries
    | '\'' :: _ => quotedScalar '\''
    | '"' :: _ => quotedScalar '"'
    | '*' :: _ => aliasNode
    | rest =>
      if s.atEnd || !startsPlain flow rest then noNode flow else plainScalar flow parent

/-- A node inside brackets. -/
def flowNode (parent : Int) : Nat → Reading Node
  | 0 => noNode true
  | fuel + 1 => do
    let start := (← get).mark
    let (names, found) ← properties true ((← get).rest.length + 1)
    let s ← get
    if found && (s.rest.head?.all fun c => c == ',' || c == ']' || c == '}' || c == ':') then
      withAnchors names (.empty start)
    else
      let node ← content true parent fuel
      withAnchors names node

/-- The value behind a colon inside brackets, which is next. -/
def flowValue (parent : Int) : Nat → Reading Node
  | 0 => noNode true
  | fuel + 1 => do
    bump
    let mark := (← get).mark
    allowKey true
    trivia true
    match (← get).rest with
    | ',' :: _ | ']' :: _ | '}' :: _ => return .empty mark
    | _ => flowNode parent fuel

/-- A key inside brackets with its value, if it has one. -/
def flowEntry (parent : Int) : Nat → Reading (Node × Option Node)
  | 0 => noNode true
  | fuel + 1 => do
    let explicit := (← get).rest.head? == some '?'
    if explicit then
      bump
      trivia true
    let s ← get
    let key ←
      match s.rest with
      | ',' :: _ | ']' :: _ | '}' :: _ | ':' :: _ =>
        if explicit then pure (.empty s.mark) else noNode true
      | _ => flowNode parent fuel
    let after ← get
    -- a key without its mark needs the colon on its own line
    let sameLine := if explicit then after.mark.line else s.mark.line
    if colonFollows true sameLine after then
      trivia true
      let value ← flowValue parent fuel
      return (key, some value)
    else if explicit then return (key, some (.empty after.mark))
    else return (key, none)

/-- The items of a sequence up to and with its closing bracket. -/
def flowItems (parent : Int) (start : Mark) : Nat → Reading (List Node)
  | 0 => noNode true
  | fuel + 1 => do
    allowKey true
    trivia true
    let s ← get
    if s.rest.head? == some ']' then
      bump
      return []
    if s.atEnd then fail .expectedCommaOrBracket (some (.flowSequence, start))
    let (key, value) ← flowEntry parent fuel
    -- a pair among the items of a sequence is a mapping of its own
    let item :=
      match value with
      | some value => .mapping s.mark [(key, value)]
      | none => key
    trivia true
    match (← get).rest with
    | ',' :: _ =>
      bump
      let more ← flowItems parent start fuel
      return item :: more
    | ']' :: _ =>
      bump
      return [item]
    | _ => fail .expectedCommaOrBracket (some (.flowSequence, start))

/-- The entries of a mapping up to and with its closing brace. -/
def flowEntries (parent : Int) (start : Mark) : Nat → Reading (List (Node × Node))
  | 0 => noNode true
  | fuel + 1 => do
    allowKey true
    trivia true
    let s ← get
    if s.rest.head? == some '}' then
      bump
      return []
    if s.atEnd then fail .expectedCommaOrBrace (some (.flowMapping, start))
    let (key, value) ← flowEntry parent fuel
    let entry := (key, value.getD (.empty (← get).mark))
    trivia true
    match (← get).rest with
    | ',' :: _ =>
      bump
      let more ← flowEntries parent start fuel
      return entry :: more
    | '}' :: _ =>
      bump
      return [entry]
    | _ => fail .expectedCommaOrBrace (some (.flowMapping, start))

end

/-! ## Blocks -/

/-- Fuel that is never used up in a text: every step reads a character or goes into a construct. -/
def contentFuel (s : State) : Nat := 4 * s.rest.length + 8

/-- A key that stands on one line with a colon behind it. -/
def simpleKey (parent : Int) : Reading Node := do
  let s ← get
  let (names, _) ← properties false (s.rest.length + 1)
  let key ← content false parent (contentFuel s)
  if !colonFollows false s.mark.line (← get) then
    trivia false
    fail .expectedColon (some (.simpleKey, s.mark))
  trivia false
  withAnchors names key

mutual

/-- A node of a block, which starts here and right of the column `parent`. -/
def blockNode (parent : Int) : Nat → Reading Node
  | 0 => noNode false
  | fuel + 1 => do
    let s ← get
    if s.atIndicator '-' then
      if s.keyAllowed then
        return .sequence s.mark (← blockItems s.mark.column false s.mark fuel)
      else fail .sequenceNotAllowed none
    else if s.atIndicator '?' || s.atIndicator ':' then
      if !s.keyAllowed then
        fail (if s.atIndicator '?' then .keyNotAllowed else .valueNotAllowed) none
      return .mapping s.mark (← blockEntries s.mark.column s.mark fuel)
    else
      let (names, found) ← properties false (s.rest.length + 1)
      let here ← get
      if found && (here.mark.line != s.mark.line || here.atEnd) then
        let node ← blockNodeOrEmpty parent true here.mark fuel
        withAnchors names node
      else if here.rest.head? == some '|' || here.rest.head? == some '>' then
        let node ← blockScalar parent
        withAnchors names node
      else
        let node ← content false parent (contentFuel here)
        if colonFollows false s.mark.line (← get) then
          if !s.keyAllowed then
            trivia false
            fail .valueNotAllowed none
          let key ← withAnchors names node
          trivia false
          let value ← blockValue s.mark.column false fuel
          let more ← blockEntries s.mark.column s.mark fuel
          return .mapping s.mark ((key, value) :: more)
        else withAnchors names node

/-- A node of a block, or an empty one at `mark` when none is indented further than `parent`. With
`indentless`, a sequence may start at the column `parent` itself. -/
def blockNodeOrEmpty (parent : Int) (indentless : Bool) (mark : Mark) : Nat → Reading Node
  | 0 => noNode false
  | fuel + 1 => do
    let s ← get
    let column : Int := s.mark.column
    if s.atEnd || column < parent then return .empty mark
    else if column == parent then
      if indentless && s.atIndicator '-' then
        return .sequence s.mark (← blockItems s.mark.column true s.mark fuel)
      else return .empty mark
    else blockNode parent fuel

/-- The value behind a colon, which is next, in a mapping at a column. -/
def blockValue (column : Nat) (explicit : Bool) : Nat → Reading Node
  | 0 => noNode false
  | fuel + 1 => do
    bump
    let mark := (← get).mark
    allowKey explicit
    trivia false
    blockNodeOrEmpty column true mark fuel

/-- The entries of a mapping at a column, from here on. -/
def blockEntries (column : Nat) (start : Mark) : Nat → Reading (List (Node × Node))
  | 0 => noNode false
  | fuel + 1 => do
    trivia false
    let s ← get
    if s.atEnd || s.mark.column < column then return []
    if s.mark.column != column || s.atIndicator '-' then
      fail .expectedKey (some (.blockMapping, start))
    -- a colon without a key before it has the empty key
    if s.atIndicator ':' then
      let value ← blockValue column true fuel
      let more ← blockEntries column start fuel
      return (.empty s.mark, value) :: more
    else if s.atIndicator '?' then
      bump
      let mark := (← get).mark
      allowKey true
      trivia false
      let key ← blockNodeOrEmpty column true mark fuel
      trivia false
      let after ← get
      if after.mark.column == column && after.atIndicator ':' then
        let value ← blockValue column true fuel
        let more ← blockEntries column start fuel
        return (key, value) :: more
      else
        let more ← blockEntries column start fuel
        return (key, .empty after.mark) :: more
    else
      let key ← simpleKey column
      let value ← blockValue column false fuel
      let more ← blockEntries column start fuel
      return (key, value) :: more

/-- The items of a sequence at a column, from here on. A sequence at the column of the mapping
around it ends where that goes on. -/
def blockItems (column : Nat) (indentless : Bool) (start : Mark) : Nat → Reading (List Node)
  | 0 => noNode false
  | fuel + 1 => do
    trivia false
    let s ← get
    if s.atEnd || s.mark.column < column then return []
    if s.mark.column == column && s.atIndicator '-' then
      bump
      let mark := (← get).mark
      allowKey true
      trivia false
      let item ← blockNodeOrEmpty column false mark fuel
      let more ← blockItems column indentless start fuel
      return item :: more
    else if indentless && s.mark.column == column then return []
    else fail .expectedEntry (some (.blockSequence, start))

end

/-! ## Documents -/

/-- The first document of a text, if there is one, and whether anything follows it. -/
structure Stream where
  document : Option Node
  hasMore : Bool
  deriving Repr, Inhabited

/-- The version behind the name of a version directive. -/
def version (start : Mark) : Reading Unit := do
  let inside := some (Context.directive, start)
  modify fun s => s.skip (s.rest.takeWhile isBlank).length
  let major := (← get).rest.takeWhile Char.isDigit
  if major.isEmpty then fail .expectedVersion inside
  modify (State.skip major.length)
  if (← get).rest.head? != some '.' then fail .expectedVersion inside
  bump
  let minor := (← get).rest.takeWhile Char.isDigit
  if minor.isEmpty then fail .expectedVersion inside
  modify (State.skip minor.length)
  if major != ['1'] || !(minor == ['1'] || minor == ['2']) then
    failAt .incompatibleVersion start none

/-- The directives before a document; says whether there are any. -/
def directives : Nat → Reading Bool
  | 0 => return false
  | rounds + 1 => do
    trivia false
    let s ← get
    if s.rest.head? == some '%' && s.mark.column == 0 then
      bump
      let name := nameAt (← get)
      modify (State.skip name.length)
      if name == "YAML".toList then version s.mark
      else if name == "TAG".toList then
        modify fun s => s.skip (s.rest.takeWhile fun c => !isBreak c && c != '#').length
      else fail .unknownDirective (some (.directive, s.mark))
      let here ← get
      match restOfLine (.directive, s.mark) (here.rest.length + 1) false here with
      | .error e => throw e
      | .ok next => set next
      let _ ← directives rounds
      return true
    else return false

/-- Over the marks that end documents. -/
def documentEnds : Nat → Reading Unit
  | 0 => return ()
  | rounds + 1 => do
    trivia false
    if (← get).atDocumentEnd then
      modify (State.skip 3)
      documentEnds rounds

/-- The first document, and whether anything follows it. -/
def stream : Reading Stream := do
  let size := (← get).rest.length + 1
  let directed ← directives size
  trivia false
  let s ← get
  if s.rest.isEmpty && !directed then return ⟨none, false⟩
  if s.atDocumentStart then
    modify (State.skip 3)
    allowKey false
    trivia false
  -- directives belong to a document whose start is marked
  else if directed then fail .expectedDocumentStart none
  let node ← blockNodeOrEmpty (-1) false s.mark (contentFuel s)
  trivia false
  if !(← get).atEnd then fail .expectedDocumentStart none
  documentEnds size
  return ⟨some node, !(← get).rest.isEmpty⟩

/-- Where the first character stands that no document may hold. -/
def controlCharacter? (text : List Char) : Option Mark :=
  if text.all isAllowed then none else some {}

/-- The first document of a text. A byte order mark at its start is stepped over. -/
def read (text : String) : Except Error Stream :=
  let chars := if text.toList.head? == some '\uFEFF' then text.toList.tail else text.toList
  match controlCharacter? chars with
  | some mark => .error ⟨.controlCharacter, mark, none⟩
  | none => (stream { rest := chars }).map (·.1)

end GoOutline.Yaml
