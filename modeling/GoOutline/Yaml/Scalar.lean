import GoOutline.Yaml.State

/-!
# Scalars

Texts in their four written forms: plain, in apostrophes, in quotation marks, and as a block of
lines behind a bar or an angle. A line break inside a text is folded into a space unless blank
lines follow it; a block behind a bar keeps its lines.

## Main definitions

* `Yaml.Gap`: the white space between two words of a text
* `Yaml.plainScalar`, `Yaml.quotedScalar`, `Yaml.blockScalar`: the written forms
-/

namespace GoOutline.Yaml

open Reading

/-! ## White space inside texts -/

/-- The white space between two words of a text. -/
structure Gap where
  /-- The blanks on the line of the first word, the last one first. -/
  blanks : List Char := []
  /-- A line ended. -/
  crossed : Bool := false
  /-- The first line break, unless it was escaped. -/
  first : Option Char := none
  /-- The line breaks after it, the last one first. -/
  more : List Char := []
  deriving DecidableEq, Repr, Inhabited

namespace Gap

/-- There is nothing between the words. -/
def isEmpty (g : Gap) : Bool := g.blanks.isEmpty && !g.crossed

/-- One more blank. Blanks at the start of a line do not count. -/
def addBlank (g : Gap) (c : Char) : Gap :=
  if g.crossed then g else { g with blanks := c :: g.blanks }

/-- One more line break. Blanks before the first one do not count. -/
def addBreak (g : Gap) (c : Char) : Gap :=
  if g.crossed then { g with more := keptBreak c :: g.more }
  else { blanks := [], crossed := true, first := some (keptBreak c), more := [] }

/-- What the gap leaves in the text, the last character first. -/
def folded (g : Gap) : List Char :=
  if !g.crossed then g.blanks
  else
    match g.first with
    | some '\n' => if g.more.isEmpty then [' '] else g.more
    | some c => g.more ++ [c]
    | none => g.more

end Gap

/-! ## Plain texts -/

/-- The punctuation of brackets and braces. -/
def isFlowMark (c : Char) : Bool := c == ',' || c == '[' || c == ']' || c == '{' || c == '}'

/-- The characters that start something other than a plain text. -/
def indicators : List Char :=
  ['-', '?', ':', ',', '[', ']', '{', '}', '#', '&', '*', '!', '|', '>', '\'', '"', '%', '@',
    '\x60']

/-- A plain text may start here. -/
def startsPlain (flow : Bool) : List Char → Bool
  | [] => false
  | c :: rest =>
    (!isBlank c && !isBreak c && !indicators.contains c) ||
      (c == '-' && !(match rest with | d :: _ => isBlank d | [] => false)) ||
      (!flow && (c == '?' || c == ':') && !wordEnds rest)

/-- The end of a plain text stands at the start of `rest`: a colon before a blank, or punctuation
inside brackets. -/
def plainEnds (flow : Bool) (c : Char) (rest : List Char) : Bool :=
  (c == ':' && wordEnds rest) || (flow && isFlowMark c)

/-- A colon inside brackets that belongs to nothing. -/
def strayColon (flow : Bool) (c : Char) (rest : List Char) : Bool :=
  flow && c == ':' &&
    (match rest with
    | d :: _ => isFlowMark d || d == '?'
    | [] => false)

/-- Reads a plain text on, in at most `fuel` steps. `text` holds what has been read, the last
character first. Lines that continue it must be indented by `indent`. -/
def plainLoop (flow : Bool) (indent : Int) (start : Mark) :
    Nat → Gap → List Char → State → Except Error (List Char × State)
  | 0, _, text, s => .ok (text, s)
  | fuel + 1, gap, text, s =>
    let done := .ok (text, { s with keyAllowed := gap.crossed })
    match s.rest with
    | [] => done
    | c :: rest =>
      if isBreak c then plainLoop flow indent start fuel (gap.addBreak c) text s.nextLine
      else if isBlank c then
        if gap.crossed && c == '\t' && (s.mark.column : Int) < indent then
          .error ⟨.tabInIndentation, s.mark, some (.plainScalar, start)⟩
        else plainLoop flow indent start fuel (gap.addBlank c) text s.bump
      -- a line that is indented less belongs to what is around the text
      else if gap.crossed && !flow && (s.mark.column : Int) < indent then done
      else if s.atDocumentStart || s.atDocumentEnd then done
      -- a comment starts only behind white space
      else if !gap.isEmpty && c == '#' then done
      else if strayColon flow c rest then
        .error ⟨.unexpectedColon, s.mark, some (.plainScalar, start)⟩
      else if plainEnds flow c rest then done
      else plainLoop flow indent start fuel {} (c :: (gap.folded ++ text)) s.bump

/-- A plain text. `parent` is the column of the collection around it. -/
def plainScalar (flow : Bool) (parent : Int) : Reading Node := fun s =>
  match plainLoop flow (parent + 1) s.mark (s.rest.length + 1) {} [] s with
  | .error e => .error e
  | .ok (text, s') => .ok (.scalar s.mark true (String.ofList text.reverse), s')

/-! ## Quoted texts -/

/-- The character that an escape of one letter stands for. -/
def simpleEscape? (c : Char) : Option Char :=
  match c with
  | '0' => some '\x00'
  | 'a' => some '\x07'
  | 'b' => some '\x08'
  | 't' => some '\t'
  | '\t' => some '\t'
  | 'n' => some '\n'
  | 'v' => some '\x0b'
  | 'f' => some '\x0c'
  | 'r' => some '\r'
  | 'e' => some '\x1b'
  | ' ' => some ' '
  | '"' => some '"'
  | '/' => some '/'
  | '\\' => some '\\'
  | 'N' => some '\u0085'
  | '_' => some '\u00a0'
  | 'L' => some '\u2028'
  | 'P' => some '\u2029'
  | _ => none

/-- The number of hexadecimal digits after the letter of an escape. -/
def codeLength? (c : Char) : Option Nat :=
  match c with
  | 'x' => some 2
  | 'u' => some 4
  | 'U' => some 8
  | _ => none

/-- The value of a hexadecimal digit. -/
def hexDigit? (c : Char) : Option Nat :=
  if '0' ≤ c && c ≤ '9' then some (c.toNat - 48)
  else if 'a' ≤ c && c ≤ 'f' then some (c.toNat - 87)
  else if 'A' ≤ c && c ≤ 'F' then some (c.toNat - 55)
  else none

/-- The number that some hexadecimal digits at the start of a text spell. -/
def hexNumber? : Nat → Nat → List Char → Option Nat
  | 0, value, _ => some value
  | _ + 1, _, [] => none
  | count + 1, value, c :: rest =>
    (hexDigit? c).bind fun d => hexNumber? count (16 * value + d) rest

/-- The character that an escape stands for, and the position after it. The backslash is next. -/
def escape (start : Mark) (s : State) : Except Error (Char × State) :=
  let inside := some (Context.escape, start)
  match s.rest.tail with
  | [] => .error ⟨.unknownEscape, s.mark, inside⟩
  | letter :: rest =>
    match simpleEscape? letter, codeLength? letter with
    | some c, _ => .ok (c, s.skip 2)
    | none, some count =>
      match hexNumber? count 0 rest with
      | none => .error ⟨.expectedHexadecimal, (s.skip 2).mark, inside⟩
      | some code =>
        -- surrogates and what lies beyond the last code point are no characters
        if (0xD800 ≤ code && code ≤ 0xDFFF) || 0x10FFFF < code then
          .error ⟨.invalidCodePoint, (s.skip 2).mark, inside⟩
        else .ok (Char.ofNat code, s.skip (2 + count))
    | none, none => .error ⟨.unknownEscape, s.mark, inside⟩

/-- Reads a quoted text on, in at most `fuel` steps, up to and over its closing quote. -/
def quotedLoop (quote : Char) (start : Mark) :
    Nat → Gap → List Char → State → Except Error (List Char × State)
  | 0, _, _, s => .error ⟨.unexpectedEnd, s.mark, some (.quotedScalar, start)⟩
  | fuel + 1, gap, text, s =>
    match s.rest with
    | [] => .error ⟨.unexpectedEnd, s.mark, some (.quotedScalar, start)⟩
    | c :: rest =>
      if s.atDocumentStart || s.atDocumentEnd then
        .error ⟨.unexpectedDocumentMark, s.mark, some (.quotedScalar, start)⟩
      else if isBreak c then quotedLoop quote start fuel (gap.addBreak c) text s.nextLine
      else if isBlank c then quotedLoop quote start fuel (gap.addBlank c) text s.bump
      else
        let text := gap.folded ++ text
        if c == '\'' && quote == '\'' && rest.head? == some '\'' then
          quotedLoop quote start fuel {} ('\'' :: text) (s.skip 2)
        else if c == quote then .ok (text, { s.bump with keyAllowed := false })
        else if c == '\\' && quote == '"' then
          if rest.head?.any isBreak then
            quotedLoop quote start fuel { crossed := true } text s.bump.nextLine
          else
            match escape start s with
            | .error e => .error e
            | .ok (c, s) => quotedLoop quote start fuel {} (c :: text) s
        else quotedLoop quote start fuel {} (c :: text) s.bump

/-- A text between the quotes of a kind, the first of which is next. -/
def quotedScalar (quote : Char) : Reading Node := fun s =>
  match quotedLoop quote s.mark (s.rest.length + 1) {} [] s.bump with
  | .error e => .error e
  | .ok (text, s') => .ok (.scalar s.mark false (String.ofList text.reverse), s')

/-! ## Blocks of lines -/

/-- What becomes of the line breaks at the end of a block. -/
inductive Chomping where
  | strip | clip | keep
  deriving DecidableEq, Repr, Inhabited

/-- The signs behind the mark of a block. -/
structure BlockHeader where
  chomping : Option Chomping := none
  /-- How much further than its parent the block is indented, when that is given. -/
  increment : Option Nat := none
  deriving DecidableEq, Repr, Inhabited

/-- The signs at the start of a text, of each kind at most one, and their number. -/
def blockHeader (start : Mark) : Nat → BlockHeader → State → Except Error (BlockHeader × State)
  | 0, header, s => .ok (header, s)
  | fuel + 1, header, s =>
    match s.rest with
    | [] => .ok (header, s)
    | c :: _ =>
      if (c == '+' || c == '-') && header.chomping.isNone then
        let chomping := if c == '+' then Chomping.keep else Chomping.strip
        blockHeader start fuel { header with chomping := some chomping } s.bump
      else if c.isDigit && header.increment.isNone then
        if c == '0' then .error ⟨.zeroIndentation, s.mark, some (.blockScalar, start)⟩
        else blockHeader start fuel { header with increment := some (c.toNat - 48) } s.bump
      else .ok (header, s)

/-- Over the rest of a line that holds nothing but a comment, and its line break. -/
def restOfLine (context : Context × Mark) : Nat → Bool → State → Except Error State
  | 0, _, s => .ok s
  | fuel + 1, inComment, s =>
    match s.rest with
    | [] => .ok s
    | c :: _ =>
      if isBreak c then .ok s.nextLine
      else if inComment || isBlank c then restOfLine context fuel inComment s.bump
      else if c == '#' then restOfLine context fuel true s.bump
      else .error ⟨.expectedCommentOrBreak, s.mark, some context⟩

/-- Over blank lines and indentation. Gives the line breaks, the last one first, and the largest
column that was reached. Without `indent` all spaces count as indentation. -/
def blankLines (indent : Option Nat) (start : Mark) :
    Nat → Nat → List Char → State → Except Error (Nat × List Char × State)
  | 0, widest, breaks, s => .ok (widest, breaks, s)
  | fuel + 1, widest, breaks, s =>
    let inMargin := indent.all (s.mark.column < ·)
    match s.rest with
    | [] => .ok (max widest s.mark.column, breaks, s)
    | c :: _ =>
      if c == ' ' && inMargin then blankLines indent start fuel widest breaks s.bump
      else if c == '\t' && inMargin then
        .error ⟨.tabForIndentation, s.mark, some (.blockScalar, start)⟩
      else
        let widest := max widest s.mark.column
        if isBreak c then blankLines indent start fuel widest (keptBreak c :: breaks) s.nextLine
        else .ok (widest, breaks, s)

/-- The characters up to the end of the line, and the position there. -/
def lineText : Nat → List Char → State → List Char × State
  | 0, text, s => (text, s)
  | fuel + 1, text, s =>
    match s.rest with
    | [] => (text, s)
    | c :: _ => if isBreak c then (text, s) else lineText fuel (c :: text) s.bump

/-- A block in the making: the text so far, the break after its last line, the blank lines after
that, all with the last character first, and whether the last line starts with a blank. -/
structure BlockDraft where
  text : List Char := []
  lastBreak : List Char := []
  blankLines : List Char := []
  startsBlank : Bool := false
  deriving DecidableEq, Repr, Inhabited

/-- The text before the next line of a block. A folded block joins two lines with a space, unless
one of them starts with a blank. -/
def BlockDraft.joined (d : BlockDraft) (folded startsBlank : Bool) : List Char :=
  if folded && d.lastBreak == ['\n'] && !d.startsBlank && !startsBlank then
    d.blankLines ++ (if d.blankLines.isEmpty then ' ' :: d.text else d.text)
  else d.blankLines ++ d.lastBreak ++ d.text

/-- The finished text of a block, the last character first. -/
def BlockDraft.finish (d : BlockDraft) (chomping : Chomping) : List Char :=
  match chomping with
  | .strip => d.text
  | .clip => d.lastBreak ++ d.text
  | .keep => d.blankLines ++ d.lastBreak ++ d.text

/-- Reads the lines of a block with an indentation. -/
def blockLines (folded : Bool) (indent : Nat) (start : Mark) :
    Nat → BlockDraft → State → Except Error (BlockDraft × State)
  | 0, d, s => .ok (d, s)
  | fuel + 1, d, s =>
    match s.rest with
    | [] => .ok (d, s)
    | c :: _ =>
      if s.mark.column != indent then .ok (d, s)
      else do
        let (line, atBreak) := lineText (s.rest.length + 1) [] s
        let text := line ++ d.joined folded (isBlank c)
        let lastBreak := (atBreak.rest.head?.map keptBreak).toList
        let next := if atBreak.rest.isEmpty then atBreak else atBreak.nextLine
        let (_, breaks, next) ← blankLines (some indent) start (s.rest.length + 1) 0 [] next
        blockLines folded indent start fuel ⟨text, lastBreak, breaks, isBlank c⟩ next

/-- A block of lines, whose mark is next. `parent` is the column of the collection around it. -/
def blockScalar (parent : Int) : Reading Node := fun s => do
  let start := s.mark
  let fuel := s.rest.length + 1
  let folded := s.rest.head? == some '>'
  let (header, s) ← blockHeader start 2 {} s.bump
  let s ← restOfLine (.blockScalar, start) fuel false s
  let given := header.increment.map fun n => (max parent 0).toNat + n
  let (widest, breaks, s) ← blankLines given start fuel 0 [] s
  let indent := given.getD (max widest (max (parent + 1).toNat 1))
  let (draft, s) ← blockLines folded indent start fuel { blankLines := breaks } s
  let text := draft.finish (header.chomping.getD .clip)
  return (.scalar start false (String.ofList text.reverse), { s with keyAllowed := true })

end GoOutline.Yaml
