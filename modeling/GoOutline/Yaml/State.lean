import GoOutline.Yaml.Basic

/-!
# Reading positions in a document

## Main definitions

* `Yaml.State`: what is left of a text, and what has been learnt from the part before
* `Yaml.Reading`: readers
* `Yaml.Reading.trivia`: over blanks, comments and line breaks
-/

namespace GoOutline.Yaml

/-- A position in a text. -/
structure State where
  /-- The text that is left. -/
  rest : List Char
  /-- Where it starts. -/
  mark : Mark := {}
  /-- A key without a mark of its own may start here. -/
  keyAllowed : Bool := true
  /-- The named nodes read so far, the last one first. -/
  anchors : List (String × Node) := []
  deriving Repr, Inhabited

/-- A reader of some part of a document. -/
abbrev Reading (α : Type) := StateT State (Except Error) α

/-! ## Characters -/

/-- The character is a blank within a line. -/
def isBlank (c : Char) : Bool := c == ' ' || c == '\t'

/-- The character ends a line. -/
def isBreak (c : Char) : Bool :=
  c == '\n' || c == '\r' || c == '\u0085' || c == '\u2028' || c == '\u2029'

/-- The text ends, or a blank or a line break starts it. -/
def wordEnds : List Char → Bool
  | [] => true
  | c :: _ => isBlank c || isBreak c

/-- The character may be part of the name of an anchor or a directive. -/
def isNameChar (c : Char) : Bool := c.isAlphanum || c == '_' || c == '-'

/-- The character may stand in a document. -/
def isAllowed (c : Char) : Bool :=
  let n := c.toNat
  n == 9 || n == 10 || n == 13 || (0x20 ≤ n && n ≤ 0x7E) || n == 0x85 ||
    (0xA0 ≤ n && n ≤ 0xFFFD) || 0x10000 ≤ n

/-- The line break as it is kept: all but two kinds become line feeds. -/
def keptBreak (c : Char) : Char := if c == '\u2028' || c == '\u2029' then c else '\n'

namespace State

/-- One character further, which is not a line break. -/
def bump (s : State) : State :=
  { s with rest := s.rest.tail, mark := { s.mark with column := s.mark.column + 1 } }

/-- Some characters further, none of which is a line break. -/
def skip : Nat → State → State
  | 0, s => s
  | n + 1, s => skip n s.bump

/-- Past a line break. A carriage return and a line feed make one break. -/
def nextLine (s : State) : State :=
  let rest :=
    match s.rest with
    | '\r' :: '\n' :: rest => rest
    | _ :: rest => rest
    | [] => []
  { s with rest := rest, mark := ⟨s.mark.line + 1, 0⟩ }

/-- The text from here on starts with a word of a few characters at the start of a line. -/
def startsLineWith (s : State) (a b c : Char) : Bool :=
  s.mark.column == 0 &&
    (match s.rest with
    | x :: y :: z :: rest => x == a && y == b && z == c && wordEnds rest
    | _ => false)

/-- A mark that starts a document stands here. -/
def atDocumentStart (s : State) : Bool := s.startsLineWith '-' '-' '-'

/-- A mark that ends a document stands here. -/
def atDocumentEnd (s : State) : Bool := s.startsLineWith '.' '.' '.'

/-- The document is over here. -/
def atEnd (s : State) : Bool := s.rest.isEmpty || s.atDocumentStart || s.atDocumentEnd

/-- An indicator and a word end stand here. -/
def atIndicator (s : State) (c : Char) : Bool :=
  match s.rest with
  | x :: rest => x == c && wordEnds rest
  | [] => false

/-- Over blanks, comments and line breaks, in at most `fuel` steps. Outside brackets a tab does not
count as a blank where a key may start, and a key may start on every new line. -/
def triviaLoop (flow : Bool) : Nat → Bool → State → State
  | 0, _, s => s
  | fuel + 1, inComment, s =>
    match s.rest with
    | [] => s
    | c :: _ =>
      if isBreak c then
        triviaLoop flow fuel false { s.nextLine with keyAllowed := s.keyAllowed || !flow }
      else if inComment then triviaLoop flow fuel true s.bump
      else if c == ' ' || (c == '\t' && (flow || !s.keyAllowed)) then
        triviaLoop flow fuel false s.bump
      else if c == '#' then triviaLoop flow fuel true s.bump
      else s

end State

namespace Reading

/-- Stops with a problem at a mark. -/
def failAt {α : Type} (problem : Problem) (mark : Mark) (context : Option (Context × Mark)) :
    Reading α := fun _ => .error ⟨problem, mark, context⟩

/-- Stops with a problem here. -/
def fail {α : Type} (problem : Problem) (context : Option (Context × Mark)) : Reading α :=
  fun s => .error ⟨problem, s.mark, context⟩

/-- Over blanks, comments and line breaks. -/
def trivia (flow : Bool) : Reading Unit :=
  modify fun s => s.triviaLoop flow (s.rest.length + 1) false

/-- Over one character. -/
def bump : Reading Unit := modify State.bump

/-- Says whether a key may start here. -/
def allowKey (allowed : Bool) : Reading Unit := modify ({ · with keyAllowed := allowed })

end Reading

end GoOutline.Yaml
