import GoOutline.Glob.Basic

/-!
# Reading glob patterns

A question mark and a star are wildcards, brackets hold a class of characters, braces hold
alternatives between commas, and a backslash takes the next character as it is. Two stars that make
up a whole component of a path stand for any directories.

## Main definitions

* `Glob.Error`: what may be wrong with a pattern
* `Glob.Draft`: a pattern in the making
* `Glob.read`: the pattern that a text spells
-/

namespace GoOutline.Glob

/-- What is wrong with a pattern. -/
inductive Error where
  | unclosedClass
  | invalidRange (low high : Char)
  | unclosedAlternatives
  | unopenedAlternatives
  | danglingEscape
  deriving DecidableEq, Repr, Inhabited

/-- The text of an error. -/
def Error.message : Error → String
  | .unclosedClass => "unclosed character class; missing ']'"
  | .invalidRange low high =>
    "invalid range; '" ++ low.toString ++ "' > '" ++ high.toString ++ "'"
  | .unclosedAlternatives =>
    "unclosed alternate group; missing '\x7d' (maybe escape '\x7b' with '[\x7b]'?)"
  | .unopenedAlternatives =>
    "unopened alternate group; missing '\x7b' (maybe escape '\x7d' with '[\x7d]'?)"
  | .danglingEscape => "dangling '\\'"

/-! ## Classes -/

/-- The ranges of a class up to its closing bracket, and the text after it. `ranges` holds those
read so far, the last one first; `isOpen` says that a hyphen after the last one waits for its other
end. -/
def classRanges (first isOpen : Bool) (ranges : List (Char × Char)) :
    List Char → Except Error (List (Char × Char) × List Char)
  | [] => .error .unclosedClass
  | c :: rest =>
    if c = ']' && !first then
      .ok ((if isOpen then ('-', '-') :: ranges else ranges).reverse, rest)
    else if c = '-' && !first && !isOpen then classRanges false true ranges rest
    else
      match isOpen, ranges with
      | true, (low, _) :: before =>
        if c < low then .error (.invalidRange low c)
        else classRanges false false ((low, c) :: before) rest
      | _, _ => classRanges false false ((c, c) :: ranges) rest

/-- The class after its opening bracket, and the text after it. -/
def readClass : List Char → Except Error (Piece × List Char)
  | '!' :: rest => (classRanges true false [] rest).map fun (ranges, r) => (.oneOf true ranges, r)
  | '^' :: rest => (classRanges true false [] rest).map fun (ranges, r) => (.oneOf true ranges, r)
  | rest => (classRanges true false [] rest).map fun (ranges, r) => (.oneOf false ranges, r)

/-! ## Patterns in the making -/

/-- A group of alternatives that is being read: the branches before the current one, last first, and
the pieces of the current one, last first. -/
structure Group where
  before : List (List Piece) := []
  current : List Piece := []
  deriving Repr, Inhabited

/-- A pattern that is being read: the innermost group, and the groups around it from the inside
out. The outermost one is the pattern itself. -/
structure Draft where
  inner : Group := {}
  outer : List Group := []
  deriving Repr, Inhabited

namespace Draft

/-- The place that is being read is inside braces. -/
def isNested (d : Draft) : Bool := !d.outer.isEmpty

/-- Adds a piece. -/
def push (d : Draft) (piece : Piece) : Draft :=
  { d with inner := { d.inner with current := piece :: d.inner.current } }

/-- Puts a piece in the place of the last one, unless that stands for directories at an end of a
path already. -/
def replaceLast (d : Draft) (piece : Piece) : Draft :=
  match d.inner.current with
  | .leadingDirectories :: _ | .everythingBelow :: _ => d
  | _ :: before => { d with inner := { d.inner with current := piece :: before } }
  | [] => d.push piece

/-- Starts a group of alternatives. -/
def openGroup (d : Draft) : Draft := ⟨{}, d.inner :: d.outer⟩

/-- Starts the next branch of the innermost group. -/
def nextBranch (d : Draft) : Draft :=
  { d with inner := ⟨d.inner.current.reverse :: d.inner.before, []⟩ }

/-- The piece stands for nothing at all. -/
def isBlankPiece : Piece → Bool
  | .alternatives [] => true
  | _ => false

/-- Ends the innermost group. Branches that stand for nothing are left out of it. -/
def closeGroup (d : Draft) : Except Error Draft :=
  match d.outer with
  | [] => .error .unopenedAlternatives
  | group :: outer =>
    let branches := (d.inner.current.reverse :: d.inner.before).reverse
    let branches := branches.filter (!·.all isBlankPiece)
    .ok (Draft.push ⟨group, outer⟩ (.alternatives branches))

/-- The finished pattern. -/
def finish (d : Draft) : Except Error Pattern :=
  if d.isNested then .error .unclosedAlternatives else .ok ⟨d.inner.current.reverse⟩

/-- Two stars side by side, with the character before them and the text after them. Also gives the
text that is left, and the last character before it. -/
def doubleStar (d : Draft) (previous : Option Char) (after : List Char) :
    Draft × Option Char × List Char :=
  let plain := ((d.push .many).push .many, some '*', after)
  -- at the start of a branch the stars may stand for directories before what follows
  if d.inner.current.isEmpty then
    match after with
    | [] => (d.push .leadingDirectories, some '*', [])
    | '/' :: rest => (d.push .leadingDirectories, some '/', rest)
    | _ => plain
  -- elsewhere they must stand behind a slash, or at the start of a branch of a group
  else if previous != some '/' &&
      !(d.isNested && (previous == some ',' || previous == some '{')) then plain
  else
    match after with
    | [] => (d.replaceLast .everythingBelow, some '*', [])
    | '/' :: rest => (d.replaceLast .innerDirectories, some '/', rest)
    | c :: _ =>
      if d.isNested && (c == ',' || c == '}') then
        (d.replaceLast .everythingBelow, some '*', after)
      else plain

end Draft

/-! ## Whole patterns -/

/-- Reads a text to its end, in at most `fuel` steps. -/
def readLoop : Nat → Draft → Option Char → List Char → Except Error Draft
  | 0, d, _, _ => .ok d
  | _ + 1, d, _, [] => .ok d
  | fuel + 1, d, previous, c :: rest =>
    match c, rest with
    | '?', _ => readLoop fuel (d.push .any) (some c) rest
    | '*', '*' :: after =>
      let (d, previous, rest) := d.doubleStar previous after
      readLoop fuel d previous rest
    | '*', _ => readLoop fuel (d.push .many) (some c) rest
    | '[', _ =>
      match readClass rest with
      | .error e => .error e
      | .ok (piece, rest) => readLoop fuel (d.push piece) (some ']') rest
    | '{', _ => readLoop fuel d.openGroup (some c) rest
    | '}', _ =>
      match d.closeGroup with
      | .error e => .error e
      | .ok d => readLoop fuel d (some c) rest
    | ',', _ =>
      readLoop fuel (if d.isNested then d.nextBranch else d.push (.literal c)) (some c) rest
    | '\\', [] => .error .danglingEscape
    | '\\', e :: rest => readLoop fuel (d.push (.literal e)) (some e) rest
    | _, _ => readLoop fuel (d.push (.literal c)) (some c) rest

/-- The pattern that a text spells. -/
def read (text : String) : Except Error Pattern := do
  let draft ← readLoop text.length {} none text.toList
  draft.finish

end GoOutline.Glob
