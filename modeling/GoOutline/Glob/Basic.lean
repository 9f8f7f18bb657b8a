import GoOutline.Text.Utf8

/-!
# Glob patterns

A pattern stands for a set of paths. It is matched against the bytes of a whole path, and the
wildcards for a character match slashes like any other byte.

## Main definitions

* `Glob.Piece`: the pieces of a pattern
* `Glob.Piece.rests`, `Glob.restsAll`: what a pattern may leave of a path
* `Glob.Pattern`, `Glob.Pattern.accepts`: whole patterns
-/

namespace GoOutline.Glob

open GoOutline.Text

/-- A piece of a pattern. -/
inductive Piece where
  /-- The character itself. -/
  | literal (c : Char)
  /-- Any one byte. -/
  | any
  /-- Any bytes. -/
  | many
  /-- Any directories at the start of a path. -/
  | leadingDirectories
  /-- Everything below a directory. -/
  | everythingBelow
  /-- Any directories between two parts of a path. -/
  | innerDirectories
  /-- One byte of those that some ranges of characters are written with, or one of the others. -/
  | oneOf (negated : Bool) (ranges : List (Char × Char))
  /-- One of several patterns; without any, nothing. -/
  | alternatives (branches : List (List Piece))
  deriving Repr, Inhabited

/-- The byte of a slash. -/
def slash : UInt8 := 0x2F

/-- A byte is one of those that a range of characters is written with. A range between characters of
several bytes runs from the last byte of one to the first byte of the other, and holds their other
bytes singly. -/
def rangeHolds (b : UInt8) (range : Char × Char) : Bool :=
  let low := Utf8.encodeChar range.1
  let high := Utf8.encodeChar range.2
  if range.1 == range.2 then low.contains b
  else
    low.contains b || high.contains b ||
      (match low.getLast?, high.head? with
      | some first, some last => first ≤ b && b ≤ last
      | _, _ => false)

/-- The rests of a path, longest first, down to the empty one. -/
def suffixes : List UInt8 → List (List UInt8)
  | [] => [[]]
  | b :: rest => (b :: rest) :: suffixes rest

/-- What is left of a path after each of its slashes. -/
def afterSlashes : List UInt8 → List (List UInt8)
  | [] => []
  | b :: rest => if b == slash then rest :: afterSlashes rest else afterSlashes rest

/-- The rest of a path after a text that it starts with. -/
def dropStart? : List UInt8 → List UInt8 → Option (List UInt8)
  | [], path => some path
  | a :: start, b :: path => if a == b then dropStart? start path else none
  | _ :: _, [] => none

/-- Rests of one path without repetition: they are told apart by their lengths. -/
def distinct : List (List UInt8) → List (List UInt8)
  | [] => []
  | rest :: more => rest :: (distinct more).filter (·.length != rest.length)

mutual

/-- What a piece may leave of a path. -/
def Piece.rests (path : List UInt8) : Piece → List (List UInt8)
  | .literal c => (dropStart? (Utf8.encodeChar c) path).toList
  | .any => path.tail?.toList
  | .many => suffixes path
  | .leadingDirectories => path :: afterSlashes path
  | .everythingBelow =>
    match path with
    | [] => []
    | b :: rest => if b == slash then suffixes rest else []
  | .innerDirectories =>
    match path with
    | [] => []
    | b :: rest => if b == slash then rest :: afterSlashes rest else []
  | .oneOf negated ranges =>
    match path with
    | [] => []
    | b :: rest => if ranges.any (rangeHolds b) != negated then [rest] else []
  | .alternatives [] => [path]
  | .alternatives (branch :: branches) =>
    restsAll [path] branch ++ restsAny [path] branches

/-- What a sequence of pieces may leave of some rests of a path. -/
def restsAll (paths : List (List UInt8)) : List Piece → List (List UInt8)
  | [] => paths
  | piece :: pieces => restsAll (distinct (restsEach paths piece)) pieces

/-- What a piece may leave of some rests of a path. -/
def restsEach (paths : List (List UInt8)) (piece : Piece) : List (List UInt8) :=
  paths.flatMap fun path => piece.rests path

/-- What some branches may leave of rests of a path. -/
def restsAny (paths : List (List UInt8)) : List (List Piece) → List (List UInt8)
  | [] => []
  | branch :: branches => restsAll paths branch ++ restsAny paths branches

end

/-- A pattern in pieces. -/
structure Pattern where
  pieces : List Piece
  deriving Repr, Inhabited

/-- The pattern is nothing but any directories, which stands for every path. -/
def Pattern.isEverything : Pattern → Bool
  | ⟨[.leadingDirectories]⟩ => true
  | _ => false

/-- The pattern stands for a path. -/
def Pattern.accepts (p : Pattern) (path : String) : Bool :=
  p.isEverything || (restsAll [Utf8.encode path.toList] p.pieces).any List.isEmpty

end GoOutline.Glob
