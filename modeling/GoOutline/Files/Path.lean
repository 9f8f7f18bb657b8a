/-!
# Paths

A path is kept as it is written. What it means is the list of its components: empty segments and
dots between slashes do not count, except for a dot that a path starts with.

## Main definitions

* `Path.segments`: the pieces between slashes
* `Path.Component`, `Path.components`: what a path means
* `Path.join`: a path below another
* `Path.fileName?`, `Path.extension?`, `Path.parent?`: parts of a path
* `Path.below?`: the part of a path below another
* `Path.precedes`: the order of paths by their components
-/

namespace GoOutline.Path

/-! ## Segments -/

/-- The pieces of a text between slashes; there is always at least one. -/
def splitSlashes : List Char → List (List Char)
  | [] => [[]]
  | c :: rest =>
    if c = '/' then [] :: splitSlashes rest
    else
      match splitSlashes rest with
      | [] => [[c]]
      | first :: more => (c :: first) :: more

/-- The pieces of a path between slashes, empty ones included. -/
def segments (path : String) : List String := (splitSlashes path.toList).map String.ofList

/-- Segments with slashes between them. -/
def joinSegments (parts : List String) : String := "/".intercalate parts

/-- The path starts at the root. -/
def isAbsolute (path : String) : Bool := path.toList.head? == some '/'

/-! ## Components -/

/-- A component of a path. -/
inductive Component where
  | root
  | current
  | parent
  | normal (name : String)
  deriving DecidableEq, Repr, Inhabited

/-- The component that a segment stands for, if it counts. -/
def Component.ofSegment? (segment : String) : Option Component :=
  if segment == "" || segment == "." then none
  else if segment == ".." then some .parent
  else some (.normal segment)

/-- A segment that stands for no component. -/
def isIdle (segment : String) : Bool := (Component.ofSegment? segment).isNone

/-- A path taken apart: the root or the dot that it starts with, and the segments after it. -/
structure Layout where
  lead : Option Component
  body : List String
  deriving DecidableEq, Repr, Inhabited

namespace Layout

/-- The layout of a path. -/
def ofPath (path : String) : Layout :=
  match segments path with
  | first :: rest =>
    if isAbsolute path then ⟨some .root, rest⟩
    else if first == "." then ⟨some .current, if rest.isEmpty then [] else "" :: rest⟩
    else ⟨none, first :: rest⟩
  | [] => ⟨none, []⟩

/-- The text of the part before the segments. -/
def leadText (l : Layout) : String :=
  match l.lead with
  | some .root => "/"
  | some .current => "."
  | _ => ""

/-- The path as written. -/
def text (l : Layout) : String := l.leadText ++ joinSegments l.body

/-- The layout without the idle segments at its end. -/
def trimEnd (l : Layout) : Layout :=
  { l with body := (l.body.reverse.dropWhile isIdle).reverse }

/-- The components of the path. -/
def components (l : Layout) : List Component :=
  l.lead.toList ++ l.body.filterMap Component.ofSegment?

end Layout

/-- The components of a path. -/
def components (path : String) : List Component := (Layout.ofPath path).components

/-! ## Parts of paths -/

/-- A path below another. An absolute path stands for itself. -/
def join (base path : String) : String :=
  if isAbsolute path || base == "" then path
  else if base.toList.getLast? == some '/' then base ++ path
  else base ++ "/" ++ path

/-- The last component of a path, when it is a name. -/
def fileName? (path : String) : Option String :=
  match (components path).getLast? with
  | some (.normal name) => some name
  | _ => none

/-- What stands after the last dot of the file name. A dot at the start of the name does not
count. -/
def extension? (path : String) : Option String :=
  match fileName? path with
  | none => none
  | some name =>
    let after := name.toList.reverse.takeWhile (· != '.')
    let throughDot := name.toList.length - after.length
    if 1 < throughDot then some (String.ofList after.reverse) else none

/-- The path without its last component. -/
def parent? (path : String) : Option String :=
  let layout := (Layout.ofPath path).trimEnd
  match layout.body.reverse with
  | _ :: before => some ({ layout with body := before.reverse } : Layout).trimEnd.text
  | [] =>
    match layout.lead with
    | some .current => some ""
    | _ => none

/-- Leaves out the segments of the first `n` components. -/
def dropComponents : Nat → List String → List String
  | 0, parts => parts
  | _ + 1, [] => []
  | n + 1, part :: rest => dropComponents (if isIdle part then n + 1 else n) rest

/-- The part of a path below a base, when the components of the base start it. -/
def below? (base path : String) : Option String :=
  let start := components base
  let layout := Layout.ofPath path
  if !start.isPrefixOf layout.components then none
  else if start.isEmpty then some layout.trimEnd.text
  else
    let rest := dropComponents (start.length - layout.lead.toList.length) layout.body
    some (({ lead := none, body := rest.dropWhile isIdle } : Layout).trimEnd.text)

/-- How a path is reported in a project at a root: relative to the root, or by its name when that
leaves nothing. -/
def relative (root path : String) : String :=
  match below? root path with
  | some rest => if rest == "" then (fileName? path).getD path else rest
  | none => (fileName? path).getD path

/-! ## Order -/

/-- The place of a component among those of other forms. -/
def Component.rank : Component → Nat
  | .root => 0
  | .current => 1
  | .parent => 2
  | .normal _ => 3

/-- One component stands before another: by form, then by name. -/
def Component.before : Component → Component → Bool
  | .normal a, .normal b => a < b
  | a, b => a.rank < b.rank

/-- One list of components stands before another or is the same. -/
def componentsPrecede : List Component → List Component → Bool
  | [], _ => true
  | _ :: _, [] => false
  | a :: as, b :: bs => a.before b || (a == b && componentsPrecede as bs)

/-- One path stands before another, component by component, or means the same. -/
def precedes (a b : String) : Bool := componentsPrecede (components a) (components b)

end GoOutline.Path
