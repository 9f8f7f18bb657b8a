import GoOutline.Files.Path
import GoOutline.Text.Utf8

/-!
# Trees of files

A tree of directories, regular files and symbolic links, with a working directory. A path is
resolved from left to right, and every link on the way is followed; the last one may be left alone.

Names and paths are Unicode texts. A system may also have names that are not UTF-8, in whose place
the empty text or one with replacement characters is looked at; they are outside the model.

## Main definitions

* `Entry`: what a name in a directory stands for
* `FileTree`: a tree and its working directory
* `FileError`: why a path leads nowhere
* `FileTree.resolve`: where a path leads
* `FileTree.stat`, `FileTree.linkStat`, `FileTree.list`, `FileTree.read`: what is there
-/

namespace GoOutline

/-- What a name in a directory stands for. -/
inductive Entry where
  | file (content : List UInt8)
  | directory (entries : List (String × Entry))
  | link (target : String)
  deriving Repr, Inhabited

/-- The names from the root of a tree down to an entry. -/
abbrev FileTree.Place := List String

/-- A tree of files. -/
structure FileTree where
  /-- What the root directory holds. -/
  root : List (String × Entry)
  /-- Where paths that are not absolute start. -/
  workingDirectory : FileTree.Place := []
  deriving Repr, Inhabited

/-- Why a path leads nowhere. -/
inductive FileError where
  | notFound
  | notDirectory
  | isDirectory
  | nameTooLong
  | tooManyLinks
  | zeroByte
  deriving DecidableEq, Repr, Inhabited

/-- The text of an error. -/
def FileError.message : FileError → String
  | .notFound => "No such file or directory (os error 2)"
  | .notDirectory => "Not a directory (os error 20)"
  | .isDirectory => "Is a directory (os error 21)"
  | .nameTooLong => "File name too long (os error 36)"
  | .tooManyLinks => "Too many levels of symbolic links (os error 40)"
  | .zeroByte => "file name contained an unexpected NUL byte"

namespace Entry

/-- The entries of a directory; anything else has none. -/
def entries? : Entry → Option (List (String × Entry))
  | .directory entries => some entries
  | _ => none

/-- The entry is a directory. -/
def isDirectory (e : Entry) : Bool := e.entries?.isSome

/-- The entry is a regular file. -/
def isFile : Entry → Bool
  | .file _ => true
  | _ => false

/-- The entry that names lead to from another, through directories only. -/
def descend? : Entry → FileTree.Place → Option Entry
  | e, [] => some e
  | e, name :: rest => do
    let below ← (← e.entries?).lookup name
    below.descend? rest

mutual

/-- The number of entries in a tree. -/
def size : Entry → Nat
  | .directory entries => sizeAll entries + 1
  | _ => 1

/-- The number of entries in some trees. -/
def sizeAll : List (String × Entry) → Nat
  | [] => 0
  | (_, e) :: rest => size e + sizeAll rest

end

end Entry

namespace FileTree

/-- The entry at a place. -/
def at? (t : FileTree) (place : Place) : Option Entry := (Entry.directory t.root).descend? place

/-- The most links that are followed for one path. -/
def maxLinks : Nat := 40

/-- The most bytes in one name. -/
def maxName : Nat := 255

/-- The most bytes in a path. -/
def maxPath : Nat := 4095

/-- The number of bytes of a name or path. -/
def byteLength (s : String) : Nat := s.utf8ByteSize

/-- Where segments lead from a place, with a number of links that may still be followed. Every step
must start in a directory, also one that stays there. With `followLast` off, a link in the last
place is where the path leads. -/
def resolveFrom (t : FileTree) (followLast : Bool) (links : Nat) (here : Place) :
    List String → Except FileError Place
  | [] => .ok here
  | segment :: rest =>
    match (t.at? here).bind Entry.entries? with
    | none => .error .notDirectory
    | some entries =>
      if segment == "" || segment == "." then resolveFrom t followLast links here rest
      else if segment == ".." then resolveFrom t followLast links here.dropLast rest
      else if maxName < byteLength segment then .error .nameTooLong
      else
        match entries.lookup segment with
        | none => .error .notFound
        | some (.link target) =>
          if rest.isEmpty && !followLast then .ok (here ++ [segment])
          else
            match links with
            | 0 => .error .tooManyLinks
            | links + 1 =>
              -- the target starts at the root or beside the link, and takes one link off those that
              -- are left
              let start := if Path.isAbsolute target then [] else here
              resolveFrom t followLast links start (Path.segments target ++ rest)
        | some _ => resolveFrom t followLast links (here ++ [segment]) rest
termination_by segments => (links, segments.length)

/-- Where a path leads. -/
def resolve (t : FileTree) (followLast : Bool) (path : String) : Except FileError Place :=
  if path.toList.contains '\x00' then .error .zeroByte
  else if path == "" then .error .notFound
  else if maxPath < byteLength path then .error .nameTooLong
  else
    resolveFrom t followLast maxLinks (if Path.isAbsolute path then [] else t.workingDirectory)
      (Path.segments path)

/-- What a path leads to, and where it is. -/
def lookUp (t : FileTree) (followLast : Bool) (path : String) : Except FileError (Place × Entry) :=
  match t.resolve followLast path with
  | .error e => .error e
  | .ok place =>
    match t.at? place with
    | some entry => .ok (place, entry)
    | none => .error .notFound

/-- What a path leads to when every link is followed. -/
def stat (t : FileTree) (path : String) : Except FileError (Place × Entry) := t.lookUp true path

/-- What a path leads to when a link in the last place is left alone. -/
def linkStat (t : FileTree) (path : String) : Except FileError (Place × Entry) :=
  t.lookUp false path

/-- The path leads to a regular file. -/
def isFile (t : FileTree) (path : String) : Bool :=
  match t.stat path with
  | .ok (_, entry) => entry.isFile
  | .error _ => false

/-- The place of the directory that a path leads to, and what it holds. -/
def list (t : FileTree) (path : String) : Except FileError (Place × List (String × Entry)) :=
  match t.stat path with
  | .error e => .error e
  | .ok (place, .directory entries) => .ok (place, entries)
  | .ok _ => .error .notDirectory

/-- The content of the regular file that a path leads to. -/
def read (t : FileTree) (path : String) : Except FileError (List UInt8) :=
  match t.stat path with
  | .error e => .error e
  | .ok (_, .file content) => .ok content
  | .ok _ => .error .isDirectory

/-! ## Building -/

/-- Puts an entry below some entries, with the directories on the way to it. A directory that is
there already stays when an empty one is put in its place. -/
def insertEntry (entry : Entry) : Place → List (String × Entry) → List (String × Entry)
  | [], entries => entries
  | [name], entries =>
    match entry, (entries.lookup name).bind Entry.entries? with
    | .directory [], some _ => entries
    | _, _ => (name, entry) :: entries.filter (·.1 != name)
  | name :: rest, entries =>
    let below := ((entries.lookup name).bind Entry.entries?).getD []
    (name, .directory (insertEntry entry rest below)) :: entries.filter (·.1 != name)

end FileTree

end GoOutline
