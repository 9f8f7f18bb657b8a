import GoOutline.Files.Tree

/-!
# Walking a tree of files

A walk starts at a root and visits everything below it, through links as well. It ends with an error
at the first link that leads nowhere, and at the first link that leads back to a directory the walk
is inside of. Below the root, hidden directories and a few others are not entered. What an entry is
stands in the list of its directory, so a path is looked up only to follow a link and to enter a
directory.

## Main definitions

* `WalkError`: why a walk ends early
* `skippedDirectories`, `isPruned`: directories that are not entered
* `FileTree.walk`: the regular files below a root
-/

namespace GoOutline

/-- Why a walk ends early. -/
inductive WalkError where
  /-- A path leads nowhere. -/
  | access (path : String) (cause : FileError)
  /-- A link leads back to a directory that the walk is inside of. -/
  | loop (path ancestor : String)
  deriving DecidableEq, Repr, Inhabited

/-- The text of an error. -/
def WalkError.message : WalkError → String
  | .access path cause => "IO error for operation on " ++ path ++ ": " ++ cause.message
  | .loop path ancestor =>
    "File system loop found: " ++ path ++ " points to an ancestor " ++ ancestor

/-- The names of directories that hold no files of the project itself. -/
def skippedDirectories : List String := ["vendor", "testdata", "node_modules"]

/-- A directory of this name is not entered below the root. -/
def isPruned (name : String) : Bool :=
  name.toList.head? == some '.' || skippedDirectories.contains name

namespace FileTree

/-- A directory that a walk is inside of: its path and its place. -/
structure Ancestor where
  path : String
  place : Place
  deriving DecidableEq, Repr, Inhabited

/-- What is at a path that the directory above lists as some entry: a link is followed. A link that
leads to a directory must not lead to one of the ancestors, of which the innermost comes first. -/
def follow (t : FileTree) (ancestors : List Ancestor) (path : String) :
    Entry → Except WalkError Entry
  | .link _ =>
    match t.stat path with
    | .error e => .error (.access path e)
    | .ok (place, entry) =>
      match entry.isDirectory, ancestors.find? (·.place == place) with
      | true, some ancestor => .error (.loop path ancestor.path)
      | _, _ => .ok entry
  | listed => .ok listed

/-- The directory at a path is not entered. The root of a walk always is. -/
def isPrunedBelow (ancestors : List Ancestor) (path : String) : Bool :=
  !ancestors.isEmpty && isPruned ((Path.fileName? path).getD path)

/-- The regular files at a path that is listed as some entry, and below it, at most `depth`
directories deep. -/
def walkFrom (t : FileTree) :
    Nat → List Ancestor → String → Entry → Except WalkError (List String)
  | 0, _, _, _ => .ok []
  | depth + 1, ancestors, path, listed =>
    match t.follow ancestors path listed with
    | .error e => .error e
    | .ok (.file _) => .ok [path]
    | .ok (.link _) => .ok []
    | .ok (.directory _) =>
      if isPrunedBelow ancestors path then .ok []
      else
        match t.list path with
        | .error e => .error (.access path e)
        | .ok (place, entries) => do
          let below ← entries.mapM fun (name, entry) =>
            walkFrom t depth (⟨path, place⟩ :: ancestors) (Path.join path name) entry
          return below.flatten

/-- More directories than a walk can be inside of at once: between two links that it has followed it
goes down the tree, and no link leads to a directory it is inside of. -/
def walkDepth (t : FileTree) : Nat := (Entry.sizeAll t.root + 2) * (Entry.sizeAll t.root + 2)

/-- The regular files at and below a root. -/
def walk (t : FileTree) (root : String) : Except WalkError (List String) :=
  match t.linkStat root with
  | .error e => .error (.access root e)
  | .ok (_, entry) => t.walkFrom t.walkDepth [] root entry

end FileTree

end GoOutline
