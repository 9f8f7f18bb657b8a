/-!
# Languages

The languages that outlines are made for, told apart by the extensions of their files.

## Main definitions

* `Language`: a language and its file extensions
* `Language.go`, `Language.known`: the languages there are
* `Language.ofExtension?`: the language of a file extension
-/

namespace GoOutline

/-- A language and the extensions of its files, without the dot. -/
structure Language where
  id : String
  extensions : List String
  deriving DecidableEq, Repr, Inhabited

namespace Language

/-- Go. -/
def go : Language := ⟨"go", ["go"]⟩

/-- The languages that outlines are made for. -/
def known : List Language := [go]

/-- Files with the extension are written in the language. Case matters. -/
def handles (l : Language) (extension : String) : Bool := l.extensions.contains extension

/-- The language of the files with an extension. -/
def ofExtension? (extension : String) : Option Language := known.find? (·.handles extension)

/-- The extensions of all known languages. -/
def knownExtensions : List String := known.flatMap extensions

end Language

end GoOutline
