import GoOutline.Text.Uppercase

/-!
# Exported names

## Main definitions

* `isExportedName`: the name starts with an upper-case character
-/

namespace GoOutline

open GoOutline.Text

/-- A name is exported when it starts with an upper-case character. -/
def isExportedName (name : String) : Bool :=
  match name.toList with
  | c :: _ => Uppercase.isUpper c
  | [] => false

end GoOutline
