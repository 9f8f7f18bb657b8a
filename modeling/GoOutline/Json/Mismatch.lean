import GoOutline.Json.Printer
import GoOutline.Text.Quoted

/-!
# Values of the wrong kind

## Main definitions

* `Json.Mismatch`: a value where another kind of value is expected, and its message
* `Json.expectBool`, `Json.expectText`, `Json.expectList`: values of a kind
-/

namespace GoOutline.Json

/-- A value as said in messages. -/
def description : Json → String
  | .null => "null"
  | .bool b => "boolean \x60" ++ (if b then "true" else "false") ++ "\x60"
  | .number (.int i) => "integer \x60" ++ toString i ++ "\x60"
  | .number (.float x) =>
    "floating point \x60" ++ String.ofList (Text.floatFormat.render x) ++ "\x60"
  | .string s => "string " ++ GoOutline.Text.Quoted.quote s
  | .array _ => "sequence"
  | .object _ => "map"

/-- A value where another kind of value is expected. -/
structure Mismatch where
  found : Json
  expected : String
  deriving Repr, Inhabited

/-- The text of a mismatch. -/
def Mismatch.message (m : Mismatch) : String :=
  "invalid type: " ++ m.found.description ++ ", expected " ++ m.expected

/-- A truth value. -/
def expectBool : Json → Except Mismatch Bool
  | .bool b => .ok b
  | v => .error ⟨v, "a boolean"⟩

/-- A text. -/
def expectText : Json → Except Mismatch String
  | .string s => .ok s
  | v => .error ⟨v, "a string"⟩

/-- An array whose items are all of a kind. -/
def expectList {α : Type} (item : Json → Except Mismatch α) : Json → Except Mismatch (List α)
  | .array items => items.mapM item
  | v => .error ⟨v, "a sequence"⟩

end GoOutline.Json
