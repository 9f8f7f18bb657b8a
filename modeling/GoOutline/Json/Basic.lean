/-!
# JSON values

## Main definitions

* `Json.Number`: integers and doubles, which JSON text tells apart by a point or an exponent
* `Json`: the values
* `Json.field?`: a member of an object
-/

namespace GoOutline

/-- A JSON number: an integer, or a double when the text has a point or an exponent. -/
inductive Json.Number where
  | int (value : Int)
  | float (value : Float)
  deriving Repr, Inhabited

/-- A JSON value. The members of an object keep their order. -/
inductive Json where
  | null
  | bool (value : Bool)
  | number (value : Json.Number)
  | string (value : String)
  | array (items : List Json)
  | object (members : List (String × Json))
  deriving Repr, Inhabited

namespace Json

/-- A natural number as a value. -/
def nat (n : Nat) : Json := .number (.int n)

/-- A double as a value. -/
def float (x : Float) : Json := .number (.float x)

/-- The member of an object under a key. -/
def field? (key : String) : Json → Option Json
  | .object members => members.lookup key
  | _ => none

/-- Puts a member into a list of members in key order; one with the same key is replaced. -/
def insertMember (key : String) (value : Json) : List (String × Json) → List (String × Json)
  | [] => [(key, value)]
  | (k, v) :: rest =>
    if key < k then (key, value) :: (k, v) :: rest
    else if key = k then (key, value) :: rest
    else (k, v) :: insertMember key value rest

/-- Members in key order; of several with one key the last counts. -/
def sortMembers (members : List (String × Json)) : List (String × Json) :=
  members.foldl (fun sorted (k, v) => insertMember k v sorted) []

end Json

end GoOutline
