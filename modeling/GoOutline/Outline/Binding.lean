import GoOutline.Record.Basic

/-!
# Methods by owner

Methods are met before or after the type they belong to. They are kept in a table by the name of
their owner, and bound to the structs when the walk is over.

## Main definitions

* `MethodTable`: methods by owner
* `MethodTable.add`, `MethodTable.of`: putting a method in, and the methods of an owner
* `Struct.bind`: the struct with its methods

## Main results

* `MethodTable.of_add`: a method is found under its owner, after those put in before
-/

namespace GoOutline

/-- Methods by the name of their owner, those of one owner in the order of their declaration. -/
abbrev MethodTable := List (String × List Method)

namespace MethodTable

/-- Puts a method under an owner. -/
def add (owner : String) (m : Method) : MethodTable → MethodTable
  | [] => [(owner, [m])]
  | (name, methods) :: rest =>
    if name = owner then (name, methods ++ [m]) :: rest else (name, methods) :: add owner m rest

/-- The methods of an owner. -/
def of (table : MethodTable) (owner : String) : List Method := (table.lookup owner).getD []

@[simp] theorem of_nil (owner : String) : of [] owner = [] := rfl

theorem of_cons (name owner : String) (methods : List Method) (rest : MethodTable) :
    of ((name, methods) :: rest) owner = if owner = name then methods else of rest owner := by
  by_cases h : owner = name
  · simp [of, h]
  · have : (owner == name) = false := by simpa using h
    simp [of, List.lookup_cons, h, this]

theorem of_add (table : MethodTable) (name owner : String) (m : Method) :
    of (add name m table) owner =
      if owner = name then of table owner ++ [m] else of table owner := by
  induction table with
  | nil => simp [add, of_cons]
  | cons entry rest ih =>
    obtain ⟨first, methods⟩ := entry
    by_cases h : first = name
    · subst h
      by_cases ho : owner = first <;> simp [add, of_cons, ho]
    · by_cases ho : owner = first
      · subst ho
        simp [add, of_cons, h]
      · simp [add, of_cons, h, ho, ih]

end MethodTable

/-- The struct with the methods of its name. -/
def Struct.bind (table : MethodTable) (s : Struct) : Struct := { s with methods := table.of s.name }

end GoOutline
