import Linkage.Table

/-!
# JSON values

A number is an integer as long as it is written as one and fits into 64 bits; any other number is a
double.  The members of an object stand as they were written, and `Json.normal` brings a value into
the form of a dynamic value: members ordered by key, of two members with one key the later.
-/

namespace Linkage

/-- A JSON value. -/
inductive Json where
  /-- The null value. -/
  | null
  /-- A truth value. -/
  | bool (value : Bool)
  /-- An integer of at most 64 bits. -/
  | int (value : Int)
  /-- Any other number. -/
  | float (value : Float)
  /-- A text. -/
  | str (value : String)
  /-- An array. -/
  | arr (items : List Json)
  /-- An object with its members in the order they stand. -/
  | obj (members : List (String × Json))
deriving Inhabited

namespace Json

/-- Bring members into key order; of two with one key the later wins. -/
def orderMembers (members : List (String × Json)) : List (String × Json) :=
  (Table.ofList members).entries

/-- The dynamic value that a written value stands for. -/
def normal : Json → Json
  | arr items => arr (items.attach.map (fun ⟨item, _⟩ => item.normal))
  | obj members =>
      obj (orderMembers (members.attach.map (fun ⟨(key, value), _⟩ => (key, value.normal))))
  | other => other
termination_by json => sizeOf json
decreasing_by
  · have := List.sizeOf_lt_of_mem ‹_›
    simp only [arr.sizeOf_spec]
    omega
  · have := List.sizeOf_lt_of_mem ‹_›
    simp only [Prod.mk.sizeOf_spec] at this
    simp only [obj.sizeOf_spec]
    omega

/-- A double as a number; what is not finite is no number and becomes null. -/
def ofFloat (x : Float) : Json :=
  if x.isFinite then float x else null

/-- A number as a double. -/
def toFloat? : Json → Option Float
  | int value => some (Float.ofInt value)
  | float value => some value
  | _ => none

/-- The text of a string. -/
def toText? : Json → Option String
  | str value => some value
  | _ => none

end Json

end Linkage
