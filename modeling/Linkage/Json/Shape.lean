import Linkage.Json.Reader

/-!
# Reading values of a known shape

A record is read member by member: unknown members do not matter, not even if they mean nothing; a
member that is looked for may stand only once.  A member is required, has a default, or is optional,
in which case null counts as absent.  A record may also stand as an array of its fields in their
fixed order, the last of which may be left out.  A tagged record says its kind in a member, or as
the first item of an array; since the kind may stand last, all of it has to mean something.
-/

namespace Linkage.Json

/-- The members of an object, by key. -/
abbrev Members : Type := List (String × Written)

/-- A value read from JSON, or the reason why it cannot be. -/
abbrev Shape (α : Type) : Type := Written → Except Fault α

/-- A value without parts. -/
def asAtom {α : Type} (read? : Json → Option α) (expected : String) : Shape α
  | .atom value => match read? value with
      | some found => .ok found
      | none => .error (.mismatch expected)
  | .meaningless => .error .meaningless
  | _ => .error (.mismatch expected)

/-- A text. -/
def asText : Shape String := asAtom toText? "a string"

/-- A number. -/
def asNumber : Shape Float := asAtom toFloat? "a number"

/-- Any value, in the form of a dynamic value. -/
def asAny : Shape Json := fun written =>
  match written.meaning? with
  | some value => .ok value.normal
  | none => .error .meaningless

/-- The items of an array, each of one shape. -/
def asList {α : Type} (shape : Shape α) : Shape (List α)
  | .arr items => items.mapM shape
  | _ => .error (.mismatch "an array")

/-- The members of an object as they are written, whose keys have to mean something. -/
def asMembers : Shape Members
  | .obj members => members.mapM (fun member =>
      match member.1 with
      | some key => .ok (key, member.2)
      | none => .error .meaningless)
  | _ => .error (.mismatch "an object")

/-- The members of an object, each of one shape; of two with one key the later wins. -/
def asTable {α : Type} (shape : Shape α) : Shape (Table α) := fun written => do
  let members ← asMembers written
  let read ← members.mapM (fun member => return (member.1, ← shape member.2))
  return Table.ofList read

/-- Null, or a value of a shape. -/
def asOption {α : Type} (shape : Shape α) : Shape (Option α)
  | .atom null => .ok none
  | written => (shape written).map some

/-- The members of a record with these fields; an array gives them in this order. -/
def asRecord (fields : List String) : Shape Members
  | .arr items =>
      if items.length ≤ fields.length then .ok (fields.zip items)
      else .error (.mismatch "an object or an array without further items")
  | written => asMembers written

/-- The member under `field`, which may stand only once. -/
def member? (members : Members) (field : String) : Except Fault (Option Written) :=
  match members.filter (·.1 = field) with
  | [] => .ok none
  | [found] => .ok (some found.2)
  | _ => .error (.repeated field)

/-- A member that has to be there. -/
def required {α : Type} (members : Members) (field : String) (shape : Shape α) :
    Except Fault α := do
  match ← member? members field with
  | none => throw (.missing field)
  | some written => shape written

/-- A member with a default. -/
def defaulted {α : Type} (members : Members) (field : String) (shape : Shape α)
    (default_ : α) : Except Fault α := do
  match ← member? members field with
  | none => return default_
  | some written => shape written

/-- A member that may be absent or null. -/
def optional {α : Type} (members : Members) (field : String) (shape : Shape α) :
    Except Fault (Option α) :=
  defaulted members field (asOption shape) none

/-- The kind of a tagged record, and the record. -/
def asTagged (tag : String) : Shape (String × Written) := fun written => do
  let _ ← asAny written
  match written with
  | .arr (kind :: items) => return (← asText kind, .arr items)
  | .arr [] => throw (.missing tag)
  | _ => return (← required (← asMembers written) tag asText, written)

/-- Read a text as a value of a shape; a fault of shape is placed at the end of the text. -/
def readAs {α : Type} (shape : Shape α) (text : String) : Except Fault α := do
  let written ← Written.ofText? text
  match shape written with
  | .ok value => return value
  | .error fault =>
      let reached := place text.toList
      throw (.within fault reached.1 reached.2)

/-- Null, or what is written for a value. -/
def ofOption {α : Type} (write : α → Json) : Option α → Json
  | none => null
  | some value => write value

/-- An array of what is written for each value. -/
def ofList {α : Type} (write : α → Json) (values : List α) : Json :=
  arr (values.map write)

/-- An object of what is written for each value, in key order. -/
def ofTable {α : Type} (write : α → Json) (table : Table α) : Json :=
  obj (table.entries.map (fun entry => (entry.1, write entry.2)))

end Linkage.Json
