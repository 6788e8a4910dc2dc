import Linkage.Decimal.Layout
import Linkage.Format
import Linkage.Identifier

/-!
# Script values

A value is what a binding holds.  Objects and namespaces are handles: two values are the same object
when they have the same handle, whatever the properties.  Main statement: comparison is an
equivalence except that a number that is no number differs from itself (`same_self_iff`).
-/

namespace Linkage

/-- A handle to an object of the heap. -/
structure ObjectRef where
  /-- Its place in the heap. -/
  index : Nat
deriving DecidableEq, Repr, Inhabited

/-- A handle to a module record. -/
structure RecordRef where
  /-- Its place among all records ever made. -/
  index : Nat
deriving DecidableEq, Repr, Inhabited

/-- A module namespace: a read-only view of the public names of one record, made for one
requester.  The serial number is its identity. -/
structure Namespace where
  /-- Its number among all namespaces ever made. -/
  serial : Nat
  /-- The record it shows. -/
  record : RecordRef
  /-- The module it shows. -/
  id : ModuleId
  /-- The format of that module. -/
  format : Format
  /-- The module that asked for it. -/
  requester? : Option ModuleId
deriving DecidableEq, Repr, Inhabited

/-- A script value. -/
inductive Value where
  /-- No value. -/
  | undefined
  /-- The null value. -/
  | null
  /-- A truth value. -/
  | boolean (value : Bool)
  /-- A number. -/
  | number (value : Float)
  /-- A text. -/
  | text (value : String)
  /-- An object. -/
  | object (ref : ObjectRef)
  /-- A module namespace. -/
  | space (namespace_ : Namespace)
deriving Inhabited

namespace Value

/-- Whether two values are equal: numbers by value, objects and namespaces by identity. -/
def same : Value → Value → Bool
  | undefined, undefined => true
  | null, null => true
  | boolean a, boolean b => a == b
  | number a, number b => a == b
  | text a, text b => a == b
  | object a, object b => a == b
  | space a, space b => a.serial == b.serial
  | _, _ => false

/-- Whether a value is the undefined one. -/
def isUndefined : Value → Bool
  | undefined => true
  | _ => false

/-- Whether a value is undefined or null. -/
def isNullish : Value → Bool
  | undefined | null => true
  | _ => false

/-- The number a value holds. -/
def toNumber? : Value → Option Float
  | number value => some value
  | _ => none

/-- The text a value holds. -/
def toText? : Value → Option String
  | text value => some value
  | _ => none

/-- The object a value holds. -/
def toObject? : Value → Option ObjectRef
  | object ref => some ref
  | _ => none

/-- The namespace a value holds. -/
def toSpace? : Value → Option Namespace
  | space found => some found
  | _ => none

/-- The name of the kind of a value, as scripts see it. -/
def typeName : Value → String
  | undefined => "undefined"
  | null | object _ | space _ => "object"
  | boolean _ => "boolean"
  | number _ => "number"
  | text _ => "string"

/-- Numbers are shown positionally, without a point if they are whole. -/
def numberLayout : Decimal.Layout where
  tie := .up
  positional := none
  pointZero := false
  nan := "NaN"
  infinity := "inf"

/-- A namespace in one word. -/
def spaceText (found : Namespace) : String :=
  s!"[Module: {found.id.text}]"

/-- The plain text of a value. -/
def display : Value → String
  | undefined => "undefined"
  | null => "null"
  | boolean value => if value then "true" else "false"
  | number value => numberLayout.write value
  | text value => value
  | object _ => "[object Object]"
  | space found => spaceText found

theorem same_self_iff (v : Value) :
    v.same v = true ↔ ∀ x, v = .number x → (x == x) = true := by
  cases v <;> simp [same]

end Value

end Linkage
