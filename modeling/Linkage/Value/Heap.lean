import Linkage.Json.Writer
import Linkage.Value.Basic

/-!
# Objects

The heap holds the properties of every object.  A JSON value is brought into the heap as fresh
objects, and a value is shown as JSON by following its objects, where an object that is already
being shown further up stands as a mark.
-/

namespace Linkage

/-- The properties of all objects, by handle. -/
structure Heap where
  /-- The properties, in the order the objects were made. -/
  objects : Array (Table Value)
deriving Inhabited

namespace Heap

/-- The heap without objects. -/
def empty : Heap := ⟨#[]⟩

/-- How many objects there are. -/
def size (heap : Heap) : Nat := heap.objects.size

/-- The properties of an object. -/
def properties (heap : Heap) (ref : ObjectRef) : Table Value :=
  heap.objects[ref.index]?.getD {}

/-- Make an object with these properties. -/
def alloc (heap : Heap) (properties : Table Value) : ObjectRef × Heap :=
  (⟨heap.size⟩, ⟨heap.objects.push properties⟩)

/-- The value of a property. -/
def get? (heap : Heap) (ref : ObjectRef) (key : String) : Option Value :=
  (heap.properties ref).find? key

/-- Set a property. -/
def set (heap : Heap) (ref : ObjectRef) (key : String) (value : Value) : Heap :=
  ⟨heap.objects.modify ref.index (·.insert key value)⟩

/-- Read a property as scripts do: what is missing is undefined, and so is a property of a value
that is no object. -/
def read (heap : Heap) (value : Value) (key : String) : Value :=
  ((value.toObject?.bind (heap.get? · key))).getD .undefined

end Heap

namespace Value

mutual

/-- Bring a JSON value into the heap.  An array becomes an object with the positions as keys and its
length under `length`. -/
def ofJson : Json → Heap → Value × Heap
  | .null, heap => (null, heap)
  | .bool value, heap => (boolean value, heap)
  | .int value, heap => (number (Float.ofInt value), heap)
  | .float value, heap => (number value, heap)
  | .str value, heap => (text value, heap)
  | .arr items, heap =>
      let (properties, heap) := ofItems items 0 {} heap
      let (ref, heap) := heap.alloc
        (properties.insert "length" (number (Float.ofNat items.length)))
      (object ref, heap)
  | .obj members, heap =>
      let (properties, heap) := ofMembers members {} heap
      let (ref, heap) := heap.alloc properties
      (object ref, heap)

/-- Bring the items of an array into the heap, from a position on. -/
def ofItems : List Json → Nat → Table Value → Heap → Table Value × Heap
  | [], _, properties, heap => (properties, heap)
  | item :: rest, position, properties, heap =>
      let (value, heap) := ofJson item heap
      ofItems rest (position + 1)
        (properties.insert (String.ofList (Nat.toDigits 10 position)) value) heap

/-- Bring the members of an object into the heap; of two with one key the later wins. -/
def ofMembers : List (String × Json) → Table Value → Heap → Table Value × Heap
  | [], properties, heap => (properties, heap)
  | (key, json) :: rest, properties, heap =>
      let (value, heap) := ofJson json heap
      ofMembers rest (properties.insert key value) heap

end

/-- The mark for an object that is being shown further up. -/
def circularMark : String := "[Circular]"

/-- Show a value as JSON.  The objects that are being shown stand on a stack: an object is put there
before its properties are shown, one after the other, and taken away behind the last of them.  `fuel`
bounds how many more objects can be nested; without it an object is not shown at all. -/
def render (heap : Heap) : Nat → Value → StateT (List ObjectRef) Option Json
  | _, undefined | _, null => return .null
  | _, boolean value => return .bool value
  | _, number value => return .ofFloat value
  | _, text value => return .str value
  | _, space found => return .str (spaceText found)
  | 0, object _ => failure
  | fuel + 1, object ref => do
      if ref ∈ (← get) then return .str circularMark
      modify (ref :: ·)
      let members ← (heap.properties ref).entries.mapM (fun (key, value) => do
        return (key, ← render heap fuel value))
      modify List.tail
      return .obj members

/-- Show a value as JSON.  Objects on the stack are different, so their number bounds the depth. -/
def toJson (heap : Heap) (value : Value) : Json :=
  (((value.render heap (heap.size + 1)).run []).map (·.1)).getD .null

end Value

end Linkage
