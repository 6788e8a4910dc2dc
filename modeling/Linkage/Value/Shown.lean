import Linkage.Value.Heap

/-!
# Values as they are at one moment

A value is a handle, and what it leads to changes.  `Shown` is a picture of a value with the
properties its objects have now; an object that occurs again in one picture is only named.
-/

namespace Linkage

/-- A picture of a value. -/
inductive Shown where
  /-- No value. -/
  | undefined
  /-- The null value. -/
  | null
  /-- A truth value. -/
  | boolean (value : Bool)
  /-- A number. -/
  | number (value : Float)
  /-- A text. -/
  | text (value : String)
  /-- An object that occurs for the first time, with its properties. -/
  | object (ref : ObjectRef) (properties : List (String × Shown))
  /-- An object that occurred before in this picture. -/
  | again (ref : ObjectRef)
  /-- A namespace. -/
  | space (namespace_ : Namespace)
deriving Inhabited

namespace Heap

/-- Take the picture of a value, given the objects that occurred already; also give back the objects
that have occurred now.  `fuel` bounds how many more objects can be nested. -/
def pictureWithin (heap : Heap) : Nat → List ObjectRef → Value → Shown × List ObjectRef
  | _, seen, .undefined => (.undefined, seen)
  | _, seen, .null => (.null, seen)
  | _, seen, .boolean value => (.boolean value, seen)
  | _, seen, .number value => (.number value, seen)
  | _, seen, .text value => (.text value, seen)
  | _, seen, .space found => (.space found, seen)
  | 0, seen, .object ref => (.again ref, seen)
  | fuel + 1, seen, .object ref =>
      if ref ∈ seen then (.again ref, seen)
      else
        let (properties, seen) := (heap.properties ref).entries.foldl
          (fun (shown, seen) (key, value) =>
            let (picture, seen) := heap.pictureWithin fuel seen value
            (shown ++ [(key, picture)], seen))
          ([], ref :: seen)
        (.object ref properties, seen)

/-- The picture of a value. -/
def picture (heap : Heap) (value : Value) : Shown :=
  (heap.pictureWithin (heap.size + 1) [] value).1

end Heap

end Linkage
