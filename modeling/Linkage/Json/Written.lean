import Linkage.Json.Basic

/-!
# JSON values as they are written

A text can be well formed and still spell something that no value stands for: a number too large
for a double, a string with half a surrogate pair, an array or object inside too many others.  That
is no fault until the value is asked for; who skips a member never looks at what it means.  Main
statement: a value, written down, means itself (`meaning?_ofJson`).
-/

namespace Linkage.Json

/-- A value as it is written. -/
inductive Written where
  /-- A value without parts. -/
  | atom (value : Json)
  /-- Something well formed that no value stands for. -/
  | meaningless
  /-- An array. -/
  | arr (items : List Written)
  /-- An object with its members in the order they stand; a key may mean nothing. -/
  | obj (members : List (Option String × Written))
deriving Inhabited

namespace Written

/-- What is written for a value without parts, if there is one. -/
def ofAtom? : Option Json → Written
  | some value => atom value
  | none => meaningless

mutual

/-- A value as it is written. -/
def ofJson : Json → Written
  | .arr items => arr (ofItems items)
  | .obj members => obj (ofMembers members)
  | value => atom value

/-- The items of an array as they are written. -/
def ofItems : List Json → List Written
  | [] => []
  | item :: rest => ofJson item :: ofItems rest

/-- The members of an object as they are written. -/
def ofMembers : List (String × Json) → List (Option String × Written)
  | [] => []
  | (key, value) :: rest => (some key, ofJson value) :: ofMembers rest

end

mutual

/-- The value that is meant, if every part of it means something. -/
def meaning? : Written → Option Json
  | atom value => some value
  | meaningless => none
  | arr items => do return .arr (← itemMeanings? items)
  | obj members => do return .obj (← memberMeanings? members)

/-- The items that are meant, if all mean something. -/
def itemMeanings? : List Written → Option (List Json)
  | [] => some []
  | item :: rest => do return (← meaning? item) :: (← itemMeanings? rest)

/-- The members that are meant, if all keys and values mean something. -/
def memberMeanings? : List (Option String × Written) → Option (List (String × Json))
  | [] => some []
  | (key?, value) :: rest => do
      return (← key?, ← meaning? value) :: (← memberMeanings? rest)

end

mutual

theorem meaning?_ofJson (json : Json) : (ofJson json).meaning? = some json := by
  cases json with
  | arr items => simp [ofJson, meaning?, itemMeanings?_ofItems items]
  | obj members => simp [ofJson, meaning?, memberMeanings?_ofMembers members]
  | null | bool _ | int _ | float _ | str _ => simp [ofJson, meaning?]

theorem itemMeanings?_ofItems (items : List Json) :
    itemMeanings? (ofItems items) = some items := by
  match items with
  | [] => simp [ofItems, itemMeanings?]
  | item :: rest =>
      simp [ofItems, itemMeanings?, meaning?_ofJson item, itemMeanings?_ofItems rest]

theorem memberMeanings?_ofMembers (members : List (String × Json)) :
    memberMeanings? (ofMembers members) = some members := by
  match members with
  | [] => simp [ofMembers, memberMeanings?]
  | (key, value) :: rest =>
      simp [ofMembers, memberMeanings?, meaning?_ofJson value, memberMeanings?_ofMembers rest]

end

end Written

end Linkage.Json
