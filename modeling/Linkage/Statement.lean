import Linkage.Json.Basic

/-!
# Script statements

The small language of module bodies that can be written in a file.
-/

namespace Linkage

/-- One statement of a script. -/
inductive Statement where
  /-- `name = value` -/
  | set (name : String) (value : Json)
  /-- `target = source` -/
  | copy (source target : String)
  /-- `target = object.property` -/
  | get (object property target : String)
  /-- `name += amount` -/
  | add (name : String) (amount : Float)
  /-- Give the default export its value. -/
  | setDefault (value : Json)
  /-- Fetch another module at once, and keep what it gives if a target is named. -/
  | require (specifier : String) (target? : Option String)
  /-- Set a property of the exports value. -/
  | exportValue (name : String) (value : Json)
  /-- Set a property of the exports value from a binding. -/
  | exportBinding (name source : String)
  /-- Replace the exports value. -/
  | setExports (value : Json)
  /-- Fail with a text. -/
  | throw (text : String)
  /-- Write a binding to the log. -/
  | log (name : String)
deriving Inhabited

end Linkage
