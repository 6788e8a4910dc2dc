import Linkage.Text.Blank

/-!
# Module formats

A legacy module builds one exports value while it runs; a modern module declares its imports and
exports and shares live bindings.
-/

namespace Linkage

/-- The export discipline of a module. -/
inductive Format where
  /-- One exports value, filled by the running body and fetched with `require`. -/
  | legacy
  /-- Declared imports and exports that share live bindings. -/
  | modern
deriving DecidableEq, Repr, Inhabited

namespace Format

/-- The name that is shown. -/
def name : Format → String
  | legacy => "legacy"
  | modern => "modern"

/-- The format with this name or one of its other names. -/
def ofName? (name : String) : Option Format :=
  if name = "legacy" ∨ name = "commonjs" ∨ name = "cjs" then some legacy
  else if name = "modern" ∨ name = "module" ∨ name = "esm" then some modern
  else none

/-- The format a user means: surrounding blanks and the case of ASCII letters do not matter. -/
def parse? (text : String) : Option Format :=
  ofName? (String.ofList ((Text.trim text).toList.map Char.toLower))

/-- The format that the `type` field of a package description asks for. -/
def ofPackageType? : Option String → Option Format
  | some "module" => some modern
  | some "commonjs" => some legacy
  | _ => none

end Format

end Linkage
