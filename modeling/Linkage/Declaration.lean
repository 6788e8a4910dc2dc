/-!
# Import and export declarations

What a module says statically about its neighbours: which names it takes from which specifier, and
which names it offers, its own or those of another module.
-/

namespace Linkage

/-- The local name under which a default export is kept. -/
def defaultLocal : String := "*default*"

/-- One thing an import declaration takes. -/
inductive ImportItem where
  /-- The default export. -/
  | default (as_ : String)
  /-- An export by its public name, under an alias if one is given. -/
  | named (imported : String) (alias? : Option String)
  /-- The whole namespace. -/
  | star (as_ : String)
deriving DecidableEq, Repr, Inhabited

/-- The local name that an import item introduces. -/
def ImportItem.localName : ImportItem → String
  | default as_ | star as_ => as_
  | named imported alias? => alias?.getD imported

/-- `import items from specifier`. -/
structure ImportDeclaration where
  /-- The module asked for. -/
  specifier : String
  /-- What is taken from it; nothing if it is only to be run. -/
  items : List ImportItem
deriving DecidableEq, Repr, Inhabited

/-- Whether a declaration only asks for the module to run. -/
def ImportDeclaration.isSideEffectOnly (declaration : ImportDeclaration) : Bool :=
  declaration.items.isEmpty

/-- One thing an export declaration offers. -/
inductive ExportItem where
  /-- The default export. -/
  | default
  /-- A local name, or with a source module a name of that module, under an alias if one is
  given. -/
  | named (name : String) (alias? : Option String)
  /-- Every name of the source module. -/
  | star
  /-- The namespace of the source module. -/
  | starAs (as_ : String)
deriving DecidableEq, Repr, Inhabited

/-- `export items`, or `export items from source?`. -/
structure ExportDeclaration where
  /-- What is offered. -/
  items : List ExportItem
  /-- The module it is taken from. -/
  source? : Option String
deriving DecidableEq, Repr, Inhabited

end Linkage
