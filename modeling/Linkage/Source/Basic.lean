import Linkage.Declaration
import Linkage.Format
import Linkage.Statement

/-!
# Module sources

A source is what a host gives for a module: the format it declares, its declarations, and a body.
The kind of body is a parameter, since a file holds statements while an embedder can give more.
The functions named for declarations add one at the end, so a source can be written as a chain.
-/

namespace Linkage

/-- Declarations and body of a module. -/
structure Source (Body : Type) where
  /-- The format the module itself declares. -/
  format? : Option Format
  /-- Import declarations in the order they stand. -/
  imports : List ImportDeclaration
  /-- Export declarations in the order they stand. -/
  exports : List ExportDeclaration
  /-- What runs when the module is evaluated. -/
  body : Body
deriving Inhabited

/-- A source as it stands in a file. -/
abbrev Descriptor : Type := Source (List Statement)

namespace Source

variable {Body Other : Type}

/-- A source without declarations. -/
def ofBody (body : Body) : Source Body := ⟨none, [], [], body⟩

/-- The same declarations with another kind of body. -/
def mapBody (f : Body → Other) (source : Source Body) : Source Other :=
  ⟨source.format?, source.imports, source.exports, f source.body⟩

/-- Declare a format. -/
def withFormat (source : Source Body) (format : Format) : Source Body :=
  { source with format? := some format }

/-- Add an import declaration. -/
def importItems (source : Source Body) (specifier : String) (items : List ImportItem) :
    Source Body :=
  { source with imports := source.imports ++ [⟨specifier, items⟩] }

/-- Import the default export. -/
def importDefault (source : Source Body) (specifier as_ : String) : Source Body :=
  source.importItems specifier [.default as_]

/-- Import a name; an alias that equals it is not written. -/
def importNamed (source : Source Body) (specifier imported as_ : String) : Source Body :=
  source.importItems specifier [.named imported (if imported = as_ then none else some as_)]

/-- Import the namespace. -/
def importStar (source : Source Body) (specifier as_ : String) : Source Body :=
  source.importItems specifier [.star as_]

/-- Import a module only to run it. -/
def importOnly (source : Source Body) (specifier : String) : Source Body :=
  source.importItems specifier []

/-- Add an export declaration. -/
def exportItems (source : Source Body) (items : List ExportItem) (source? : Option String) :
    Source Body :=
  { source with exports := source.exports ++ [⟨items, source?⟩] }

/-- Export a local name under a public one; an alias that equals it is not written. -/
def exportAs (source : Source Body) (name as_ : String) : Source Body :=
  source.exportItems [.named name (if name = as_ then none else some as_)] none

/-- Export a local name. -/
def exportLocal (source : Source Body) (name : String) : Source Body :=
  source.exportAs name name

/-- Export a default value. -/
def exportDefault (source : Source Body) : Source Body :=
  source.exportItems [.default] none

/-- Export a name of another module. -/
def exportFrom (source : Source Body) (specifier name as_ : String) : Source Body :=
  source.exportItems [.named name (if name = as_ then none else some as_)] (some specifier)

/-- Export every name of another module. -/
def exportAllFrom (source : Source Body) (specifier : String) : Source Body :=
  source.exportItems [.star] (some specifier)

/-- Export the namespace of another module. -/
def exportAllAs (source : Source Body) (specifier as_ : String) : Source Body :=
  source.exportItems [.starAs as_] (some specifier)

/-- Every specifier that the declarations name, imports first. -/
def specifiers (source : Source Body) : List String :=
  source.imports.map (·.specifier) ++ source.exports.filterMap (·.source?)

end Source

/-- A legacy module whose exports are a given JSON value. -/
def Descriptor.ofJson (value : Json) : Descriptor :=
  (Source.ofBody [Statement.setExports value]).withFormat .legacy

end Linkage
