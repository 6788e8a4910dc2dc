import Linkage.Host.Basic
import Linkage.Source.Document

/-!
# Modules kept in memory

A shelf is a table of modules and a table of names for bare specifiers.
-/

namespace Linkage

/-- Modules in memory. -/
structure Shelf where
  /-- The modules, by the text of their identifier. -/
  modules : Table ModuleSource
  /-- What bare specifiers stand for. -/
  aliases : Table ModuleId
  /-- Modules that are said to exist whether or not they are there. -/
  announced : List ModuleId
  /-- The shelf answers for bare specifiers and formats; a bare shelf only stores. -/
  hasIndex : Bool
deriving Inhabited

namespace Shelf

/-- The shelf without modules. -/
def empty : Shelf := ⟨{}, {}, [], true⟩

/-- Add a module, or replace it. -/
def insert (shelf : Shelf) (path : String) (source : ModuleSource) : Shelf :=
  { shelf with modules := shelf.modules.insert (ModuleId.ofPath path).text source }

/-- Give a bare specifier a meaning. -/
def alias_ (shelf : Shelf) (specifier path : String) : Shelf :=
  { shelf with aliases := shelf.aliases.insert specifier (.ofPath path) }

/-- The modules and names of a manifest. -/
def ofManifest (manifest : Manifest) : Shelf :=
  let named := manifest.aliases.entries.foldl
    (fun shelf entry => shelf.alias_ entry.1 entry.2) empty
  manifest.modules.entries.foldl
    (fun shelf entry => shelf.insert entry.1 (Descriptor.toSource entry.2)) named

/-- The source of a module. -/
def load (shelf : Shelf) (id : ModuleId) : Except ModuleError ModuleSource :=
  match shelf.modules.find? id.text with
  | some source => .ok source
  | none => .error (.load id "not registered with host")

/-- A shelf as a host. -/
def toHost (shelf : Shelf) : Host where
  holds id := shelf.modules.contains id.text || shelf.announced.contains id
  resolveBare specifier _ := if shelf.hasIndex then shelf.aliases.find? specifier else none
  formatHint id :=
    if shelf.hasIndex then (shelf.modules.find? id.text).bind (·.format?) else none
  load := shelf.load
  fetch := shelf.load
  size := shelf.modules.size + shelf.announced.length

end Shelf

end Linkage
