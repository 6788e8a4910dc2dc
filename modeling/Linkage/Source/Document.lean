import Linkage.Json.Shape
import Linkage.Source.Basic

/-!
# Sources as documents

How formats, declarations, statements and whole sources stand in JSON, and how they are read back.
Every field of a record is written, in a fixed order; a reader accepts more: absent optional
fields, fields it does not know, and the other names of a format.
-/

namespace Linkage

open Json (Shape required defaulted optional asText asNumber asAny asList asRecord asTagged)

namespace Format

/-- Read a format by name; an object with the name as its only key and null under it also
counts. -/
def ofJson : Shape Format := fun json =>
  let named (name : String) : Except Json.Fault Format :=
    match ofName? name with
    | some format => .ok format
    | none => .error (.mismatch "a module format")
  match json with
  | .atom (.str name) => named name
  | .obj [(some name, .atom .null)] => named name
  | _ => .error (.mismatch "a module format")

/-- Write a format by its name. -/
def toJson (format : Format) : Json := .str format.name

end Format

namespace ImportItem

/-- Read an import item by its kind. -/
def ofJson : Shape ImportItem := fun json => do
  let (kind, content) ← asTagged "kind" json
  match kind with
  | "default" => do
      let members ← asRecord ["local"] content
      return .default (← required members "local" asText)
  | "named" => do
      let members ← asRecord ["imported", "local"] content
      return .named (← required members "imported" asText) (← optional members "local" asText)
  | "namespace" => do
      let members ← asRecord ["local"] content
      return .star (← required members "local" asText)
  | _ => throw (.mismatch "a kind of import")

/-- Write an import item. -/
def toJson : ImportItem → Json
  | default as_ => .obj [("kind", .str "default"), ("local", .str as_)]
  | named imported alias? =>
      .obj [("kind", .str "named"), ("imported", .str imported),
        ("local", Json.ofOption .str alias?)]
  | star as_ => .obj [("kind", .str "namespace"), ("local", .str as_)]

end ImportItem

namespace ExportItem

/-- Read an export item by its kind. -/
def ofJson : Shape ExportItem := fun json => do
  let (kind, content) ← asTagged "kind" json
  match kind with
  | "default" => do
      let _ ← asRecord [] content
      return .default
  | "named" => do
      let members ← asRecord ["local", "exported"] content
      return .named (← required members "local" asText) (← optional members "exported" asText)
  | "all" => do
      let _ ← asRecord [] content
      return .star
  | "all_as" => do
      let members ← asRecord ["exported"] content
      return .starAs (← required members "exported" asText)
  | _ => throw (.mismatch "a kind of export")

/-- Write an export item. -/
def toJson : ExportItem → Json
  | default => .obj [("kind", .str "default")]
  | named name alias? =>
      .obj [("kind", .str "named"), ("local", .str name), ("exported", Json.ofOption .str alias?)]
  | star => .obj [("kind", .str "all")]
  | starAs as_ => .obj [("kind", .str "all_as"), ("exported", .str as_)]

end ExportItem

namespace ImportDeclaration

/-- Read an import declaration. -/
def ofJson : Shape ImportDeclaration := fun json => do
  let members ← asRecord ["specifier", "imports"] json
  let specifier ← required members "specifier" asText
  let items ← defaulted members "imports" (asList ImportItem.ofJson) []
  return ⟨specifier, items⟩

/-- Write an import declaration. -/
def toJson (declaration : ImportDeclaration) : Json :=
  .obj [("specifier", .str declaration.specifier),
    ("imports", Json.ofList ImportItem.toJson declaration.items)]

end ImportDeclaration

namespace ExportDeclaration

/-- Read an export declaration. -/
def ofJson : Shape ExportDeclaration := fun json => do
  let members ← asRecord ["exports", "from"] json
  let items ← required members "exports" (asList ExportItem.ofJson)
  let source? ← optional members "from" asText
  return ⟨items, source?⟩

/-- Write an export declaration. -/
def toJson (declaration : ExportDeclaration) : Json :=
  .obj [("exports", Json.ofList ExportItem.toJson declaration.items),
    ("from", Json.ofOption .str declaration.source?)]

end ExportDeclaration

namespace Statement

/-- The fields of the statement that an operation stands for, in order. -/
def fieldsOf? (operation : String) : Option (List String) :=
  match operation with
  | "set" | "export" => some ["name", "value"]
  | "copy" => some ["from", "to"]
  | "get" => some ["object", "property", "to"]
  | "add" => some ["name", "by"]
  | "set_default" | "set_exports" => some ["value"]
  | "require" => some ["specifier", "to"]
  | "export_binding" => some ["name", "from"]
  | "throw" => some ["message"]
  | "log" => some ["name"]
  | _ => none

/-- Read a statement by its operation. -/
def ofJson : Shape Statement := fun json => do
  let (operation, content) ← asTagged "op" json
  let some fields := fieldsOf? operation | Except.error (.mismatch "an operation")
  let members ← asRecord fields content
  match operation with
  | "set" => return .set (← required members "name" asText) (← required members "value" asAny)
  | "copy" => return .copy (← required members "from" asText) (← required members "to" asText)
  | "get" =>
      return .get (← required members "object" asText) (← required members "property" asText)
        (← required members "to" asText)
  | "add" => return .add (← required members "name" asText) (← required members "by" asNumber)
  | "set_default" => return .setDefault (← required members "value" asAny)
  | "require" =>
      return .require (← required members "specifier" asText) (← optional members "to" asText)
  | "export" =>
      return .exportValue (← required members "name" asText) (← required members "value" asAny)
  | "export_binding" =>
      return .exportBinding (← required members "name" asText) (← required members "from" asText)
  | "set_exports" => return .setExports (← required members "value" asAny)
  | "throw" => return .throw (← required members "message" asText)
  | "log" => return .log (← required members "name" asText)
  | _ => Except.error (.mismatch "an operation")

/-- Write a statement. -/
def toJson : Statement → Json
  | set name value => .obj [("op", .str "set"), ("name", .str name), ("value", value)]
  | copy source target => .obj [("op", .str "copy"), ("from", .str source), ("to", .str target)]
  | get object property target =>
      .obj [("op", .str "get"), ("object", .str object), ("property", .str property),
        ("to", .str target)]
  | add name amount => .obj [("op", .str "add"), ("name", .str name), ("by", .ofFloat amount)]
  | setDefault value => .obj [("op", .str "set_default"), ("value", value)]
  | require specifier target? =>
      .obj [("op", .str "require"), ("specifier", .str specifier),
        ("to", Json.ofOption .str target?)]
  | exportValue name value => .obj [("op", .str "export"), ("name", .str name), ("value", value)]
  | exportBinding name source =>
      .obj [("op", .str "export_binding"), ("name", .str name), ("from", .str source)]
  | setExports value => .obj [("op", .str "set_exports"), ("value", value)]
  | throw text => .obj [("op", .str "throw"), ("message", .str text)]
  | log name => .obj [("op", .str "log"), ("name", .str name)]

end Statement

namespace Descriptor

/-- Read a source with a body of a given shape; what is absent is empty. -/
def ofJsonWith {Body : Type} (body : Shape Body) (none_ : Body) : Shape (Source Body) :=
  fun json => do
    let members ← asRecord ["format", "imports", "exports", "body"] json
    let format? ← optional members "format" Format.ofJson
    let imports ← defaulted members "imports" (asList ImportDeclaration.ofJson) []
    let exports ← defaulted members "exports" (asList ExportDeclaration.ofJson) []
    let body ← defaulted members "body" body none_
    return ⟨format?, imports, exports, body⟩

/-- Read a source with a script as its body. -/
def ofJsonValue : Shape Descriptor :=
  ofJsonWith (asList Statement.ofJson) []

/-- Write a source. -/
def toJson (source : Descriptor) : Json :=
  .obj [("format", Json.ofOption Format.toJson source.format?),
    ("imports", Json.ofList ImportDeclaration.toJson source.imports),
    ("exports", Json.ofList ExportDeclaration.toJson source.exports),
    ("body", Json.ofList Statement.toJson source.body)]

end Descriptor

/-- A set of modules in one file, with the specifier to start from and names for bare
specifiers. -/
structure Manifest where
  /-- The specifier to run when none is given. -/
  start? : Option String
  /-- The paths that bare specifiers stand for. -/
  aliases : Table String
  /-- The modules by path. -/
  modules : Table Descriptor

namespace Manifest

/-- Read a manifest; what is absent is empty. -/
def ofJson : Shape Manifest := fun json => do
  let members ← asRecord ["entry", "aliases", "modules"] json
  let start? ← optional members "entry" asText
  let aliases ← defaulted members "aliases" (Json.asTable asText) {}
  let modules ← defaulted members "modules" (Json.asTable Descriptor.ofJsonValue) {}
  return ⟨start?, aliases, modules⟩

/-- Write a manifest. -/
def toJson (manifest : Manifest) : Json :=
  .obj [("entry", Json.ofOption .str manifest.start?),
    ("aliases", Json.ofTable .str manifest.aliases),
    ("modules", Json.ofTable Descriptor.toJson manifest.modules)]

end Manifest

end Linkage
