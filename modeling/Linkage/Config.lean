import Linkage.Error
import Linkage.Json.Writer
import Linkage.Source.Document
import Linkage.Text.LowerCase

/-!
# Configuration

Where entry specifiers start, which files a specifier may mean, and how the format of a module is
decided.  A configuration is changed in place: entry by entry with text, or by a file that holds a JSON
object with new values.
-/

namespace Linkage

open Json (Shape defaulted asText asAny asList asTable asRecord)

/-- The settings of an engine. -/
structure Config where
  /-- The directory that entry specifiers are relative to. -/
  baseDir : String
  /-- The extensions tried, in order, on a path that names no module. -/
  extensions : List String
  /-- The name tried, with each extension, inside a directory. -/
  indexName : String
  /-- The formats that extensions decide. -/
  formatByExtension : Table Format
  /-- The format of a module when nothing else decides it. -/
  defaultFormat : Format

namespace Config

/-- The settings that hold unless they are changed. -/
def standard : Config where
  baseDir := "/"
  extensions := [".js", ".mjs", ".cjs", ".json"]
  indexName := "index"
  formatByExtension := Table.ofList [(".mjs", .modern), (".cjs", .legacy), (".json", .legacy)]
  defaultFormat := .legacy

instance : Inhabited Config := ⟨standard⟩

/-- The names of the settings in a file. -/
def fields : List String :=
  ["base_dir", "extensions", "index_name", "format_by_extension", "default_format"]

/-- Read a configuration; what is absent is standard. -/
def ofJson : Shape Config := fun json => do
  let members ← asRecord fields json
  let baseDir ← defaulted members "base_dir" asText standard.baseDir
  let extensions ← defaulted members "extensions" (asList asText) standard.extensions
  let indexName ← defaulted members "index_name" asText standard.indexName
  let formatByExtension ←
    defaulted members "format_by_extension" (asTable Format.ofJson) standard.formatByExtension
  let defaultFormat ← defaulted members "default_format" Format.ofJson standard.defaultFormat
  return ⟨baseDir, extensions, indexName, formatByExtension, defaultFormat⟩

/-- The members that are written for a configuration. -/
def members (config : Config) : List (String × Json) :=
  [("base_dir", .str config.baseDir), ("extensions", Json.ofList .str config.extensions),
    ("index_name", .str config.indexName),
    ("format_by_extension", Json.ofTable Format.toJson config.formatByExtension),
    ("default_format", config.defaultFormat.toJson)]

/-- Write a configuration. -/
def toJson (config : Config) : Json := .obj config.members

/-- The format that an extension decides. -/
def formatForExtension (config : Config) (extension? : Option String) : Option Format :=
  extension?.bind config.formatByExtension.find?

/-- Replace the value under `key` in a list of members; none if there is no such key. -/
def overrideMember? (key : String) (value : Json) :
    List (String × Json) → Option (List (String × Json))
  | [] => none
  | member :: rest =>
      if member.1 = key then some ((key, value) :: rest)
      else (overrideMember? key value rest).map (member :: ·)

/-- Lay one entry over the members of a configuration.  A hyphen in its key counts as an
underscore. -/
def overlayEntry (members : List (String × Json)) (entry : String × Json) :
    Except ModuleError (List (String × Json)) :=
  let key := Text.substitute '-' '_' entry.1
  match overrideMember? key entry.2 members with
  | some members => .ok members
  | none => .error (.config s!"unknown key '{key}'")

/-- The entries of a text that is a JSON object, in key order; of two with one key the later counts. -/
def entriesOfText (text : String) : Except ModuleError (List (String × Json)) :=
  match Json.readAs asAny text with
  | .ok (.obj entries) => .ok entries
  | .ok _ => .error (.json (Json.Fault.mismatch "an object").message)
  | .error fault => .error (.json fault.message)

/-- The configuration with the entries of a JSON object laid over its members one by one. -/
def mergeText (config : Config) (text : String) : Except ModuleError Config := do
  let entries ← entriesOfText text
  let merged ← entries.foldlM overlayEntry config.members
  (ofJson (.ofJson (.obj merged))).mapError (fun fault => .json fault.message)

/-- The extension that a trimmed piece of text stands for: it has a dot in front, and an empty piece
stands for none. -/
def extensionOfPiece? : List Char → Option String
  | [] => none
  | '.' :: rest => some (String.ofList ('.' :: rest))
  | piece => some (String.ofList ('.' :: piece))

/-- The extensions that a comma-separated list names. -/
def extensionsOfText (text : String) : List String :=
  ((Text.pieces ',' text.toList).map Text.trimChars).filterMap extensionOfPiece?

/-- A change of a configuration in place.  It may fail, and what it has changed until then stays
changed. -/
abbrev Change : Type → Type := ExceptT ModuleError (StateM Config)

/-- Merge a file into the configuration, given what reading the file has given. -/
def mergeFile (content : Except ModuleError String) : Change Unit := do
  let text ← content
  let merged ← (← get).mergeText text
  modify (fun _ => merged)

/-- Change one entry by its text. -/
def enter (key value : String) : Change Unit :=
  match key with
  | "base-dir" => modify ({ · with baseDir := value })
  | "extensions" => modify ({ · with extensions := extensionsOfText value })
  | "index-name" => modify ({ · with indexName := value })
  | "default-format" =>
      match Format.parse? value with
      | some format => modify ({ · with defaultFormat := format })
      | none => throw (.config s!"unknown module format '{value}'")
  | _ => throw (.config s!"unknown key '{key}'")

/-- The configuration that a change makes of this one, unless it fails. -/
def changedBy (config : Config) (change : Change Unit) : Except ModuleError Config :=
  match change config with
  | (.ok (), after) => .ok after
  | (.error error, _) => .error error

/-- The configuration with one entry changed. -/
def set (config : Config) (key value : String) : Except ModuleError Config :=
  config.changedBy (enter key value)

/-- The text of one entry. -/
def get? (config : Config) (key : String) : Option String :=
  match key with
  | "base-dir" => some config.baseDir
  | "extensions" => some (",".intercalate config.extensions)
  | "index-name" => some config.indexName
  | "default-format" => some config.defaultFormat.name
  | _ => none

/-- What the names of environment variables that change the configuration begin with. -/
def variableStem : String := "SPACEY_MODULES_"

/-- The entry that an environment variable changes. -/
def keyOfVariable? (name : String) : Option String :=
  if variableStem.toList.isPrefixOf name.toList then
    some (Text.substitute '_' '-'
      (Text.lowerCase (String.ofList (name.toList.drop variableStem.length))))
  else none

/-- Change entries by environment variables, in the order given; a variable that cannot be used is
left out, and a warning says why. -/
def loadVariables (config : Config) (assignments : List (String × String)) :
    Config × List String :=
  assignments.foldl (fun (config, warnings) (name, value) =>
    match keyOfVariable? name with
    | none => (config, warnings)
    | some key => match enter key value config with
      | (.ok (), config) => (config, warnings)
      | (.error error, config) => (config, warnings ++ [s!"Ignoring {name}: {error.message}"]))
    (config, [])

end Config

end Linkage
