import Linkage.FileTree
import Linkage.Host.Basic
import Linkage.Json.Shape
import Linkage.Source.Document

/-!
# Modules in files

A module is a file: one that ends in `.json` gives its value as exports, any other holds a source as
JSON.  A bare specifier names a package and perhaps a path inside it; the package is a directory
that is looked for in the directory of the referrer and in every one above it.  A `package.json`
says which file a package starts with and which format the files below it have.
-/

namespace Linkage

/-- What a package says about itself. -/
structure Package where
  /-- The file it starts with. -/
  main? : Option String
  /-- The format of its modules, by package type. -/
  type? : Option String
deriving DecidableEq, Repr, Inhabited

/-- Read the description of a package; as an array it has both fields. -/
def Package.ofJson : Json.Shape Package := fun json => do
  let members ← Json.asRecord ["main", "type"] json
  match json with
  | .arr items => if items.length < 2 then throw (.missing "type")
  | _ => pure ()
  let main? ← Json.optional members "main" Json.asText
  let type? ← Json.optional members "type" Json.asText
  return ⟨main?, type?⟩

/-- Cut a text at the first slash in `rest`, which follows `front`. -/
def cutAtSlash (front rest : List Char) : String × Option String :=
  match rest.dropWhile (· ≠ '/') with
  | [] => (String.ofList (front ++ rest), none)
  | _ :: sub => (String.ofList (front ++ rest.takeWhile (· ≠ '/')), some (String.ofList sub))

/-- The name of the package that a bare specifier asks for, and the path inside it: the name is the
first component, or the first two if it begins with an at sign. -/
def splitPackage (specifier : String) : String × Option String :=
  match specifier.toList with
  | '@' :: rest => match rest.dropWhile (· ≠ '/') with
    | [] => (specifier, none)
    | slash :: behind => cutAtSlash ('@' :: rest.takeWhile (· ≠ '/') ++ [slash]) behind
  | cs => cutAtSlash [] cs

/-- A file tree that gives modules. -/
structure FileHost where
  /-- The files. -/
  tree : FileTree
  /-- The directory where the search for packages starts when no module asks. -/
  root : String
  /-- The name of the directories that hold packages. -/
  packagesDir : String
deriving Inhabited

namespace FileHost

/-- The name that package directories usually have. -/
def standardPackagesDir : String := "node_modules"

/-- The name of the file in which a package describes itself. -/
def packageFile : String := "package.json"

/-- The description of the package in a directory, if there is a readable one. -/
def package? (host : FileHost) (dir : String) : Option Package :=
  match host.tree.read (joinPath dir packageFile) with
  | .error _ => none
  | .ok text => (Json.readAs Package.ofJson text).toOption

/-- What a package starts with: its main file, or the directory itself. -/
def packageEntry (host : FileHost) (dir : String) : ModuleId :=
  match (host.package? dir).bind (·.main?) with
  | some main => .ofPath (joinPath dir main)
  | none => .ofPath dir

/-- The directory that holds a package, as seen from a directory. -/
def packageDir (host : FileHost) (dir name : String) : String :=
  joinPath (joinPath dir host.packagesDir) name

/-- What a path inside a package names, given the directory of the package. -/
def withinPackage (host : FileHost) (package : String) : Option String → ModuleId
  | none => host.packageEntry package
  | some sub =>
      let path := joinPath package sub
      if host.tree.isDirectory path then host.packageEntry path else .ofPath path

/-- Look for the package that a bare specifier asks for, in the nearest directory that has it. -/
def resolveBare (host : FileHost) (specifier : String) (referrer? : Option ModuleId) :
    Option ModuleId :=
  let (name, sub?) := splitPackage specifier
  let start := (referrer?.map (·.dirname)).getD host.root
  let candidates := (directoriesUp start).map (host.packageDir · name)
  (candidates.find? host.tree.isDirectory).map (host.withinPackage · sub?)

/-- The format that the nearest package description above a module asks for. -/
def formatHint (host : FileHost) (id : ModuleId) : Option Format :=
  if id.text = "/" then none
  else
    let nearest := (directoriesUp id.dirname).find? (fun dir =>
      host.tree.isFile (joinPath dir packageFile))
    nearest.bind (fun dir => (host.package? dir).bind (fun found =>
      Format.ofPackageType? found.type?))

/-- The module that a file holds. -/
def parse (id : ModuleId) (text : String) : Except ModuleError ModuleSource :=
  if id.extension? = some ".json" then
    match Json.readAs Json.asAny text with
    | .ok value => .ok (Descriptor.ofJson value).toSource
    | .error fault => .error (.load id fault.message)
  else match Json.readAs Descriptor.ofJsonValue text with
    | .ok descriptor => .ok descriptor.toSource
    | .error fault => .error (.load id s!"invalid module descriptor: {fault.message}")

/-- The source of a module. -/
def load (host : FileHost) (id : ModuleId) : Except ModuleError ModuleSource :=
  match host.tree.read id.text with
  | .ok text => parse id text
  | .error fault => .error (.load id fault.message)

/-- A file tree as a host. -/
def toHost (host : FileHost) : Host where
  holds id := host.tree.isFile id.text
  resolveBare := host.resolveBare
  formatHint := host.formatHint
  load := host.load
  fetch := host.load
  size := host.tree.size

end FileHost

end Linkage
