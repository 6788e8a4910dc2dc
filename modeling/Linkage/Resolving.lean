import Linkage.Config
import Linkage.Host.Basic

/-!
# Resolving specifiers

A specifier is first turned into a path: relative to its referrer, absolute, or by the host if it is
bare.  The path names the first module that exists among the path itself, the path with each
extension, and the index file with each extension in the directory of that name.  Answers are
remembered until the resolver is cleared; failures are not.
-/

namespace Linkage

/-- A module that a specifier names. -/
structure Resolved where
  /-- The module. -/
  id : ModuleId
  /-- The format it is loaded with. -/
  format : Format
deriving DecidableEq, Repr, Inhabited

/-- The paths that may be meant by a candidate, in the order they are tried. -/
def Config.candidates (config : Config) (candidate : ModuleId) : List ModuleId :=
  candidate :: config.extensions.map candidate.withSuffix ++
    config.extensions.map (fun extension => candidate.child (config.indexName ++ extension))

/-- The module that a candidate names. -/
def Config.probe? (config : Config) (host : Host) (candidate : ModuleId) : Option ModuleId :=
  (config.candidates candidate).find? host.holds

/-- The format of a module: by extension, else by the host, else the default. -/
def Config.formatOf (config : Config) (host : Host) (id : ModuleId) : Format :=
  match config.formatForExtension id.extension? with
  | some format => format
  | none => (host.formatHint id).getD config.defaultFormat

/-- The path that a specifier means, before any file is looked for. -/
def Config.candidate? (config : Config) (host : Host) (specifier : String)
    (referrer? : Option ModuleId) : Option ModuleId :=
  if Specifier.isRelative specifier then
    match referrer? with
    | some referrer => some (referrer.joinRelative specifier)
    | none => some (Specifier.join config.baseDir specifier)
  else if Specifier.isAbsolute specifier then some (.ofPath specifier)
  else host.resolveBare specifier referrer?

/-- Resolve a specifier afresh. -/
def Config.resolve (config : Config) (host : Host) (specifier : String)
    (referrer? : Option ModuleId) : Except ModuleError Resolved :=
  let failure (reason : String) : ModuleError := .resolution specifier referrer? reason
  if specifier = "" then .error (failure "empty specifier")
  else match config.candidate? host specifier referrer? with
    | none => .error (failure "no mapping for bare specifier")
    | some candidate => match config.probe? host candidate with
      | none => .error (failure s!"no module at '{candidate.text}'")
      | some id => .ok ⟨id, config.formatOf host id⟩

/-- A remembered answer. -/
structure Remembered where
  /-- The specifier. -/
  specifier : String
  /-- The module that asked. -/
  referrer? : Option ModuleId
  /-- The answer. -/
  resolved : Resolved
deriving DecidableEq, Repr, Inhabited

/-- The answers that are remembered. -/
structure Resolver where
  /-- One answer for each pair of specifier and referrer. -/
  memo : List Remembered
deriving DecidableEq, Repr, Inhabited

namespace Resolver

/-- The resolver that remembers nothing. -/
def empty : Resolver := ⟨[]⟩

/-- The remembered answer for a specifier and referrer. -/
def remembered? (resolver : Resolver) (specifier : String) (referrer? : Option ModuleId) :
    Option Resolved :=
  (resolver.memo.find? (fun entry =>
    entry.specifier = specifier ∧ entry.referrer? = referrer?)).map (·.resolved)

/-- Resolve a specifier, and remember the answer. -/
def resolve (resolver : Resolver) (config : Config) (host : Host) (specifier : String)
    (referrer? : Option ModuleId) : Except ModuleError Resolved × Resolver :=
  match resolver.remembered? specifier referrer? with
  | some resolved => (.ok resolved, resolver)
  | none => match config.resolve host specifier referrer? with
    | .error error => (.error error, resolver)
    | .ok resolved => (.ok resolved, ⟨resolver.memo ++ [⟨specifier, referrer?, resolved⟩]⟩)

/-- How many answers are remembered. -/
def size (resolver : Resolver) : Nat := resolver.memo.length

end Resolver

end Linkage
