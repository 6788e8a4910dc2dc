import Linkage.Identifier

/-!
# Module errors

Everything that can go wrong between naming a module and reading one of its bindings.  A failing
body wraps its cause in `evaluation`, once for every module on the way; `rootCause` looks through
these layers.
-/

namespace Linkage

/-- What went wrong. -/
inductive ModuleError where
  /-- A specifier names no module. -/
  | resolution (specifier : String) (referrer : Option ModuleId) (reason : String)
  /-- A binding was read before its owner wrote it. -/
  | uninitialized (id : ModuleId) (name : String)
  /-- Two exports claim one public name. -/
  | duplicateExport (id : ModuleId) (name : String)
  /-- An imported name is not exported. -/
  | missingExport (id : ModuleId) (name : String)
  /-- The body of a module failed. -/
  | evaluation (id : ModuleId) (cause : ModuleError)
  /-- A body used a name that it neither declared nor imported. -/
  | unresolvedName (id : ModuleId) (name : String)
  /-- A body assigned an imported binding. -/
  | immutableBinding (id : ModuleId) (name : String)
  /-- A modern module was asked for its exports value. -/
  | notLegacy (id : ModuleId)
  /-- The exports value is no object, so it takes no property. -/
  | invalidExports (id : ModuleId) (name : String)
  /-- A body raised an error of its own. -/
  | thrown (text : String)
  /-- The host gave no source. -/
  | load (id : ModuleId) (reason : String)
  /-- The declarations of a module contradict each other. -/
  | malformed (id : ModuleId) (reason : String)
  /-- A file could not be read. -/
  | io (text : String)
  /-- A file holds no JSON value of the expected shape. -/
  | json (text : String)
  /-- A configuration entry is unknown or cannot be used. -/
  | config (text : String)
  /-- The module is not in the store any more. -/
  | detached (id : ModuleId)
  /-- A dynamic import was given up. -/
  | aborted (text : String)
deriving DecidableEq, Repr, Inhabited

namespace ModuleError

/-- What is said about an error. -/
def message : ModuleError → String
  | resolution specifier referrer reason =>
      let asker := match referrer with
        | none => ""
        | some id => s!" from '{id.text}'"
      s!"Cannot resolve module '{specifier}'{asker}: {reason}"
  | uninitialized id name =>
      s!"ReferenceError: Cannot access '{name}' of '{id.text}' before initialization"
  | duplicateExport id name => s!"SyntaxError: Conflicting export '{name}' in module '{id.text}'"
  | missingExport id name =>
      s!"SyntaxError: Module '{id.text}' does not provide an export named '{name}'"
  | evaluation id cause => s!"Error evaluating module '{id.text}': {cause.message}"
  | unresolvedName id name => s!"ReferenceError: '{name}' is not defined in module '{id.text}'"
  | immutableBinding id name =>
      s!"TypeError: Assignment to imported binding '{name}' in module '{id.text}'"
  | notLegacy id => s!"TypeError: Module '{id.text}' has no exports object"
  | invalidExports id name =>
      s!"TypeError: Cannot set property '{name}' on exports of '{id.text}'"
  | thrown text => text
  | load id reason => s!"Failed to load module '{id.text}': {reason}"
  | malformed id reason => s!"SyntaxError: {reason} in module '{id.text}'"
  | io text => s!"File system error: {text}"
  | json text => s!"JSON parse error: {text}"
  | config text => s!"Invalid configuration: {text}"
  | detached id => s!"Module '{id.text}' is no longer registered"
  | aborted text => s!"Dynamic import aborted: {text}"

/-- The error below all layers of failed bodies. -/
def rootCause : ModuleError → ModuleError
  | evaluation _ cause => cause.rootCause
  | other => other

/-- Whether the error came from reading a binding too early. -/
def isUninitialized (error : ModuleError) : Bool :=
  match error.rootCause with
  | uninitialized _ _ => true
  | _ => false

theorem rootCause_ne_evaluation (error : ModuleError) (id : ModuleId) (cause : ModuleError) :
    error.rootCause ≠ evaluation id cause := by
  induction error <;> simp_all [rootCause]

end ModuleError

end Linkage
