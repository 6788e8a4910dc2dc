import Linkage.Console.Printing
import Linkage.Value.Shown

/-!
# Answers and events

What a session says: the answer to each command, and the events noted while bodies run.  Values are
shown as they are at that moment.
-/

namespace Linkage

/-- A value that may have failed to be read. -/
abbrev ShownResult : Type := Except ModuleError Shown

/-- The names of a namespace with their values. -/
abbrev ShownEntries : Type := Except ModuleError (List (String × ShownResult))

/-- A module namespace as it is shown: itself, then its names. -/
structure ShownSpace where
  /-- The namespace. -/
  namespace_ : Namespace
  /-- Its names. -/
  entries : ShownEntries
deriving Inhabited

/-- A legacy record's exports value as it is shown. -/
structure ShownExports where
  /-- Whether the body has begun. -/
  started : Bool
  /-- The value. -/
  value : Shown
  /-- What an importer reads. -/
  read : ShownResult
deriving Inhabited

/-- A record as it is shown. -/
structure ShownRecord where
  /-- The record. -/
  record : Record
  /-- Its exports value. -/
  exports? : Option ShownExports
deriving Inhabited

/-- All there is to say about a value. -/
structure Description where
  /-- The value. -/
  value : Value
  /-- The value as it is shown. -/
  shown : Shown
  /-- Its JSON text. -/
  json : String
  /-- Its text on the console. -/
  pretty : String
deriving Inhabited

/-- Describe a value. -/
def Description.of (heap : Heap) (value : Value) : Description :=
  ⟨value, heap.picture value, (value.toJson heap).compact, Console.valueText heap value⟩

/-- A module of the store in one line. -/
structure Listed where
  /-- The module. -/
  id : ModuleId
  /-- Its format. -/
  format : Format
  /-- Its status. -/
  status : Status
deriving DecidableEq, Repr, Inhabited

/-- The answer to a command. -/
inductive Answer where
  /-- It failed. -/
  | failed (error : ModuleError)
  /-- It makes no sense here. -/
  | refused (reason : String)
  /-- It is done. -/
  | done
  /-- A number. -/
  | count (n : Nat)
  /-- A truth value. -/
  | truth (value : Bool)
  /-- A resolved specifier. -/
  | resolved (resolved : Resolved)
  /-- A value. -/
  | value (shown : Shown)
  /-- A module namespace. -/
  | space (shown : ShownSpace)
  /-- A dependency graph, and what it says of the modules asked about. -/
  | graph (graph : Graph) (queries : List ModuleId)
  /-- The answers to several dynamic imports, and how many are still running. -/
  | several (answers : List Answer) (pending : Nat)
  /-- A dynamic import has been started, or has failed at once; and how many are running. -/
  | started (error? : Option ModuleError) (pending : Nat)
  /-- A status. -/
  | status (status? : Option Status)
  /-- A record. -/
  | record (shown? : Option ShownRecord)
  /-- All modules. -/
  | listing (modules : List Listed)
  /-- A namespace from all sides. -/
  | view (keys : Except ModuleError (List String)) (entries : ShownEntries)
      (contains : List Bool) (json : Except ModuleError String) (pretty : String)
  /-- A value from all sides. -/
  | description (description : Description)
  /-- A property of an object, and what the object holds. -/
  | object (property? : Option Shown) (present : Bool) (keys : List String)
  /-- What the host says. -/
  | host (holds : Bool) (hint? : Option Format) (loaded : Except ModuleError ModuleSource)
      (bare? : Option (Option ModuleId)) (fetched? : Option (Except ModuleError ModuleSource))
  /-- What the console offers. -/
  | assistance (cursor : Nat) (completions? : Option (List (String × String)))
      (hint? : Option String) (highlight : String)
deriving Inhabited

/-- Something noted while bodies run. -/
inductive Event where
  /-- A body has begun. -/
  | ran (id : ModuleId)
  /-- A body has written to the log. -/
  | logged (text : String) (id : ModuleId)
  /-- An instruction was tried. -/
  | tried (error? : Option ModuleError)
  /-- A binding has this value. -/
  | observed (name : String) (value : Shown)
  /-- The exports value is this. -/
  | exports (value : Shown)
  /-- The running module has this identifier and format. -/
  | introduced (id : ModuleId) (format : Format)
  /-- A command given by a body was answered. -/
  | answered (answer : Answer)
  /-- A module could not be loaded and was passed over. -/
  | warned (text : String)
deriving Inhabited

namespace Store

/-- Show a result. -/
def showResult (store : Store) : Except ModuleError Value → ShownResult
  | .ok value => .ok (store.heap.picture value)
  | .error error => .error error

/-- Show the names of a namespace. -/
def showEntries (store : Store) (found : Namespace) : ShownEntries × Store :=
  match store.entriesOf found with
  | (.error error, store) => (.error error, store)
  | (.ok entries, store) =>
      (.ok (entries.map (fun entry => (entry.1, store.showResult entry.2))), store)

/-- Show a namespace. -/
def showSpace (store : Store) (found : Namespace) : ShownSpace × Store :=
  let (entries, store) := store.showEntries found
  (⟨found, entries⟩, store)

/-- Show a record. -/
def showRecord (store : Store) (ref : RecordRef) (record : Record) : ShownRecord :=
  ⟨record, record.exports?.map (fun exports =>
    ⟨exports.started, store.heap.picture exports.value,
      store.showResult (store.readExports ref none)⟩)⟩

/-- All registered modules in one line each. -/
def listed (store : Store) : List Listed :=
  store.ids.filterMap (fun id => (store.find? id).map (fun record =>
    ⟨id, record.format, record.status⟩))

end Store

end Linkage
