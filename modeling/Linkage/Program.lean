import Linkage.Source.Basic
import Linkage.Identifier

/-!
# Programs

The body of a module is a program: a list of instructions.  Besides the statements of a script it
can hold what an embedder may do from inside a body: read and write bindings, keep a live binding,
start a dynamic import later, and give any command to the engine that runs it.  Since a body runs at
most once per record, a list of instructions describes every body by what it does in that run.
-/

namespace Linkage

/-- A value as an instruction or command writes it. -/
inductive Literal where
  /-- A JSON value. -/
  | json (value : Json)
  /-- The undefined value. -/
  | undefined
  /-- A number, whatever it is. -/
  | number (value : Float)
  /-- The value that is kept under a name, undefined if there is none. -/
  | kept (slot : String)
deriving Inhabited

mutual

/-- One step of a module body. -/
inductive Instruction where
  /-- A statement of a script. -/
  | statement (statement : Statement)
  /-- Note that the body has begun. -/
  | announce
  /-- Do something and note whether it succeeded; never fail. -/
  | attempt (instruction : Instruction)
  /-- Note the value of a binding. -/
  | observe (name : String)
  /-- Write a binding. -/
  | assign (name : String) (value : Literal)
  /-- Keep a live binding. -/
  | capture (name as_ : String)
  /-- Keep a dynamic import without starting it. -/
  | importLater (specifier as_ : String)
  /-- Note the exports value. -/
  | observeExports
  /-- Make the value of a binding the exports value. -/
  | replaceExports (source : String)
  /-- Note the identifier and the format of the running module. -/
  | introduce
  /-- Give a command to the engine, note its answer, and keep the value it gives if a name is
  said. -/
  | perform (command : Command) (save? : Option String)

/-- What can be asked of an engine from outside, or from inside a running body. -/
inductive Command where
  /-- Resolve a specifier. -/
  | resolve (specifier : String) (referrer? : Option ModuleId)
  /-- Load, link and evaluate a module, and give its namespace. -/
  | evaluate (specifier : String) (referrer? : Option ModuleId)
  /-- Load a module at once the way `require` does. -/
  | require (specifier : String) (referrer? : Option ModuleId)
  /-- Build the dependency graph of an entry and ask it about some modules. -/
  | graph (specifier : String) (queries : List ModuleId)
  /-- Import a module dynamically and wait for it. -/
  | importNow (specifier : String) (referrer? : Option ModuleId)
  /-- Start several dynamic imports together and wait for all. -/
  | importAll (requests : List (String × Option ModuleId))
  /-- Start a dynamic import without waiting. -/
  | startImport (specifier : String) (referrer? : Option ModuleId)
  /-- Let every dynamic import finish. -/
  | drive
  /-- Start a kept dynamic import and wait for it. -/
  | await (future : String)
  /-- How many dynamic imports are running. -/
  | pending
  /-- The status of a module. -/
  | status (id : ModuleId)
  /-- The record of a module. -/
  | record (id : ModuleId)
  /-- All modules with their statuses. -/
  | listing
  /-- The namespace of a module. -/
  | space (id : ModuleId) (requester? : Option ModuleId)
  /-- Read one name of a kept namespace. -/
  | readExport (slot name : String)
  /-- Everything a kept namespace shows. -/
  | viewSpace (slot : String) (names : List String)
  /-- Everything there is to say about a kept value. -/
  | describe (slot : String)
  /-- Make a value. -/
  | put (value : Literal)
  /-- Compare two kept values. -/
  | compare (a b : String)
  /-- Look at a kept object, and set a property if a value is given. -/
  | inspectObject (slot key : String) (value? : Option Literal)
  /-- Read a live binding. -/
  | readLive (live : String)
  /-- Write a live binding. -/
  | writeLive (live : String) (value : Literal)
  /-- Add a module to the host, or replace it. -/
  | insert (path : String) (source : Source (List Instruction))
  /-- Give a bare specifier a meaning. -/
  | alias (specifier path : String)
  /-- Write files. -/
  | write (files : List (String × ByteArray))
  /-- Remove a file. -/
  | remove (path : String)
  /-- Ask the host about a module, and about a bare specifier if one is given; also let it fetch the
  source if that is wanted. -/
  | inspectHost (id : ModuleId) (bare? : Option String) (referrer? : Option ModuleId)
      (fetch : Bool)
  /-- How many sources the host has given. -/
  | loadCount
  /-- Forget every module and every resolution. -/
  | reset
  /-- What the console offers for a line that is being typed, with the cursor at a byte offset. -/
  | assist (line : String) (cursor? : Option Nat)

end

instance : Inhabited Instruction := ⟨.announce⟩

instance : Inhabited Command := ⟨.pending⟩

/-- The body of a module. -/
abbrev Program : Type := List Instruction

/-- A module as a host gives it. -/
abbrev ModuleSource : Type := Source Program

/-- A module from a file: its script as a program. -/
def Descriptor.toSource (source : Descriptor) : ModuleSource :=
  source.mapBody (·.map .statement)

end Linkage
