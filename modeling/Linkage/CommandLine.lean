import Linkage.Console.Dialogue

/-!
# The command line

The program loads an entry module and prints its exports, or talks with the user if there is no
entry or if it is told to.  Everything it does is a function of its arguments, its environment, the
files, and its input.
-/

namespace Linkage

/-- The arguments of the program. -/
structure Arguments where
  /-- The specifier of the entry. -/
  start? : Option String
  /-- A manifest to take modules from. -/
  manifest? : Option String
  /-- A configuration file. -/
  config? : Option String
  /-- Load the entry the way `require` does. -/
  require : Bool
  /-- Import the entry dynamically. -/
  dynamic : Bool
  /-- Print the dependency graph first. -/
  graph : Bool
  /-- Talk with the user. -/
  interactive : Bool
deriving DecidableEq, Repr, Inhabited

namespace Arguments

/-- No arguments. -/
def none_ : Arguments := ⟨none, none, none, false, false, false, false⟩

/-- Take a switch by its letter. -/
def switch? (arguments : Arguments) : Char → Option Arguments
  | 'r' => if arguments.require then none else some { arguments with require := true }
  | 'd' => if arguments.dynamic then none else some { arguments with dynamic := true }
  | 'g' => if arguments.graph then none else some { arguments with graph := true }
  | 'i' => if arguments.interactive then none else some { arguments with interactive := true }
  | _ => none

/-- Take an option by its letter, with its value. -/
def option? (arguments : Arguments) (letter : Char) (value : String) : Option Arguments :=
  match letter with
  | 'm' => if arguments.manifest?.isSome then none
      else some { arguments with manifest? := some value }
  | 'c' => if arguments.config?.isSome then none
      else some { arguments with config? := some value }
  | _ => none

/-- Take the entry. -/
def positional? (arguments : Arguments) (value : String) : Option Arguments :=
  if arguments.start?.isSome then none else some { arguments with start? := some value }

/-- The letter that a long name stands for. -/
def letterOf? : String → Option Char
  | "manifest" => some 'm'
  | "config" => some 'c'
  | "require" => some 'r'
  | "dynamic" => some 'd'
  | "graph" => some 'g'
  | "interactive" | "repl" => some 'i'
  | _ => none

/-- Whether a letter needs a value. -/
def takesValue (letter : Char) : Bool := letter = 'm' || letter = 'c'

/-- What follows when an argument has been taken. -/
inductive Next where
  /-- Any argument. -/
  | any
  /-- The value of an option. -/
  | value (letter : Char)
  /-- Only the entry. -/
  | entryOnly
deriving DecidableEq, Repr, Inhabited

/-- Take letters written together: switches, and at the end perhaps an option with its value. -/
def takeLetters (arguments : Arguments) : List Char → Option (Arguments × Next)
  | [] => some (arguments, .any)
  | letter :: rest =>
      if takesValue letter then
        match rest with
        | [] => some (arguments, .value letter)
        | '=' :: value | value =>
            (arguments.option? letter (String.ofList value)).map (·, .any)
      else do
        let arguments ← arguments.switch? letter
        arguments.takeLetters rest

/-- Take a long option, behind its two hyphens. -/
def takeLong (arguments : Arguments) (text : List Char) : Option (Arguments × Next) := do
  let name := String.ofList (text.takeWhile (· ≠ '='))
  let value? := (text.dropWhile (· ≠ '=')).tail?
  if name = "verbose" then
    if value?.isSome then none else return (arguments, .any)
  else
    let letter ← letterOf? name
    match takesValue letter, value? with
    | true, none => return (arguments, .value letter)
    | true, some value => return (← arguments.option? letter (String.ofList value), .any)
    | false, none => return (← arguments.switch? letter, .any)
    | false, some _ => none

/-- Take one argument. -/
def take (state : Arguments × Next) (argument : String) : Option (Arguments × Next) :=
  let (arguments, next) := state
  match next, argument.toList with
  | .value letter, _ => (arguments.option? letter argument).map (·, .any)
  | .entryOnly, _ => (arguments.positional? argument).map (·, .entryOnly)
  | .any, ['-', '-'] => some (arguments, .entryOnly)
  | .any, '-' :: '-' :: text => arguments.takeLong text
  | .any, '-' :: letter :: letters => arguments.takeLetters (letter :: letters)
  | .any, _ => (arguments.positional? argument).map (·, .any)

/-- Read the arguments; none if they make no sense. -/
def ofList? (given : List String) : Option Arguments := do
  let (arguments, next) ← given.foldlM take (none_, .any)
  match next with
  | .value _ => none
  | _ => if arguments.require && arguments.dynamic then none else return arguments

end Arguments

/-- What the program leaves behind. -/
structure Finished where
  /-- The exit code. -/
  exit : Nat
  /-- What went to the output. -/
  out : String
  /-- What went to the error output. -/
  err : String
deriving DecidableEq, Repr, Inhabited

namespace CommandLine

open Console (Dialogue)

/-- Where the program runs. -/
structure Surroundings where
  /-- The files. -/
  tree : FileTree
  /-- The current directory. -/
  directory : String
  /-- The environment variables, in order. -/
  environment : List (String × String)
  /-- The input. -/
  input : String
deriving Inhabited

/-- Read a file named on the command line. -/
def Surroundings.read (around : Surroundings) (path : String) : Except ModuleError String :=
  (around.tree.readFrom around.directory path).mapError (fun fault => .io fault.message)

/-- An error that ends the program before it has begun: what was being done, and why it failed. -/
structure Trouble where
  /-- What was being done. -/
  context : String
  /-- Why it failed. -/
  cause : ModuleError

/-- What is written about it. -/
def Trouble.text (trouble : Trouble) : String :=
  let cause := "\n    ".intercalate
    ((Text.pieces '\n' trouble.cause.message.toList).map String.ofList)
  s!"Error: {trouble.context}\n\nCaused by:\n    {cause}\n"

/-- The configuration: standard, then the file, then the environment. -/
def loadConfig (around : Surroundings) (path? : Option String) : Except ModuleError Config := do
  let config ← match path? with
    | none => pure Config.standard
    | some path => Config.standard.changedBy (Config.mergeFile (around.read path))
  return (config.loadVariables around.environment).1

/-- Read a manifest file. -/
def loadManifest (around : Surroundings) (path : String) : Except ModuleError Manifest := do
  match Json.readAs Manifest.ofJson (← around.read path) with
  | .ok manifest => return manifest
  | .error fault => throw (.json fault.message)

/-- The session to work with, over a manifest or the current directory, and the entry that the
manifest names. -/
def openSession (around : Surroundings) (arguments : Arguments) :
    Except Trouble (Session × Option String) := do
  let config ← (loadConfig around arguments.config?).mapError
    (Trouble.mk "failed to load configuration")
  match arguments.manifest? with
  | some path =>
      let manifest ← (loadManifest around path).mapError
        (Trouble.mk s!"failed to read manifest '{path}'")
      return (.new (.shelf (.ofManifest manifest)) config, manifest.start?)
  | none =>
      let config := if config.baseDir = Config.standard.baseDir then
          { config with baseDir := around.directory }
        else config
      let files : FileHost := ⟨around.tree, around.directory, FileHost.standardPackagesDir⟩
      return (.new (.files files) config, none)

/-- Load the entry and write its exports. -/
def runEntry (session : Session) (entry : String) (arguments : Arguments) : Finished :=
  let start : Dialogue := ⟨session, "", ""⟩
  let (drawn, dialogue) := if arguments.graph then start.sayGraph entry else (true, start)
  if !drawn then ⟨1, dialogue.out, dialogue.err⟩
  else
    let result := if arguments.require then dialogue.session.require entry none
      else if arguments.dynamic then dialogue.session.importOne entry none
      else dialogue.session.evaluate entry none
    let write := if arguments.require then Dialogue.sayBriefly else Dialogue.sayValue
    let written := Dialogue.sayReply write dialogue result
    match result.1 with
    | .ok _ => ⟨0, written.out, written.err⟩
    | .error _ =>
        let ended := written.complain
          ("  " ++ Console.dimmed "while loading" ++ " " ++ Console.cyan entry)
        ⟨1, ended.out, ended.err⟩

/-- Whether the program reads its input: it does if it talks with the user. -/
def readsInput (around : Surroundings) (given : List String) : Bool :=
  match Arguments.ofList? given with
  | none => false
  | some arguments => match openSession around arguments with
    | .error _ => false
    | .ok (_, named?) => arguments.interactive || (arguments.start?.or named?).isNone

/-- Run the program. -/
def run (around : Surroundings) (given : List String) : Finished :=
  match Arguments.ofList? given with
  | none => ⟨2, "", "error: unexpected arguments\n"⟩
  | some arguments => match openSession around arguments with
    | .error trouble => ⟨1, "", trouble.text⟩
    | .ok (session, named?) =>
        match arguments.start?.or named?, arguments.interactive with
        | some entry, false => runEntry session entry arguments
        | _, _ =>
            let dialogue := Dialogue.run session around.input
            ⟨0, dialogue.out, dialogue.err⟩

end CommandLine

end Linkage
