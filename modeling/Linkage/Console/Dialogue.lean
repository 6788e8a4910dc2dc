import Linkage.Console.Command
import Linkage.Console.Printing
import Linkage.Session.Run
import Linkage.Text.Cluster

/-!
# The interactive console

Every line of input is a command, or a specifier that is imported.  What is written goes to the
output or to the error output.
-/

namespace Linkage.Console

/-- The version that is shown. -/
def versionText : String := "0.1.0"

/-- A session with what has been written so far. -/
structure Dialogue where
  /-- The session. -/
  session : Session
  /-- What went to the output. -/
  out : String
  /-- What went to the error output. -/
  err : String
deriving Inhabited

namespace Dialogue

/-- Write a line to the output. -/
def say (dialogue : Dialogue) (line : String) : Dialogue :=
  { dialogue with out := dialogue.out ++ line ++ "\n" }

/-- Write lines to the output. -/
def sayAll (dialogue : Dialogue) (lines : List String) : Dialogue :=
  lines.foldl say dialogue

/-- Write a line to the error output. -/
def complain (dialogue : Dialogue) (line : String) : Dialogue :=
  { dialogue with err := dialogue.err ++ line ++ "\n" }

/-- Write an error of the console itself. -/
def object (dialogue : Dialogue) (text : String) : Dialogue :=
  dialogue.complain (bold (red "Error") ++ ": " ++ text)

/-- Write a namespace with its names, or any other value. -/
def sayValue (dialogue : Dialogue) (value : Value) : Dialogue :=
  match value with
  | .space found =>
      let (text, store) := spaceText dialogue.session.store found
      { dialogue with session := dialogue.session.withStore store }.say text
  | other => dialogue.say (valueText dialogue.session.store.heap other)

/-- Write what a command gave. -/
def sayReply (write : Dialogue → Value → Dialogue) (dialogue : Dialogue) :
    Reply × Session → Dialogue
  | (.ok value, session) => write { dialogue with session } value
  | (.error error, session) => { dialogue with session }.complain (errorText error)

/-- Write a value in one piece, a namespace without its names. -/
def sayBriefly (dialogue : Dialogue) (value : Value) : Dialogue :=
  dialogue.say (valueText dialogue.session.store.heap value)

/-- Import a module and write its namespace. -/
def importModule (dialogue : Dialogue) (specifier : String) : Dialogue :=
  sayReply sayValue dialogue (dialogue.session.evaluate specifier none)

/-- Write the dependency graph of a module; false if there is none. -/
def sayGraph (dialogue : Dialogue) (specifier : String) : Bool × Dialogue :=
  match dialogue.session.attempt (Attempt.graphOf specifier) with
  | (.ok graph, session) =>
      (true, { dialogue with session }.sayAll (graphLines graph session.store))
  | (.error error, session) => (false, { dialogue with session }.complain (errorText error))

/-- What is written at the start. -/
def banner (baseDir : String) : List String :=
  ["",
    " ".intercalate
      [" ", bold (white "Spacey Module Linker"), dimmed "v", brightYellow versionText],
    " ".intercalate [" ", dimmed "base:", cyan baseDir],
    "",
    " ".intercalate [" ", dimmed "Type", cyan ".help", dimmed "for available commands"],
    ""]

/-- What the help command writes. -/
def helpLines : List String :=
  let row (name text : String) : String := "  " ++ name ++ " " ++ text
  let keys := [("Ctrl+C", "Cancel current input"), ("Ctrl+D", "Exit REPL"),
    ("Tab", "Complete commands and modules")]
  ["", bold (white "REPL Commands:"), ""] ++
    Command.listing.map (fun (name, text) => row (cyan (padRight 18 name)) (dimmed text)) ++
    ["", "  " ++ dimmed "Any other input is imported as a module specifier.", "",
      bold (white "Keyboard Shortcuts:"), ""] ++
    keys.map (fun (name, text) => row (yellow (padRight 18 name)) (dimmed text)) ++ [""]

/-- The entries of the configuration that are shown. -/
def configKeys : List String := ["base-dir", "extensions", "index-name", "default-format"]

/-- Show one entry of the configuration, or all. -/
def sayConfig (dialogue : Dialogue) (key? : Option String) : Dialogue :=
  let config := dialogue.session.engine.config
  match key? with
  | some key => match config.get? key with
    | some value => dialogue.say value
    | none => dialogue.object s!"unknown key '{cyan key}'"
  | none => dialogue.sayAll (configKeys.map (fun key =>
      s!"  {cyan (padRight 16 key)} {(config.get? key).getD default}"))

/-- List the modules with their statuses. -/
def sayStatus (dialogue : Dialogue) : Dialogue :=
  match dialogue.session.store.listed with
  | [] => dialogue.say (dimmed "No modules loaded")
  | modules => dialogue.sayAll (modules.map (fun listed =>
      s!"  {statusText listed.status} {dimmed (padRight 7 listed.format.name)} {listed.id.text}"))

/-- Carry out a command; false if it ends the dialogue. -/
def execute (dialogue : Dialogue) (command : Command) (argument? : Option String) :
    Bool × Dialogue :=
  match command, argument? with
  | .exit, _ => (false, dialogue)
  | .help, _ => (true, dialogue.sayAll helpLines)
  | .clear, _ => (true, { dialogue with out := dialogue.out ++ "\x1b[2J\x1b[H" })
  | .version, _ => (true, dialogue.sayAll
      [bold (brightCyan "spacey-link") ++ ": " ++ yellow versionText,
        dimmed "spacey-modules" ++ ": " ++ versionText])
  | .import_, some specifier => (true, dialogue.importModule specifier)
  | .require, some specifier =>
      (true, sayReply sayBriefly dialogue (dialogue.session.require specifier none))
  | .dynamic, some specifier =>
      (true, sayReply sayValue dialogue (dialogue.session.importOne specifier none))
  | .graph, some specifier => (true, (dialogue.sayGraph specifier).2)
  | .status, _ => (true, dialogue.sayStatus)
  | .reset, _ =>
      let session := dialogue.session
      (true, { dialogue with
        session := { session with engine := session.engine.reset } }.say
          (dimmed "Module store cleared"))
  | .config, key? => (true, dialogue.sayConfig key?)
  | command, none => (true, dialogue.object
      (cyan ("." ++ command.word) ++ " " ++ dimmed "requires a module specifier"))

/-- What a line of input asks for. -/
inductive Request where
  /-- Nothing. -/
  | nothing
  /-- A command. -/
  | command (command : Command) (argument? : Option String)
  /-- A module. -/
  | specifier (specifier : String)
  /-- Something that looks like a command but is none. -/
  | unknown (text : String)
deriving DecidableEq, Repr, Inhabited

/-- Tell what a line asks for: a command if there is one, else a specifier unless it begins with a
dot that is not followed by a slash. -/
def Request.ofLine (line : String) : Request :=
  let text := Text.trim line
  if text = "" then .nothing
  else match Command.parse? text with
    | some (found, argument?) => .command found argument?
    | none => match text.toList with
      | '.' :: '/' :: _ => .specifier text
      | '.' :: _ => .unknown text
      | _ => .specifier text

/-- Do what a line asks for; false if it ends the dialogue. -/
def takeLine (dialogue : Dialogue) (line : String) : Bool × Dialogue :=
  match Request.ofLine line with
  | .nothing => (true, dialogue)
  | .command command argument? => dialogue.execute command argument?
  | .specifier specifier => (true, dialogue.importModule specifier)
  | .unknown text => (true, dialogue.object s!"unknown command '{cyan text}'")

/-- Take lines until one ends the dialogue or the input ends. -/
def takeLines (dialogue : Dialogue) : List String → Dialogue
  | [] => dialogue.say (dimmed "^D")
  | line :: rest =>
      let (goesOn, dialogue) := dialogue.takeLine line
      if goesOn then dialogue.takeLines rest else dialogue

/-- Take a number of bytes off the end of characters that stand reversed. -/
def takeBack (count : Nat) : List Char → List Char
  | [] => []
  | c :: rest => if c.utf8Size ≤ count then takeBack (count - c.utf8Size) rest else c :: rest

/-- How many bytes a backspace takes back for a cluster: its size, which is kept in one byte. -/
def sizeTakenBack (cluster : List Char) : Nat :=
  cluster.foldl (fun size c => size + c.utf8Size) 0 % 256

/-- Take back the cluster before each backspace; characters taken stand reversed in `done`, and
`sizes` are what their clusters count for, last first. -/
def applyBackspaces (done : List Char) (sizes : List Nat) : List (List Char) → List Char
  | [] => done.reverse
  | ['\x08'] :: rest => applyBackspaces (takeBack (sizes.head?.getD 0) done) sizes.tail rest
  | cluster :: rest =>
      applyBackspaces (cluster.reverse ++ done) (sizeTakenBack cluster :: sizes) rest

/-- A line of input as it is meant. -/
def edited (line : List Char) : String :=
  String.ofList (applyBackspaces [] [] (Text.clusters line))

/-- The lines of an input; what stands behind the last line end is a line if it is not empty. -/
def inputLines (input : String) : List String :=
  let parts := Text.pieces '\n' input.toList
  let lines := if parts.getLast? = some [] then parts.dropLast else parts
  lines.map edited

/-- The whole dialogue over an input. -/
def run (session : Session) (input : String) : Dialogue :=
  let dialogue : Dialogue := ⟨session, "", ""⟩
  ((dialogue.sayAll (banner session.engine.config.baseDir)).takeLines (inputLines input)).say ""

end Dialogue

end Linkage.Console
