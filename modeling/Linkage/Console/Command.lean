import Linkage.Text.LowerCase
import Linkage.Text.Blank

/-!
# Console commands

A line that begins with a dot and a known word is a command, with the rest of the line as its
argument.
-/

namespace Linkage.Console

/-- A command of the console. -/
inductive Command where
  /-- Say what there is. -/
  | help
  /-- Leave. -/
  | exit
  /-- Clear the screen. -/
  | clear
  /-- Say the version. -/
  | version
  /-- Link and evaluate a module. -/
  | import_
  /-- Load a module at once. -/
  | require
  /-- Import a module dynamically. -/
  | dynamic
  /-- Print a dependency graph. -/
  | graph
  /-- List the modules. -/
  | status
  /-- Forget the modules. -/
  | reset
  /-- Show the settings. -/
  | config
deriving DecidableEq, Repr, Inhabited

namespace Command

/-- The full word of a command. -/
def word : Command → String
  | help => "help"
  | exit => "exit"
  | clear => "clear"
  | version => "version"
  | import_ => "import"
  | require => "require"
  | dynamic => "dynamic"
  | graph => "graph"
  | status => "status"
  | reset => "reset"
  | config => "config"

/-- The command that a word means. -/
def ofWord? : String → Option Command
  | "help" | "h" | "?" => some help
  | "exit" | "quit" | "q" => some exit
  | "clear" | "cls" => some clear
  | "version" | "v" => some version
  | "import" | "i" => some import_
  | "require" | "r" => some require
  | "dynamic" | "d" => some dynamic
  | "graph" | "g" => some graph
  | "status" | "s" => some status
  | "reset" => some reset
  | "config" => some config
  | _ => none

/-- The command on a line, with its argument. -/
def parse? (line : String) : Option (Command × Option String) :=
  match (Text.trim line).toList with
  | '.' :: rest =>
      let (word, argument?) := Text.cutAtBlank (String.ofList rest)
      (ofWord? (Text.lowerCase word)).map (fun command =>
        (command, (argument?.map Text.trim).filter (· ≠ "")))
  | _ => none

/-- Whether a command needs a specifier as its argument. -/
def needsSpecifier : Command → Bool
  | import_ | require | dynamic | graph => true
  | _ => false

/-- How the commands are written, and what they do. -/
def listing : List (String × String) :=
  [(".help", "Show this help message"),
    (".exit", "Exit the REPL"),
    (".clear", "Clear the screen"),
    (".version", "Show version information"),
    (".import <spec>", "Link and evaluate a module, print its namespace"),
    (".require <spec>", "Load a module the way require() does"),
    (".dynamic <spec>", "Load a module through import()"),
    (".graph <spec>", "Print the dependency graph of a module"),
    (".status", "List known modules and their status"),
    (".reset", "Forget every loaded module"),
    (".config [key]", "Show engine configuration")]

/-- The commands as they are typed. -/
def names : List String :=
  listing.map (fun entry => (Text.cutAtBlank entry.1).1)

end Command

end Linkage.Console
