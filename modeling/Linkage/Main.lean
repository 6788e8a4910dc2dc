import Linkage.CommandLine

/-!
# The program

The outermost layer: it gathers what the command line needs to know and writes what it gives.  The
files are those below the current directory, the packages of the directories above it, and the files
that the options name.
-/

namespace Linkage.Main

/-- How deep directories may be nested. -/
def depthLimit : Nat := 64

/-- The tree below a directory; what cannot be read is left out. -/
def loadTree : Nat → String → IO FileTree
  | 0, _ => return .empty
  | depth + 1, path => do
      let directory ← IO.FS.realPath path
      let mut entries : List (String × FileTree) := []
      for entry in ← directory.readDir do
        try
          let tree ← if ← entry.path.isDir then loadTree depth entry.path.toString
            else FileTree.file <$> IO.FS.readBinFile entry.path
          entries := entries ++ [(entry.fileName, tree)]
        catch _ => continue
      return .dir entries

/-- Add a file to a tree under the place where it really is. -/
def addFile (tree : FileTree) (path : String) : IO FileTree := do
  try
    let place ← IO.FS.realPath path
    return tree.writeFile place.toString (← IO.FS.readBinFile place)
  catch _ => return tree

/-- Add a directory to a tree with all that is below it. -/
def addDirectory (tree : FileTree) (path : String) : IO FileTree := do
  try
    return tree.putAt (← loadTree depthLimit path) (FileTree.names path)
  catch _ => return tree

/-- The files that a program started in a directory with these arguments can see. -/
def gatherFiles (directory : String) (given : List String) : IO FileTree := do
  let mut tree : FileTree := .empty
  for above in (directoriesUp directory).drop 1 do
    tree ← addFile tree (joinPath above FileHost.packageFile)
    tree ← addDirectory tree (joinPath above FileHost.standardPackagesDir)
  tree ← addDirectory tree directory
  for path in given do
    tree ← addFile tree path
  return tree

/-- The environment variables that change the configuration, in order. -/
def gatherVariables : IO (List (String × String)) :=
  ["BASE_DIR", "DEFAULT_FORMAT", "EXTENSIONS", "INDEX_NAME"].filterMapM (fun key => do
    let name := Config.variableStem ++ key
    return (← IO.getEnv name).map (name, ·))

/-- The rest of the input. -/
partial def readAll (input : IO.FS.Stream) (sofar : String) : IO String := do
  let line ← input.getLine
  if line.isEmpty then return sofar else readAll input (sofar ++ line)

/-- Run the program in the current directory; gives the exit code. -/
def runHere (given : List String) : IO UInt32 := do
  let directory := (← IO.FS.realPath ".").toString
  let around : CommandLine.Surroundings :=
    ⟨← gatherFiles directory given, directory, ← gatherVariables, ""⟩
  let input ← if CommandLine.readsInput around given then readAll (← IO.getStdin) "" else pure ""
  let finished := CommandLine.run { around with input } given
  (← IO.getStdout).putStr finished.out
  (← IO.getStderr).putStr finished.err
  return finished.exit.toUInt32

end Linkage.Main

/-- The program. -/
def main (given : List String) : IO UInt32 :=
  Linkage.Main.runHere given
