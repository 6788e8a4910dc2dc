import Linkage.Text.Pieces

/-!
# File trees

A tree of directories and files without links.  A path is walked component by component: each step
needs a directory to stand in, `..` goes to the directory above, and the root is above itself.
Reading tells apart what is missing, what is a directory, a file where a directory is needed, names
and paths that are too long, and bytes that are no text.
-/

namespace Linkage

/-- A file with its bytes, or a directory with its entries. -/
inductive FileTree where
  /-- A file. -/
  | file (content : ByteArray)
  /-- A directory. -/
  | dir (entries : List (String × FileTree))
deriving Inhabited

/-- Why a file cannot be read. -/
inductive FileFault where
  /-- Nothing has this path. -/
  | missing
  /-- The path names a directory. -/
  | isDirectory
  /-- The path leads through a file. -/
  | notDirectory
  /-- The path, or a name in it, is too long. -/
  | tooLong
  /-- The path holds the character that ends paths. -/
  | notPath
  /-- The bytes of the file are no text. -/
  | notText
deriving DecidableEq, Repr, Inhabited

/-- What is said about a fault. -/
def FileFault.message : FileFault → String
  | missing => "No such file or directory (os error 2)"
  | isDirectory => "Is a directory (os error 21)"
  | notDirectory => "Not a directory (os error 20)"
  | tooLong => "File name too long (os error 36)"
  | notPath => "file name contained an unexpected NUL byte"
  | notText => "stream did not contain valid UTF-8"

namespace FileTree

/-- The tree without files. -/
def empty : FileTree := .dir []

/-- The entry called `name`. -/
def child? (name : String) : List (String × FileTree) → Option FileTree
  | [] => none
  | (found, tree) :: rest => if found = name then some tree else child? name rest

/-- What stands at a list of names below a tree. -/
def descend? (tree : FileTree) : List String → Option FileTree
  | [] => some tree
  | name :: rest => match tree with
    | file _ => none
    | dir entries => (child? name entries).bind (fun below => below.descend? rest)

/-- The components of a path as they are written. -/
def steps (path : String) : List String :=
  (Text.pieces '/' path.toList).map String.ofList

/-- The most bytes that a name may have. -/
def nameLimit : Nat := 255

/-- The most bytes that a path may have. -/
def pathLimit : Nat := 4095

/-- Take one component from the directory reached, its names listed innermost first. -/
def walkStep (root : FileTree) (here : List String) (step : String) :
    Except FileFault (List String) :=
  match root.descend? here.reverse with
  | none => .error .missing
  | some (file _) => .error .notDirectory
  | some (dir entries) =>
      if step = "" ∨ step = "." then .ok here
      else if step = ".." then .ok here.tail
      else if nameLimit < step.utf8ByteSize then .error .tooLong
      else match child? step entries with
        | none => .error .missing
        | some _ => .ok (step :: here)

/-- What is wrong with a path itself. -/
def pathFault? (path : String) : Option FileFault :=
  if path.toList.contains '\x00' then some .notPath
  else if path = "" then some .missing
  else if pathLimit < path.utf8ByteSize then some .tooLong
  else none

/-- The names a path is written with, without those that stay in place. -/
def names (path : String) : List String :=
  (steps path).filter (fun step => step ≠ "" ∧ step ≠ ".")

/-- The names that a path leads through from the root, as seen from a directory unless it begins
there. -/
def walk (root : FileTree) (directory path : String) : Except FileFault (List String) := do
  if let some fault := pathFault? path then throw fault
  let start := if path.toList.head? = some '/' then [] else (names directory).reverse
  return (← (steps path).foldlM root.walkStep start).reverse

/-- What a path names, as seen from a directory unless it begins at the root. -/
def locate (root : FileTree) (directory path : String) : Except FileFault FileTree := do
  match root.descend? (← root.walk directory path) with
  | none => throw .missing
  | some found => return found

/-- Whether a path names a file. -/
def isFile (root : FileTree) (path : String) : Bool :=
  match root.locate "/" path with
  | .ok (file _) => true
  | _ => false

/-- Whether a path names a directory. -/
def isDirectory (root : FileTree) (path : String) : Bool :=
  match root.locate "/" path with
  | .ok (dir _) => true
  | _ => false

/-- The text of the file that a path names, as seen from a directory. -/
def readFrom (root : FileTree) (directory path : String) : Except FileFault String := do
  match ← root.locate directory path with
  | dir _ => throw .isDirectory
  | file content => match String.fromUTF8? content with
    | none => throw .notText
    | some text => return text

/-- The text of the file that a path names. -/
def read (root : FileTree) (path : String) : Except FileFault String :=
  root.readFrom "/" path

/-- Put a tree at a list of names, with the directories above it; a file in the way gives way. -/
def putAt (tree new : FileTree) : List String → FileTree
  | [] => new
  | name :: rest =>
      let entries := match tree with
        | file _ => []
        | dir entries => entries
      let below := (child? name entries).getD empty
      dir (entries.filter (·.1 ≠ name) ++ [(name, below.putAt new rest)])

/-- Remove what stands at a list of names. -/
def removeAt (tree : FileTree) : List String → FileTree
  | [] => tree
  | name :: rest => match tree with
    | file _ => tree
    | dir entries =>
        if rest.isEmpty then dir (entries.filter (·.1 ≠ name))
        else match child? name entries with
          | none => tree
          | some below =>
              dir (entries.filter (·.1 ≠ name) ++ [(name, below.removeAt rest)])

/-- Write a file, with the directories above it. -/
def writeFile (root : FileTree) (path : String) (content : ByteArray) : FileTree :=
  root.putAt (.file content) (names path)

/-- Make a directory, with those above it, unless it is there. -/
def makeDirectory (root : FileTree) (path : String) : FileTree :=
  if root.isDirectory path then root else root.putAt empty (names path)

/-- Remove the file that a path names, if it names one. -/
def remove (root : FileTree) (path : String) : FileTree :=
  match root.walk "/" path with
  | .error _ => root
  | .ok names => if root.isFile path then root.removeAt names else root

/-- How many files and directories there are. -/
def size : FileTree → Nat
  | file _ => 1
  | dir entries => entries.attach.foldr (fun ⟨(_, tree), _⟩ count => tree.size + count) 1
termination_by tree => sizeOf tree
decreasing_by
  have := List.sizeOf_lt_of_mem ‹_›
  simp only [Prod.mk.sizeOf_spec] at this
  simp only [dir.sizeOf_spec]
  omega

end FileTree

/-- A path seen from a directory: an absolute path stands for itself. -/
def joinPath (base path : String) : String :=
  if path.toList.head? = some '/' ∨ base = "" then path
  else if base.toList.getLast? = some '/' then base ++ path
  else base ++ "/" ++ path

/-- The path of the directory that is reached from the root through these names. -/
def directoryPath (names : List String) : String :=
  "/" ++ "/".intercalate names

/-- Climb to the root: the directories met on the way from the one with these names, which are listed
innermost first. -/
def climb : List String → List String
  | [] => [directoryPath []]
  | name :: above => directoryPath (name :: above).reverse :: climb above

/-- The directories from an absolute one up to the root. -/
def directoriesUp (dir : String) : List String :=
  climb (FileTree.names dir).reverse

end Linkage
