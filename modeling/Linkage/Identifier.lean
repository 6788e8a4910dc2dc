import Linkage.Text.Pieces

/-!
# Module identifiers

A module is named by an absolute path whose components are non-empty and different from `.` and
`..`.  `ModuleId.ofPath` brings any text into this form: a backslash counts as a slash, empty
components and `.` disappear, and `..` removes the component before it but never climbs above the
root.  A specifier is what a module writes to ask for another one; it is relative, absolute or bare.
-/

namespace Linkage

open Text (pieces)

/-- The canonical absolute path that names a module. -/
structure ModuleId where
  /-- The path as text. -/
  text : String
deriving DecidableEq, Repr, Inhabited

namespace ModuleId

/-- Follow one path component: the components walked so far, the last one first. -/
def follow (walked : List (List Char)) (component : List Char) : List (List Char) :=
  if component = [] ∨ component = ['.'] then walked
  else if component = ['.', '.'] then walked.tail
  else component :: walked

/-- The components a path leads through from the root once every `.`, `..` and repeated separator
is resolved. -/
def components (cs : List Char) : List (List Char) :=
  ((pieces '/' (cs.map (fun c => if c = '\\' then '/' else c))).foldl follow []).reverse

/-- The text of an absolute path with these components. -/
def pathText (parts : List (List Char)) : List Char :=
  '/' :: Text.join '/' parts

/-- The module that a path names, however it is spelt. -/
def ofPath (path : String) : ModuleId :=
  ⟨String.ofList (pathText (components path.toList))⟩

/-- The directory that holds the module: the path up to the last slash. -/
def dirname (id : ModuleId) : String :=
  match Text.beforeLast '/' id.text.toList with
  | none | some [] => "/"
  | some dir => String.ofList dir

/-- The last component of the path. -/
def filename (id : ModuleId) : String :=
  String.ofList (Text.afterLast '/' id.text.toList)

/-- The end of the filename from its last dot on; a dot in front of the name starts no
extension. -/
def extension? (id : ModuleId) : Option String :=
  let name := id.filename.toList
  match Text.beforeLast '.' name with
  | none | some [] => none
  | some stem => some (String.ofList (name.drop stem.length))

/-- The module whose path is this one with `suffix` written behind it. -/
def withSuffix (id : ModuleId) (suffix : String) : ModuleId :=
  ofPath (id.text ++ suffix)

end ModuleId

namespace Specifier

/-- Whether a specifier is meant relative to the module that writes it. -/
def isRelative (specifier : String) : Bool :=
  match specifier.toList with
  | ['.'] | ['.', '.'] | '.' :: '/' :: _ | '.' :: '.' :: '/' :: _ => true
  | _ => false

/-- Whether a specifier is an absolute path. -/
def isAbsolute (specifier : String) : Bool :=
  specifier.toList.head? = some '/'

/-- The module that `specifier` names as seen from the directory `base`. -/
def join (base specifier : String) : ModuleId :=
  if isAbsolute specifier then ModuleId.ofPath specifier
  else .ofPath (String.ofList (Text.dropTrailing '/' base.toList) ++ "/" ++ specifier)

end Specifier

namespace ModuleId

/-- The module that `specifier` names as seen from the directory of this one. -/
def joinRelative (id : ModuleId) (specifier : String) : ModuleId :=
  Specifier.join id.dirname specifier

/-- The module called `name` in the directory that this path names. -/
def child (id : ModuleId) (name : String) : ModuleId :=
  Specifier.join id.text name

end ModuleId

end Linkage
