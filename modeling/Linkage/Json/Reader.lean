import Linkage.Json.Token
import Linkage.Json.Written

/-!
# Reading JSON

The tokens of a text are folded into a written value with a stack of the arrays and objects that are
still open.  At most 127 of them may be open at once around a value that means something.
`Written.ofText?` is the whole reader.
-/

namespace Linkage.Json

/-- Why a text is no JSON value, or a JSON value is not of the expected shape. -/
inductive Fault where
  /-- The text breaks off or goes wrong; the place counts lines from one and columns from zero. -/
  | unreadable (line column : Nat)
  /-- A member that has to be there is missing. -/
  | missing (field : String)
  /-- A member stands twice. -/
  | repeated (field : String)
  /-- A value is asked for where one is written that means nothing. -/
  | meaningless
  /-- A value is of another kind than the one asked for. -/
  | mismatch (expected : String)
  /-- A value is read from a text and has a fault of shape. -/
  | within (fault : Fault) (line column : Nat)
deriving DecidableEq, Repr, Inhabited

/-- What is said about a fault. -/
def Fault.message : Fault → String
  | unreadable line column => s!"unexpected text at line {line} column {column}"
  | missing field => s!"missing field `{field}`"
  | repeated field => s!"duplicate field `{field}`"
  | meaningless => "value out of range"
  | mismatch expected => s!"invalid value, expected {expected}"
  | within fault line column => s!"{fault.message} at line {line} column {column}"

/-- The line and column reached behind these characters. -/
def place (cs : List Char) : Nat × Nat :=
  cs.foldl (fun at_ c => if c = '\n' then (at_.1 + 1, 0) else (at_.1, at_.2 + 1)) (1, 0)

/-- An array or object that is still open, its items reversed. -/
inductive Open where
  /-- An array. -/
  | array (items : List Written)
  /-- An object, with the key whose value is awaited. -/
  | object (members : List (Option String × Written)) (key : Option String)
deriving Inhabited

/-- What the reader waits for. -/
inductive Awaits where
  /-- A value. -/
  | value
  /-- A value or the end of an array just opened. -/
  | valueOrClose
  /-- A key or the end of an object just opened. -/
  | keyOrClose (members : List (Option String × Written))
  /-- A key behind a comma. -/
  | key (members : List (Option String × Written))
  /-- The colon behind a key. -/
  | colon (members : List (Option String × Written)) (key : Option String)
  /-- A comma or the end, behind a value; at the top nothing may follow. -/
  | next (value : Written)
deriving Inhabited

/-- The reader between two tokens. -/
structure Reading where
  /-- The open containers, innermost first. -/
  stack : List Open
  /-- What may come next. -/
  awaits : Awaits
deriving Inhabited

/-- How many containers may be open at once around a value that means something. -/
def depthLimit : Nat := 127

/-- Open a container. -/
def Reading.enter (r : Reading) (awaits : Awaits) (container : Open) : Reading :=
  ⟨container :: r.stack, awaits⟩

/-- Close the innermost container, which is `value`; it means nothing if too many stand around
it. -/
def Reading.leave (below : List Open) (value : Written) : Reading :=
  ⟨below, .next (if (below.drop (depthLimit - 1)).isEmpty then value else .meaningless)⟩

/-- Take one token; none if it may not stand here. -/
def Reading.take? (r : Reading) (token : Token) : Option Reading :=
  match r.awaits, token with
  | .value, .atom v? | .valueOrClose, .atom v? => some ⟨r.stack, .next (.ofAtom? v?)⟩
  | .value, .text s? | .valueOrClose, .text s? =>
      some ⟨r.stack, .next (.ofAtom? (s?.map .str))⟩
  | .value, .openArray | .valueOrClose, .openArray =>
      some (r.enter .valueOrClose (.array []))
  | .value, .openObject | .valueOrClose, .openObject =>
      some (r.enter (.keyOrClose []) (.object [] none))
  | .valueOrClose, .closeArray => match r.stack with
      | .array [] :: below => some (.leave below (.arr []))
      | _ => none
  | .keyOrClose _, .closeObject => match r.stack with
      | .object _ _ :: below => some (.leave below (.obj []))
      | _ => none
  | .keyOrClose members, .text key | .key members, .text key =>
      some ⟨r.stack, .colon members key⟩
  | .colon members key, .colon => match r.stack with
      | .object _ _ :: below => some ⟨.object members key :: below, .value⟩
      | _ => none
  | .next v, .comma => match r.stack with
      | .array items :: below => some ⟨.array (v :: items) :: below, .value⟩
      | .object members key :: below =>
          some ⟨.object [] none :: below, .key ((key, v) :: members)⟩
      | [] => none
  | .next v, .closeArray => match r.stack with
      | .array items :: below => some (.leave below (.arr (v :: items).reverse))
      | _ => none
  | .next v, .closeObject => match r.stack with
      | .object members key :: below =>
          some (.leave below (.obj ((key, v) :: members).reverse))
      | _ => none
  | _, _ => none

/-- The value that a list of tokens spells. -/
def Written.ofTokens? (tokens : List Token) : Option Written :=
  match tokens.foldlM Reading.take? ⟨[], .value⟩ with
  | some ⟨[], .next v⟩ => some v
  | _ => none

/-- The value that a text spells, its members as they stand. -/
def Written.ofText? (text : String) : Except Fault Written :=
  let cs := text.toList
  let fault (rest : Nat) : Fault :=
    let reached := place (cs.take (cs.length - rest))
    .unreadable reached.1 reached.2
  match Token.read cs with
  | .error rest => .error (fault rest.length)
  | .ok tokens => match ofTokens? tokens with
    | none => .error (fault 0)
    | some v => .ok v

end Linkage.Json
