import Linkage.Console.Assistant
import Linkage.Engine.Importing
import Linkage.Host.Files
import Linkage.Host.Shelf
import Linkage.Session.Answer
import Linkage.Store.Linking
import Linkage.Store.Scope

/-!
# Sessions

A session is an engine together with the place its modules come from, the values, live bindings and
dynamic imports that are kept under names, and the events noted so far.  Most commands are answered
here at once; those that run bodies are the matter of the machine.
-/

namespace Linkage

/-- Where the modules of a session come from. -/
inductive Place where
  /-- From memory. -/
  | shelf (modules : Shelf)
  /-- From files. -/
  | files (host : FileHost)
deriving Inhabited

/-- The host of a place. -/
def Place.toHost : Place → Host
  | shelf found => found.toHost
  | files found => found.toHost

/-- A dynamic import that is kept but not started. -/
structure Future where
  /-- What is asked for. -/
  specifier : String
  /-- Who asks. -/
  requester : ModuleId
deriving DecidableEq, Repr, Inhabited

/-- An engine with everything around it. -/
structure Session where
  /-- The engine. -/
  engine : Engine
  /-- Where its modules come from. -/
  place : Place
  /-- The kept values. -/
  slots : Table Value
  /-- The kept live bindings. -/
  lives : Table LiveBinding
  /-- The kept dynamic imports. -/
  futures : Table Future
  /-- The dynamic imports that are waited for. -/
  waiters : List Waiter
  /-- The events noted so far, in order. -/
  events : Array Event
deriving Inhabited

namespace Session

/-- A new session. -/
def new (place : Place) (config : Config) : Session :=
  ⟨.new place.toHost config, place, {}, {}, {}, [], #[]⟩

/-- Note an event. -/
def note (session : Session) (event : Event) : Session :=
  { session with events := session.events.push event }

/-- The modules. -/
def store (session : Session) : Store := session.engine.store

/-- Put back a changed store. -/
def withStore (session : Session) (store : Store) : Session :=
  { session with engine := { session.engine with store } }

/-- Run an access on the modules. -/
def access {α : Type} (session : Session) (action : Access α) :
    Except ModuleError α × Session :=
  let (result, store) := session.store.access action
  (result, session.withStore store)

/-- Run an attempt on the engine. -/
def attempt {α : Type} (session : Session) (action : Attempt α) :
    Except ModuleError α × Session :=
  let (result, engine) := session.engine.attempt action
  (result, { session with engine })

/-- Take modules from a changed place. -/
def withPlace (session : Session) (place : Place) : Session :=
  { session with place, engine := { session.engine with host := place.toHost } }

/-- Keep a value under a name. -/
def keep (session : Session) (save? : Option String) (value : Value) : Session :=
  match save? with
  | some slot => { session with slots := session.slots.insert slot value }
  | none => session

/-- The value kept under a name. -/
def kept (session : Session) (slot : String) : Value :=
  (session.slots.find? slot).getD .undefined

/-- The value that a literal means. -/
def evaluateLiteral (session : Session) : Literal → Value × Session
  | .json value =>
      let (value, heap) := Value.ofJson value session.store.heap
      (value, session.withStore { session.store with heap })
  | .undefined => (.undefined, session)
  | .number value => (.number value, session)
  | .kept slot => (session.kept slot, session)

/-- Answer with a value, and keep it. -/
def answerValue (session : Session) (save? : Option String) :
    Except ModuleError Value → Answer × Session
  | .ok value => (.value (session.store.heap.picture value), session.keep save? value)
  | .error error => (.failed error, session)

/-- Answer with a value and keep it; a namespace is shown with its names. -/
def answerReply (session : Session) (save? : Option String) :
    Except ModuleError Value → Answer × Session
  | .ok (.space found) =>
      let (shown, store) := session.store.showSpace found
      (.space shown, (session.withStore store).keep save? (.space found))
  | result => session.answerValue save? result

/-- Show a kept namespace from all sides. -/
def viewSpace (session : Session) (found : Namespace) (names : List String) : Answer × Session :=
  let store := session.store
  let keys := store.keysOf found
  let (entries, store) := store.showEntries found
  let contains := names.map (store.showsName found)
  let (json, store) := store.spaceToJson found
  let (pretty, store) := Console.spaceText store found
  (.view keys entries contains (json.map Json.compact) pretty, session.withStore store)

/-- Look at an object, and set a property first if a value is given. -/
def inspectObject (session : Session) (ref : ObjectRef) (key : String) (value? : Option Literal) :
    Answer × Session :=
  let session := match value? with
    | none => session
    | some literal =>
        let (value, session) := session.evaluateLiteral literal
        let store := session.store
        session.withStore { store with heap := store.heap.set ref key value }
  let heap := session.store.heap
  let properties := heap.properties ref
  (.object ((properties.find? key).map heap.picture) (properties.contains key) properties.keys,
    session)

/-- Ask the host about a module, and let it fetch the source if that is wanted. -/
def inspectHost (session : Session) (id : ModuleId) (bare? : Option String)
    (referrer? : Option ModuleId) (fetch : Bool) : Answer × Session :=
  let host := session.engine.host
  let counted (given : Except ModuleError ModuleSource) : Nat := if given.toBool then 1 else 0
  let loaded := host.load id
  let fetched? := if fetch then some (host.fetch id) else none
  let loads := session.engine.loads + counted loaded + ((fetched?.map counted).getD 0)
  (.host (host.holds id) (host.formatHint id) loaded
      (bare?.map (fun bare => host.resolveBare bare referrer?)) fetched?,
    { session with engine := { session.engine with loads } })

/-- Start a dynamic import and turn to something else. -/
def startImport (session : Session) (specifier : String) (referrer? : Option ModuleId) :
    Answer × Session :=
  let (waiter, engine) := session.engine.beginImport specifier referrer?
  let error? := match waiter.wait with
    | .over (.error error) => some error
    | _ => none
  (.started error? engine.imports.pending, { session with engine })

/-- How many sources have been given from memory. -/
def loadCount (session : Session) : Nat :=
  match session.place with
  | .shelf _ => session.engine.loads
  | .files _ => 0

/-- Answer a command that a body gives.  Inside a body nothing is waited for: no import is started
and nothing is fetched. -/
def answer (session : Session) (command : Command) (save? : Option String) : Answer × Session :=
  match command with
  | .resolve specifier referrer? =>
      let (result, session) := session.attempt (Attempt.resolve specifier referrer?)
      (match result with
        | .ok resolved => .resolved resolved
        | .error error => .failed error, session)
  | .graph specifier queries =>
      let (result, session) := session.attempt (Attempt.graphOf specifier)
      (match result with
        | .ok graph => .graph graph queries
        | .error error => .failed error, session)
  | .pending => (.count session.engine.imports.pending, session)
  | .status id => (.status ((session.store.find? id).map (·.status)), session)
  | .record id =>
      (.record (match session.store.lookup? id, session.store.find? id with
        | some ref, some record => some (session.store.showRecord ref record)
        | _, _ => none), session)
  | .listing => (.listing session.store.listed, session)
  | .space id requester? =>
      let (result, store) := session.store.namespace_ id requester?
      (session.withStore store).answerReply save? (result.map .space)
  | .readExport slot name => match session.kept slot with
    | .space found =>
        let (result, store) := session.store.readName found name
        (session.withStore store).answerValue save? result
    | _ => (.refused "not a namespace", session)
  | .viewSpace slot names => match session.kept slot with
    | .space found => session.viewSpace found names
    | _ => (.refused "not a namespace", session)
  | .describe slot => (.description (.of session.store.heap (session.kept slot)), session)
  | .put literal =>
      let (value, session) := session.evaluateLiteral literal
      session.answerValue save? (.ok value)
  | .compare a b => (.truth ((session.kept a).same (session.kept b)), session)
  | .inspectObject slot key value? => match session.kept slot with
    | .object ref => session.inspectObject ref key value?
    | _ => (.refused "not an object", session)
  | .readLive live => match session.lives.find? live with
    | none => (.refused "no such binding", session)
    | some live =>
        let (result, session) := session.access live.read
        session.answerValue save? result
  | .writeLive live literal => match session.lives.find? live with
    | none => (.refused "no such binding", session)
    | some live =>
        let (value, session) := session.evaluateLiteral literal
        let (result, session) := session.access (live.write value)
        (match result with
          | .ok () => .done
          | .error error => .failed error, session)
  | .insert path source => match session.place with
    | .shelf shelf => (.done, session.withPlace (.shelf (shelf.insert path source)))
    | .files _ => (.done, session)
  | .alias specifier path => match session.place with
    | .shelf shelf => (.done, session.withPlace (.shelf (shelf.alias_ specifier path)))
    | .files _ => (.done, session)
  | .write written => match session.place with
    | .files files =>
        let tree := written.foldl (fun tree entry => tree.writeFile entry.1 entry.2) files.tree
        (.done, session.withPlace (.files { files with tree }))
    | .shelf _ => (.done, session)
  | .remove path => match session.place with
    | .files files =>
        (.done, session.withPlace (.files { files with tree := files.tree.remove path }))
    | .shelf _ => (.done, session)
  | .inspectHost id bare? referrer? _ => session.inspectHost id bare? referrer? false
  | .loadCount => (.count session.loadCount, session)
  | .reset => (.count 0, { session with engine := session.engine.reset })
  | .assist line cursor? =>
      let cursor := cursor?.getD line.utf8ByteSize
      (.assistance cursor (Console.complete? line cursor session.store.ids)
        (Console.hint? line cursor) (Console.highlight line), session)
  | .importNow _ _ | .importAll _ | .startImport _ _ => (.refused "import inside a body", session)
  | .drive => (.refused "drive inside a body", session)
  | .await _ => (.refused "await inside a body", session)
  | .evaluate _ _ | .require _ _ => (.refused "evaluation is no plain command", session)

end Session

end Linkage
