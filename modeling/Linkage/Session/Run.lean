import Linkage.Session.Machine

/-!
# Giving commands to a session

`Session.evaluate`, `Session.require` and `Session.importTogether` are the ways in that run bodies:
the first two run the machine to the end, the last ends only when no pipeline of a dynamic import is
left.  `Session.give` answers any command from outside with them.
-/

namespace Linkage.Session

/-- How many steps the machine may take for one command.  Without a body that resets the engine far
fewer are taken; such a body can ask for itself for ever. -/
def stepLimit : Nat := Nat.pow 2 40

/-- Run the machine to the end.  A machine that does not come to an end fails. -/
def complete (machine : Machine) : Reply × Session :=
  let ended := machine.run stepLimit
  (ended.reply?.getD (.error (.aborted "too many steps")), ended.session)

/-- Load, link and evaluate what a specifier names, and give its namespace. -/
def evaluate (session : Session) (specifier : String) (referrer? : Option ModuleId) :
    Reply × Session :=
  complete (Machine.enterEvaluate session [] specifier referrer?)

/-- Load what a specifier names the way `require` does. -/
def require (session : Session) (specifier : String) (referrer? : Option ModuleId) :
    Reply × Session :=
  complete (Machine.enterRequire session [] specifier referrer?)

/-- Let every pipeline finish. -/
def drain (session : Session) : Session :=
  (complete ⟨session, [.drain], .go⟩).2

/-- Begin several dynamic imports in order. -/
def beginImports (session : Session) (requests : List (String × Option ModuleId)) : Session :=
  requests.foldl (fun session (specifier, referrer?) =>
    let (waiter, engine) := session.engine.beginImport specifier referrer?
    { session with engine, waiters := session.waiters ++ [waiter] }) session

/-- Begin several dynamic imports together, let all finish, and give their results. -/
def importTogether (session : Session) (requests : List (String × Option ModuleId)) :
    List Reply × Session :=
  let session := (session.beginImports requests).drain
  (session.waiters.map (fun waiter => match waiter.wait with
    | .over result => result.map .space
    | _ => .error (.aborted "too many steps")), { session with waiters := [] })

/-- Import one module dynamically and wait for it. -/
def importOne (session : Session) (specifier : String) (referrer? : Option ModuleId) :
    Reply × Session :=
  let (results, session) := session.importTogether [(specifier, referrer?)]
  (results.headD (.error (.aborted "too many steps")), session)

/-- Show results one after the other, and keep each that succeeded in the place of the one
before. -/
def answerAll (session : Session) (save? : Option String) (replies : List Reply) :
    List Answer × Session :=
  replies.foldl (fun (answers, session) reply =>
    let (answer, session) := session.answerReply save? reply
    (answers ++ [answer], session)) ([], session)

/-- Answer a command from outside, and keep the value it gives if a name is said. -/
def give (session : Session) (command : Command) (save? : Option String) : Answer × Session :=
  match command with
  | .evaluate specifier referrer? =>
      let (reply, session) := session.evaluate specifier referrer?
      session.answerReply save? reply
  | .require specifier referrer? =>
      let (reply, session) := session.require specifier referrer?
      session.answerValue save? reply
  | .importNow specifier referrer? =>
      let (reply, session) := session.importOne specifier referrer?
      session.answerReply save? reply
  | .importAll requests =>
      let (replies, session) := session.importTogether requests
      let (answers, session) := session.answerAll save? replies
      (.several answers session.engine.imports.pending, session)
  | .drive =>
      let session := session.drain
      (.count session.engine.imports.pending, session)
  | .await name => match session.futures.find? name with
    | none => (.refused "no such future", session)
    | some future =>
        let session := { session with futures := session.futures.erase name }
        let (reply, session) := session.importOne future.specifier (some future.requester)
        session.answerReply save? reply
  | .startImport specifier referrer? => session.startImport specifier referrer?
  | .inspectHost id bare? referrer? true =>
      let (answer, session) := session.inspectHost id bare? referrer? true
      (answer, session.drain)
  | _ => session.answer command save?

/-- The events noted so far, and the session without them. -/
def takeEvents (session : Session) : List Event × Session :=
  (session.events.toList, { session with events := #[] })

end Linkage.Session
