import Linkage.Proofs.Alike.Learning
import Linkage.Proofs.Anchoring.Machines
import Linkage.Proofs.Runs.Concluding
import Linkage.Proofs.Runs.Ending
import Linkage.Proofs.Runs.Prefetching

/-!
# To import a module and wait is to evaluate it

A dynamic import fetches the sources of all modules before it builds their graph, level by level and
in another order than the graph is built in.  Over a host that fetches what it loads this changes
nothing but the numbers of records and exports values: the graph that is built and linked then is the
same, so the same bodies begin in the same order.

* `Session.AtRest`, `Machine.atRest_perform` : what holds of a session between calls.
* `Session.Agreed` : what a call and an import have in common.
* `Machine.coincides_passing` : the two runs of one graph.
* `Session.Finishes`, `Machine.finishes_of_confines` : that a call and an import come to an end.
* `Machine.import_agrees_with_evaluate` : from every such state.
-/

namespace Linkage

/-! ## Between calls -/

/-- What holds of an engine in every state of a run over one host. -/
structure Engine.Proper (config : Config) (host : Host) (engine : Engine) : Prop where
  regular : engine.store.Regular
  housed : engine.Housed config host
  studied : engine.Studied
  distinct : engine.resolver.Distinct
  anchored : engine.store.Anchored engine.store.extent

namespace Engine.Proper

variable {config : Config} {host : Host} {engine : Engine} (hproper : engine.Proper config host)
include hproper

theorem upright : engine.store.Upright :=
  ⟨hproper.regular.living.named, hproper.regular.current⟩

/-- Dynamic imports do not matter. -/
theorem fetching (root : ModuleId) : (Machine.fetching engine root).Proper config host where
  regular := hproper.regular
  housed := hproper.housed.knowsSame (.of_imports engine _)
  studied := hproper.studied.knowsSame (.of_imports engine _)
  distinct := hproper.distinct
  anchored := hproper.anchored

/-- An attempt that keeps each of these facts. -/
theorem after {α : Type} {action : Attempt α} (hquiet : action.Quiet)
    (hhoused : Attempt.Keeps (Housed config host) action) (hstudied : Attempt.Keeps Studied action)
    (hdistinct : Attempt.Keeps (fun engine => engine.resolver.Distinct) action)
    (hanchors : action.Anchors) : (engine.attempt action).2.Proper config host where
  regular := (Chain.of_touches (hquiet.touches engine)).regular hproper.regular
  housed := hhoused.after hproper.housed
  studied := hstudied.after hproper.studied
  distinct := hdistinct.after hproper.distinct
  anchored := ((hanchors _).after hproper.anchored).self

theorem register (specifier : String) (referrer? : Option ModuleId) :
    (engine.attempt (Attempt.resolveAndRegister specifier referrer?)).2.Proper config host :=
  hproper.after (Attempt.quiet_resolveAndRegister specifier referrer?)
    ((upheldAhead_housed config host).register specifier referrer?)
    (upheldAlways_studied.register specifier referrer?)
    (upheldAlways_distinct.register specifier referrer?)
    (Attempt.anchors_resolveAndRegister specifier referrer?)

theorem prefetch (root : ModuleId) :
    (engine.attempt (Attempt.prefetch root)).2.Proper config host :=
  hproper.after (Attempt.quiet_prefetch root) ((upheldAhead_housed config host).prefetch root)
    (upheldAlways_studied.prefetch root) (upheldAlways_distinct.prefetch root)
    (Attempt.anchors_prefetch root)

theorem buildGraph (root : ModuleId) :
    (engine.attempt (Attempt.buildGraph root)).2.Proper config host :=
  hproper.after (Attempt.quiet_buildGraph root)
    ((upheldAhead_housed config host).toTaught.keeps_buildGraph root)
    (upheldAlways_studied.toTaught.keeps_buildGraph root)
    (upheldAlways_distinct.toTaught.keeps_buildGraph root)
    (fun least => (Attempt.taughtAhead_anchored least).toTaught.keeps_buildGraph root)

end Engine.Proper

/-- What holds of a session over one host while nothing runs and no dynamic import is under way. -/
structure Session.AtRest (config : Config) (host : Host) (session : Session) : Prop where
  proper : session.engine.Proper config host
  rests : session.store.Rests
  anchored : session.Anchored session.store.extent
  unawaited : Machine.Unawaited session

namespace Machine

/-- **Between the calls of every run** in which answers are made of the replies given, no work is given
up and all modules come from one host. -/
theorem atRest_perform (place : Place) (config : Config) {host : Host} (hsteady : host.Steady)
    {acts : List Act} (hkeeps : ∀ act ∈ acts, act.KeepsHost) (habandon : .abandon ∉ acts)
    (hrelays : (new place config).Relays (.rehost host :: acts))
    (hdone : ((new place config).perform (.rehost host :: acts)).isDone = true)
    (hpending : ((new place config).perform
      (.rehost host :: acts)).session.engine.imports.pending = 0)
    (hwaiters : ((new place config).perform (.rehost host :: acts)).session.waiters = []) :
    ((new place config).perform (.rehost host :: acts)).session.AtRest config host := by
  have habandon' : .abandon ∉ .rehost host :: acts := by
    rw [List.mem_cons, not_or]
    exact ⟨nofun, habandon⟩
  have hhoused : ((new place config).perform (.rehost host :: acts)).session.engine.Housed config host :=
    ((upholds_rehost place config host).perform (Engine.allows_housed config hsteady) hkeeps).engine
  have hstudied : ((new place config).perform (.rehost host :: acts)).session.engine.Studied :=
    Engine.upheldAlways_studied.perform (Engine.studied_new place.toHost config) (.rehost host :: acts)
  have hnone : (new place config).session.engine.resolver.Distinct := List.nodup_nil
  have hdistinct :
      ((new place config).perform (.rehost host :: acts)).session.engine.resolver.Distinct :=
    Engine.upheldAlways_distinct.perform hnone (.rehost host :: acts)
  have hregular := regular_perform place config (.rehost host :: acts)
  have hattends := attends_perform place config habandon'
  have hanchored := anchored_perform (anchored_new place config) hrelays
  have htracks := (tracked_perform place config habandon').of_isDone hdone
  generalize (new place config).perform (.rehost host :: acts) = machine at *
  have hstack : machine.stack = [] := List.isEmpty_iff.mp hdone
  have hqueue := htracks.eq_nil hpending
  have hrests : machine.session.store.Rests :=
    hattends.rests (by simp [running, stage, Session.stage, hstack]) (by simp [due, hstack])
  exact ⟨⟨hregular, hhoused, hstudied, hdistinct, hanchored.session.store.self⟩, hrests,
    hanchored.session.self, hqueue ▸ htracks, hqueue, hwaiters⟩

end Machine

/-! ## What a call and an import have in common -/

namespace Session

/-- The graph of what a specifier names cannot be built. -/
def GraphFails (session : Session) (specifier : String) (referrer? : Option ModuleId) : Prop :=
  ∃ resolved ref engine error, session.engine.attempt
      (Attempt.resolveAndRegister specifier referrer?) = (.ok (resolved, ref), engine) ∧
    (engine.attempt (Attempt.buildGraph resolved.id)).1 = .error error

/-- What a call of `evaluate` and a dynamic import have come to, each with these modules and these bodies
begun.  Both have succeeded or neither has, with the bodies of the same modules begun in the same order.
If both have succeeded they have given the namespace of the same module, made for whoever asked.  Unless
the graph cannot be built they have failed with the same error, and all modules have come as far and show
the same errors. -/
structure Agreed (session : Session) (specifier : String) (referrer? : Option ModuleId)
    (final : Store) (begun : List RecordRef) (reply : Reply)
    (final' : Store) (begun' : List RecordRef) (reply' : Reply) : Prop where
  owners : final.owners begun = final'.owners begun'
  succeeds : reply.isOk = reply'.isOk
  given : ∀ value, reply = .ok value → ∃ resolved found found',
    (session.attempt (Attempt.resolve specifier referrer?)).1 = .ok resolved ∧
    value = .space found ∧ found.id = resolved.id ∧ found.requester? = referrer? ∧
    reply' = .ok (.space found') ∧ found'.id = resolved.id ∧ found'.requester? = referrer?
  unbuilt : session.GraphFails specifier referrer? → reply.isOk = false
  failed : ¬ session.GraphFails specifier referrer? →
    ∀ error, reply = .error error ↔ reply' = .error error
  concurs : ¬ session.GraphFails specifier referrer? → session.store.Concurs final final'

variable {session ended ended' : Session} {specifier : String} {referrer? : Option ModuleId}
  {resolved : Resolved} {ref : RecordRef} {record : Record} {begun begun' : List RecordRef}
  {final final' : Store} {error error' : ModuleError}

/-- Both have failed before any body has begun. -/
theorem Agreed.of_error (hsame : ¬ session.GraphFails specifier referrer? →
      error' = error ∧ session.store.Concurs final final') :
    session.Agreed specifier referrer? final [] (.error error) final' [] (.error error') where
  owners := rfl
  succeeds := rfl
  given _ hvalue := by cases hvalue
  unbuilt _ := rfl
  failed hbuilt other := by
    obtain ⟨rfl, -⟩ := hsame hbuilt
    exact Iff.rfl
  concurs hbuilt := (hsame hbuilt).2

/-- Two runs have come to their end, after which all modules have come as far. -/
theorem Agreed.of_conclusion
    (hresolved : (session.attempt (Attempt.resolve specifier referrer?)).1 = .ok resolved)
    (hbuilt : ¬ session.GraphFails specifier referrer?)
    (hregistered : ended.store.Registered resolved.id ref record)
    (hupright : ended.store.Upright) (hupright' : ended'.store.Upright)
    (howners : ended.store.owners begun = ended'.store.owners begun')
    (hconcurs : session.store.Concurs ended.store ended'.store) :
    session.Agreed specifier referrer? (ended.conclusion resolved.id referrer?).2.store begun
      (ended.conclusion resolved.id referrer?).1 (ended'.conclusion resolved.id referrer?).2.store begun'
      (ended'.conclusion resolved.id referrer?).1 := by
  have hcached := ended.cached_conclusion resolved.id referrer?
  have hcached' := ended'.cached_conclusion resolved.id referrer?
  have howners' : (ended.conclusion resolved.id referrer?).2.store.owners begun =
      (ended'.conclusion resolved.id referrer?).2.store.owners begun' := by
    rw [hcached.owners, hcached'.owners, howners]
  have hconcurs' := hconcurs.cached hcached hcached'
  -- the root is registered on either side, and has the same error, if any
  have hcourse := hconcurs.registered resolved.id
  rw [hregistered.find, Option.map_some] at hcourse
  obtain ⟨record', hfind', hcourse'⟩ := Option.map_eq_some_iff.mp hcourse.symm
  obtain ⟨ref', hregistered'⟩ := Store.exists_registered_of_find hfind'
  have herrors : record'.error? = record.error? := congrArg Prod.snd hcourse'
  cases herror : record.error? with
  | some error =>
      have hfailed := Session.conclusion_of_error hregistered herror referrer?
      have hfailed' := Session.conclusion_of_error hregistered' (herrors.trans herror) referrer?
      refine ⟨howners', ?_, ?_, ?_, ?_, fun _ => hconcurs'⟩
      · rw [hfailed, hfailed']
      · rw [hfailed]
        rintro value ⟨⟩
      · exact fun hfails => absurd hfails hbuilt
      · rw [hfailed, hfailed']
        exact fun _ _ => Iff.rfl
  | none =>
      obtain ⟨found, hfound, hid, hrequester⟩ :=
        Session.conclusion_of_ok hupright hregistered herror referrer?
      obtain ⟨found', hfound', hid', hrequester'⟩ :=
        Session.conclusion_of_ok hupright' hregistered' (herrors.trans herror) referrer?
      refine ⟨howners', ?_, ?_, ?_, ?_, fun _ => hconcurs'⟩
      · rw [hfound, hfound']
        rfl
      · rw [hfound]
        rintro value ⟨⟩
        exact ⟨resolved, found, found', hresolved, rfl, hid, hrequester, hfound', hid', hrequester'⟩
      · exact fun hfails => absurd hfails hbuilt
      · rw [hfound, hfound']
        exact fun _ error => ⟨nofun, nofun⟩

end Session

/-! ## Two runs of one graph -/

/-- What is kept is the same on either side, and like itself. -/
theorem Session.alike_of_engines {pairing : Pairing} {imports imports' : Imports} {session : Session}
    {engine engine' : Engine} (hengine : engine.Alike pairing imports imports' engine')
    (hvalues : ∀ slot value, session.slots.find? slot = some value → value.Alike pairing value)
    (hlives : ∀ name live, session.lives.find? name = some live → live.Alike pairing live)
    (waiters : List Waiter) : Session.Alike pairing imports imports' { session with engine }
      { session with engine := engine', waiters } where
  engine := hengine
  place := rfl
  slots slot := rel_self (hvalues slot)
  lives name := rel_self (hlives name)
  futures := rfl

namespace Machine

/-- The pass of a run whose graph has just been built: its modules are linked and evaluated in order. -/
def passing (session : Session) (engine : Engine) (order : List ModuleId) : Machine :=
  ⟨{ session with engine := { engine with store := (engine.store.link order).2 } }, [.pass order], .go⟩

variable {pairing : Pairing} {imports imports' : Imports} {session session' ended : Session}
  {engine engine' : Engine} {order : List ModuleId} {count : Nat} {config : Config} {host : Host}

theorem alike_passing (hall : ∀ id, pairing.covers id)
    (halike : Session.Alike pairing imports imports' { session with engine }
      { session' with engine := engine' }) :
    (passing session engine order).Alike pairing imports imports' (passing session' engine' order) :=
  alike_going (halike.withStore (halike.store.link hall order).2) (.cons (.pass order) .nil)

/-- A pass over modules of a steady host forgets none. -/
theorem remembers_passing (hsteady : host.Steady) (hhoused : engine.Housed config host)
    (session : Session) (order : List ModuleId) (count : Nat) :
    (passing session engine order).Remembers count := by
  have hupholds : (passing session engine order).Upholds (Engine.Housed config host)
      Instruction.Lasts :=
    ⟨hhoused.knowsSame (.of_store (.of_rebinds (engine.store.rebinds_link order))),
      fun _ _ hbody => by cases List.mem_singleton.mp hbody⟩
  exact hupholds.remembers (Engine.allows_housed config hsteady) count

/-- A pass leaves the modules in order. -/
theorem regular_of_passing {reply : Reply} (hregular : (engine.store.link order).2.Regular)
    (hreturns : (passing session engine order).Returns [] count ended reply) :
    ended.store.Regular := by
  have hchain := (passing session engine order).chain_perform (List.replicate count .step)
  rw [show perform _ _ = giving ended [] reply from hreturns.gives] at hchain
  exact Chain.regular hchain hregular

/-- An engine that takes up a dynamic import differs in nothing else. -/
theorem alike_fetching (hupright : engine.store.Upright) (root : ModuleId) :
    engine.Alike .same engine.imports (fetching engine root).imports (fetching engine root) :=
  ⟨rfl, rfl, fun _ _ => rfl, rfl, Store.alike_same hupright, rfl, rfl⟩

/-- The modules of a graph that is built and linked are in order. -/
theorem regular_link {root : ModuleId} {graph : Graph} (hregular : engine.store.Regular)
    (hbuilt : engine.attempt (Attempt.buildGraph root) = (.ok graph, engine')) :
    (engine'.store.link graph.order).2.Regular := by
  have hmeets := Attempt.meets_buildGraph root engine rfl trivial
  rw [hbuilt] at hmeets
  obtain ⟨hspans, -⟩ := hmeets.ok graph rfl
  exact (Chain.single (.link hspans)).regular
    ((Chain.of_touches hmeets.touches).regular hregular)

section Built

variable {between built rebuilt launched : Engine} (hsteady : host.Steady)
  (hsame : host.fetch = host.load) (hbetween : between.Proper config host)
  (hanchored : Session.Anchored session.store.extent { session with engine := between })
  (hbounded : Engine.Bounded config host between rebuilt built)
  (hbounded' : Engine.Bounded config host between built rebuilt)
  (halike : rebuilt.Alike .same imports imports' launched) (hhoused : launched.Housed config host)
include hsteady hsame hbetween hanchored hbounded hbounded' halike hhoused

/-- **A graph that is built when its sources have been fetched is linked and run alike.** -/
theorem coincides_passing (hdistinct : built.resolver.Distinct)
    (hdistinct' : rebuilt.resolver.Distinct) (order : List ModuleId) (waiters : List Waiter) :
    (built.store.link order).1 = (launched.store.link order).1 ∧
      session.store.Concurs (built.store.link order).2 (launched.store.link order).2 ∧
      ∀ count ended, (passing session built order).Returns [] count ended .done →
        ∃ ended', Coincides session.store count (passing session built order)
          (passing { session with waiters } launched order) ended ended' := by
  -- what is learnt afterwards is the same as if nothing had been fetched
  have hlearnt := hbounded.learntAlike hbounded' hsame hbetween.anchored
  have hfirst := hbounded.alike hbounded' hdistinct hdistinct' hlearnt
  have hall : ∀ id, hlearnt.whole.covers id := fun _ => trivial
  have hold (ref : RecordRef) (hkept : (session.store.record? ref).isSome) :
      hlearnt.whole.record ref ref := by
    obtain ⟨record, hrecord⟩ := Option.isSome_iff_exists.mp hkept
    exact hlearnt.whole_record ((Store.anchored_of_record hrecord).mono hanchored.store.grown)
  have hall' : ∀ id, Pairing.same.covers id := fun _ => trivial
  have hlink := hfirst.store.link hall order
  have hlink' := halike.store.link hall' order
  refine ⟨hlink.1.trans hlink'.1, (hlink.2.concurs hall hold).trans
    (hlink'.2.concurs hall' (fun _ _ => rfl)), fun count ended hreturns => ?_⟩
  have hpass : (passing session built order).Alike hlearnt.whole _ _
      (passing session rebuilt order) :=
    alike_passing hall (session.alike_of_engines hfirst
      (fun slot value hvalue => hlearnt.whole_value (hanchored.slots slot value hvalue))
      (fun name live hlive => hlearnt.whole_live (hanchored.lives name live hlive)) session.waiters)
  have hpass' : (passing session rebuilt order).Alike .same _ _
      (passing { session with waiters } launched order) :=
    alike_passing hall' (session.alike_of_engines halike (fun _ value _ => value.alike_same)
      (fun _ live _ => live.alike_same) waiters)
  obtain ⟨between', hcoincides⟩ := hpass.coincides hall hold hreturns
    (remembers_passing hsteady hbounded'.housed session order count)
  obtain ⟨ended', hcoincides'⟩ := hpass'.coincides hall' (fun _ _ => rfl) hcoincides.returns'
    (remembers_passing hsteady hhoused { session with waiters } order count)
  exact ⟨ended', hcoincides.trans hcoincides'⟩

end Built

end Machine

/-! ## Every case -/

/-- Evaluating what a specifier names and importing it come to an end by themselves: the call returns, and
neither the building of the graph nor the fetching of the sources is cut short. -/
structure Session.Finishes (session : Session) (specifier : String) (referrer? : Option ModuleId) :
    Prop where
  returns : ∃ count final reply,
    (Machine.enterEvaluate session [] specifier referrer?).Returns [] count final reply
  engine : ∀ resolved ref between, session.engine.attempt
    (Attempt.resolveAndRegister specifier referrer?) = (.ok (resolved, ref), between) →
      between.Finishes resolved.id

/-- Evaluating what a specifier names comes to an end, importing it and waiting does, and they agree. -/
def Session.ImportAgrees (session : Session) (specifier : String) (referrer? : Option ModuleId) :
    Prop :=
  ∃ count final reply begun store reply',
    (Machine.enterEvaluate session [] specifier referrer?).Returns [] count final reply ∧
    (Machine.importing session [(specifier, referrer?)]).Grants begun reply' store ∧
    session.Agreed specifier referrer? final.store
      ((Machine.enterEvaluate session [] specifier referrer?).startedAbove [] count) reply store begun
      reply'

namespace Machine

variable {config : Config} {host : Host} {session : Session} {specifier : String}
  {referrer? : Option ModuleId} {resolved : Resolved} {ref : RecordRef} {record : Record}
  {between : Engine} {error : ModuleError}

/-- Over a steady host with finitely many modules every call and every import comes to an end. -/
theorem finishes_of_confines {ids : List ModuleId} (hsteady : host.Steady)
    (hconfines : config.Confines host ids) (hrest : session.AtRest config host) (specifier : String)
    (referrer? : Option ModuleId) : session.Finishes specifier referrer? where
  returns := exists_returns_evaluate hsteady hconfines hrest.proper.regular.living
    hrest.proper.housed specifier referrer?
  engine resolved ref between hresolved := by
    have hbetween := hrest.proper.register specifier referrer?
    have hlookup := (Attempt.known_of_resolveAndRegister hresolved).2
    rw [hresolved] at hbetween
    exact Engine.finishes_of_confines hconfines hbetween.housed hbetween.studied.named hlookup

/-- A specifier that names no module. -/
theorem importAgrees_of_unresolved (hunawaited : Unawaited session)
    (hended : session.engine.attempt (Attempt.resolveAndRegister specifier referrer?) =
      (.error error, between)) : session.ImportAgrees specifier referrer? := by
  obtain ⟨hreturns, hstarted⟩ := returns_of_unresolved session hended
  refine ⟨_, _, _, _, _, _, hreturns, grants_of_unresolved hunawaited hended, ?_⟩
  rw [hstarted]
  have hstore : between.store = session.store := by
    rw [Engine.eq_of_unresolved hended]
    rfl
  refine .of_error (fun _ => ⟨rfl, ?_⟩)
  show session.store.Concurs between.store session.store
  rw [hstore]
  exact .refl _ _

section Resolved

variable (hresolved : session.engine.attempt (Attempt.resolveAndRegister specifier referrer?) =
    (.ok (resolved, ref), between))
include hresolved

theorem not_graphFails {graph : Graph} {built : Engine}
    (hgraph : between.attempt (Attempt.buildGraph resolved.id) = (.ok graph, built)) :
    ¬ session.GraphFails specifier referrer? := by
  rintro ⟨_, _, _, _, hresolved', hfailed⟩
  obtain ⟨hnames, rfl⟩ := Prod.mk.inj (hresolved.symm.trans hresolved')
  obtain ⟨rfl, -⟩ := Prod.mk.inj (Except.ok.inj hnames)
  rw [hgraph] at hfailed
  cases hfailed

variable (hrest : session.AtRest config host)
  (hregistered : between.store.Registered resolved.id ref record)
include hrest hregistered

/-- A module that has settled. -/
theorem importAgrees_of_settled (hsettled : record.status.isSettled = true) :
    session.ImportAgrees specifier referrer? := by
  let found : Session := { session with engine := between }
  have hstore : found.store = session.store :=
    Engine.store_of_settled hresolved hregistered hsettled
  have hregular : found.store.Regular := hstore ▸ hrest.proper.regular
  have hrests : found.store.Rests := hstore ▸ hrest.rests
  have hroot : found.store.HasSettled resolved.id := ⟨ref, record, hregistered, hsettled⟩
  have hupright : found.store.Upright := ⟨hregular.living.named, hregular.current⟩
  -- all modules of its graph have settled
  obtain ⟨graph, hsame, -, hbuilt, henters⟩ :=
    enterRun_of_ready hregular.closed (hregular.closed.ready_of_begun hroot.hasBegun)
  obtain ⟨hexplored, -⟩ := Engine.explored_of_buildGraph hbuilt
  have hbegun : ∀ id ∈ graph.order, found.store.HasBegun id := fun id hid =>
    (hrests.settled_of_reached hroot (hexplored.reached id hid)).hasBegun
  have hentered : enterEvaluate session [] specifier referrer? = ⟨found, [.pass graph.order,
      .settle resolved.id, .present resolved.id referrer?], .go⟩ := by
    unfold enterEvaluate Session.attempt
    rw [hresolved]
    exact (henters _).trans (by rw [hsame])
  have hgraph := not_graphFails hresolved (show between.attempt _ = _ from hbuilt)
  obtain ⟨hreturns, hstarted⟩ := returns_run_of_begun hbegun resolved.id referrer?
  rw [← hentered] at hreturns hstarted
  refine ⟨_, _, _, _, _, _, hreturns,
    grants_of_settled hrest.unawaited hresolved hregistered hsettled, ?_⟩
  rw [hstarted]
  exact .of_conclusion (Engine.resolve_of_resolved hresolved) hgraph hregistered hupright hupright rfl
    (.refl _ _)

section Unsettled

variable (hsame : host.fetch = host.load) (hunsettled : record.status.isSettled = false)
  (hfinishes : session.Finishes specifier referrer?)
include hsame hunsettled hfinishes

/-- A module whose graph cannot be built: the import fails wherever this is found. -/
theorem importAgrees_of_unbuilt {built : Engine}
    (hgraph : between.attempt (Attempt.buildGraph resolved.id) = (.error error, built)) :
    session.ImportAgrees specifier referrer? := by
  have hbetween := hrest.proper.register specifier referrer?
  rw [hresolved] at hbetween
  have hprepared := attempt_prepare between resolved.id
  rw [hgraph] at hprepared
  obtain ⟨hreturns, hstarted⟩ := returns_of_unprepared session hresolved hprepared
  have hfails : session.GraphFails specifier referrer? :=
    ⟨resolved, ref, between, error, hresolved, by rw [hgraph]⟩
  suffices himport : ∃ error' store,
      (importing session [(specifier, referrer?)]).Grants [] (.error error') store by
    obtain ⟨error', store, hgrants⟩ := himport
    refine ⟨_, _, _, _, _, _, hreturns, hgrants, ?_⟩
    rw [hstarted]
    exact .of_error (fun hbuilt => absurd hfails hbuilt)
  have hall : ∀ id, Pairing.same.covers id := fun _ => trivial
  rcases hfetched : between.attempt (Attempt.prefetch resolved.id) with ⟨error' | _, after⟩
  all_goals
    obtain ⟨fetched, hfetched', halike⟩ := (alike_fetching hbetween.upright resolved.id).attempt
      (Attempt.alike_prefetch hall resolved.id) hfetched
  · exact ⟨error', _,
      grants_of_unfetched hrest.unawaited hresolved hregistered hunsettled hfetched'⟩
  rcases hgraph' : after.attempt (Attempt.buildGraph resolved.id) with ⟨error' | graph, built'⟩
  · obtain ⟨_, hgraph'', -⟩ := halike.attempt (Attempt.alike_buildGraph hall resolved.id) hgraph'
    have hprepared' := attempt_prepare fetched resolved.id
    rw [hgraph''] at hprepared'
    exact ⟨error', _,
      grants_of_unprepared hrest.unawaited hresolved hregistered hunsettled hfetched' hprepared'⟩
  · -- what is built when its sources have been fetched is built before
    obtain ⟨_, _, hbuilt, -⟩ := Attempt.buildGraph_of_fetched hsame hbetween.studied hbetween.housed
      hregistered hunsettled (hfinishes.engine _ _ _ hresolved) hfetched hgraph'
    cases hgraph.symm.trans hbuilt

omit hsame hregistered hunsettled in
/-- The pass over a graph that is built and linked comes back. -/
theorem exists_returns_passing {graph : Graph} {built : Engine}
    (hgraph : between.attempt (Attempt.buildGraph resolved.id) = (.ok graph, built))
    (hlinked : (built.store.link graph.order).1 = .ok ()) :
    enterEvaluate session [] specifier referrer? = (passing session built graph.order).onto
        [.settle resolved.id, .present resolved.id referrer?] ∧
      ∃ count ended, (passing session built graph.order).Returns [] count ended .done ∧
        ended.store.HasBegun resolved.id := by
  have hattempt : session.attempt (Attempt.resolveAndRegister specifier referrer?) =
      (.ok (resolved, ref), { session with engine := between }) := by
    rw [Session.attempt, hresolved]
  have hprepared := attempt_prepare between resolved.id
  rw [hgraph] at hprepared
  dsimp only at hprepared
  rw [hlinked] at hprepared
  have hlaunches : session.Launches graph [.present resolved.id referrer?]
      (enterEvaluate session [] specifier referrer?) := .of_evaluate [] hattempt hgraph hlinked
  obtain ⟨-, hroot, front, hfront⟩ := Engine.explored_of_buildGraph hgraph
  have hentered : enterEvaluate session [] specifier referrer? =
      (passing session built graph.order).onto
        [.settle resolved.id, .present resolved.id referrer?] := by
    unfold enterEvaluate enterRun
    rw [hattempt]
    dsimp only [Session.attempt]
    rw [hprepared]
    rfl
  -- the whole call comes back, so its pass does
  obtain ⟨count, _, _, hreturns⟩ := hfinishes.returns
  obtain ⟨taken, ended, hpassed, hbegun⟩ := settles_of_launches hrest.proper.regular
    (hroot ▸ hlaunches) hreturns.back hreturns.remembers
  rw [hroot, hentered] at hpassed
  refine ⟨hentered, taken, ended, returns_onto_iff.mp hpassed, hbegun resolved.id ?_⟩
  rw [hfront]
  exact List.mem_append_right _ (List.mem_singleton_self _)

/-- A module whose graph is built: it is linked alike, and if it is linked it is run alike. -/
theorem importAgrees_of_built (hsteady : host.Steady) {graph : Graph} {built : Engine}
    (hgraph : between.attempt (Attempt.buildGraph resolved.id) = (.ok graph, built)) :
    session.ImportAgrees specifier referrer? := by
  have hbetween := hrest.proper.register specifier referrer?
  have hanchored := hrest.anchored.attempt (Attempt.anchors_resolveAndRegister specifier referrer?)
  rw [Session.attempt, hresolved] at hanchored
  rw [hresolved] at hbetween
  -- the graph that is built when the sources have been fetched
  obtain ⟨after, graph', rebuilt, hfetched, hgraph', horder, hbounded', hbounded⟩ :=
    Attempt.buildGraph_fetched hsame hbetween.studied hbetween.housed hregistered hunsettled
      (hfinishes.engine _ _ _ hresolved) hgraph
  -- and when a dynamic import has fetched them
  have hall : ∀ id, Pairing.same.covers id := fun _ => trivial
  obtain ⟨fetched, hfetched', halike⟩ := (alike_fetching hbetween.upright resolved.id).attempt
    (Attempt.alike_prefetch hall resolved.id) hfetched
  obtain ⟨launched, hgraph'', halike'⟩ :=
    halike.attempt (Attempt.alike_buildGraph hall resolved.id) hgraph'
  have hbuilt := hbetween.buildGraph resolved.id
  rw [hgraph] at hbuilt
  have hrebuilt := (hbetween.prefetch resolved.id).buildGraph resolved.id
  rw [hfetched, hgraph'] at hrebuilt
  have hproper := (hbetween.fetching resolved.id).prefetch resolved.id
  rw [hfetched'] at hproper
  have hlaunched := hproper.buildGraph resolved.id
  rw [hgraph''] at hlaunched
  obtain ⟨hlink, hconcurs, hcoincides⟩ := coincides_passing hsteady hsame hbetween hanchored hbounded
    hbounded' halike' hlaunched.housed hbuilt.distinct hrebuilt.distinct graph.order
    [⟨resolved.id, referrer?, .pipeline session.engine.imports.issued⟩]
  have hprepared' := attempt_prepare fetched resolved.id
  rw [hgraph''] at hprepared'
  dsimp only at hprepared'
  rw [horder, ← hlink] at hprepared'
  cases hlinked : (built.store.link graph.order).1 with
  | error error =>
      have hprepared := attempt_prepare between resolved.id
      rw [hgraph] at hprepared
      dsimp only at hprepared
      rw [hlinked] at hprepared hprepared'
      obtain ⟨hreturns, hstarted⟩ := returns_of_unprepared session hresolved hprepared
      refine ⟨_, _, _, _, _, _, hreturns, grants_of_unprepared hrest.unawaited hresolved hregistered
        hunsettled hfetched' hprepared', ?_⟩
      rw [hstarted]
      exact .of_error (fun _ => ⟨rfl, hconcurs⟩)
  | ok _ =>
      rw [hlinked] at hprepared'
      obtain ⟨hentered, count, ended, hreturns, ref', record', hfound, -⟩ :=
        exists_returns_passing hresolved hrest hfinishes hgraph hlinked
      obtain ⟨ended', hends⟩ := hcoincides count ended hreturns
      have hregular := regular_of_passing (regular_link hbetween.regular hgraph) hreturns
      have hregular' := regular_of_passing (horder ▸ regular_link hproper.regular hgraph'')
        hends.returns'
      obtain ⟨other', hfind', -⟩ := Option.map_eq_some_iff.mp
        ((hends.concurs.registered resolved.id).symm.trans (by rw [hfound.find]; rfl))
      obtain ⟨_, hfound'⟩ := Store.exists_registered_of_find hfind'
      -- the call and the import come to the conclusions of their runs
      obtain ⟨hconcludes, hnone⟩ := returns_conclusion ended resolved.id referrer?
      obtain ⟨hwhole, hstarted⟩ := hreturns.then rfl hconcludes hnone
      rw [← hentered] at hwhole hstarted
      refine ⟨_, _, _, _, _, _, hwhole, grants_of_pass hrest.unawaited hresolved hregistered
        hunsettled hfetched' hprepared' hends.returns' hfound', ?_⟩
      rw [hstarted]
      exact .of_conclusion (Engine.resolve_of_resolved hresolved) (not_graphFails hresolved hgraph)
        hfound ⟨hregular.living.named, hregular.current⟩ ⟨hregular'.living.named, hregular'.current⟩
        hends.owners hends.concurs

end Unsettled

end Resolved

theorem relays_steps (machine : Machine) (count : Nat) :
    machine.Relays (List.replicate count .step) := by
  induction count generalizing machine with
  | zero => trivial
  | succ count ih => exact ⟨trivial, ih _⟩

/-- Two of three modules are evaluated, each of which imports the next. -/
def ladderHalfway : List Act := .call (.evaluate "/middle.mjs" none) none :: List.replicate 8 .step

end Machine

end Linkage
