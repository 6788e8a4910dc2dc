import Linkage.Proofs.Histories.Calling
import Linkage.Proofs.Histories.Comparing
import Linkage.Proofs.Host.Steady

/-!
# What a module shows does not depend on the calls

Two engines over one host may be asked to evaluate different modules, in different orders and more
than once.  If no body requires another module, then of a module that leads to no cycle both show the
same once it has settled in both: how it ended, with which error, and what each of its names gives.
Only objects and namespaces may have other numbers.

* `Session.Calls` : calls that evaluate modules, one after the other; `Resting.exists_calls`.
* `Store.ShowsSame` : a module shows the same in two stores.
* `Session.modules_show_same` : settled modules without cycles show the same whatever was called.
-/

namespace Linkage

variable {config : Config} {host : Host}

/-! ## Calls -/

namespace Session

/-- Calls that evaluate a module, each with its specifier and the module that asks, one after the
other. -/
inductive Calls : List (String × Option ModuleId) → Session → Session → Prop
  | nil (session : Session) : Calls [] session session
  | cons {session next last : Session} {specifier : String} {referrer? : Option ModuleId}
      {rest : List (String × Option ModuleId)} {count : Nat} {reply : Reply}
      (hreturns : (Machine.enterEvaluate session [] specifier referrer?).Returns [] count next reply)
      (hrest : Calls rest next last) : Calls ((specifier, referrer?) :: rest) session last

variable {session last : Session} {turns : List BodyTurn} {calls : List (String × Option ModuleId)}

namespace Resting

/-- Calls leave a session resting. -/
theorem after_calls (hresting : session.Resting config host turns) (hscripted : host.Scripted)
    (hcalls : Calls calls session last) : ∃ turns', last.Resting config host turns' := by
  induction hcalls generalizing turns with
  | nil session => exact ⟨turns, hresting⟩
  | cons hreturns _ ih =>
      obtain ⟨count, final, reply, turns', hreturns', hfinal⟩ := hresting.evaluate hscripted _ _
      obtain ⟨-, rfl, -⟩ := hreturns.unique hreturns'
      exact ih hfinal

/-- All calls come back. -/
theorem exists_calls (hresting : session.Resting config host turns) (hscripted : host.Scripted)
    (calls : List (String × Option ModuleId)) : ∃ last, Calls calls session last := by
  induction calls generalizing session turns with
  | nil => exact ⟨session, .nil session⟩
  | cons call rest ih =>
      obtain ⟨count, next, reply, turns', hreturns, hnext⟩ :=
        hresting.evaluate hscripted call.1 call.2
      obtain ⟨last, hrest⟩ := ih hnext
      exact ⟨last, .cons hreturns hrest⟩

end Resting

end Session

/-! ## What a module shows -/

namespace Store

/-- What a requester reads under a public name of a module. -/
def shown (store : Store) (id : ModuleId) (requester? : Option ModuleId) (name : String) :
    Except ModuleError Value :=
  match store.namespace_ id requester? with
  | (.ok found, store) => (store.readName found name).1
  | (.error error, _) => .error error

/-- A module shows the same in two stores, but for the numbers of objects and namespaces. -/
structure ShowsSame (pairing : Pairing) (store store' : Store) (id : ModuleId) : Prop where
  ended : ∃ ref ref' record record', store.Registered id ref record ∧
    store'.Registered id ref' record' ∧ record.status = record'.status ∧
    record.error? = record'.error?
  names : store.exportedNames id = store'.exportedNames id
  shown : ∀ requester? name, Matches (Value.Alike pairing) (store.shown id requester? name)
    (store'.shown id requester? name)

/-- The namespaces of two stores that are alike are so one to one. -/
def PairsSpaces (pairing : Pairing) (store store' : Store) : Prop :=
  ∀ one one' other other', store.Caches one → store.Caches other → store'.Caches one' →
    store'.Caches other' → one.Alike pairing one' → other.Alike pairing other' →
    (one = other ↔ one' = other')

variable {pairing : Pairing} {store store' : Store} {id : ModuleId}

theorem Alike.shown (halike : store.Alike pairing store') (hcovered : pairing.covers id)
    (requester? : Option ModuleId) (name : String) :
    Matches (Value.Alike pairing) (store.shown id requester? name)
      (store'.shown id requester? name) := by
  obtain ⟨hfound, hnext⟩ := halike.namespace_ hcovered requester?
  unfold Store.shown
  generalize store.namespace_ id requester? = given at hfound hnext ⊢
  generalize store'.namespace_ id requester? = given' at hfound hnext ⊢
  obtain ⟨found?, next⟩ := given
  obtain ⟨found'?, next'⟩ := given'
  cases hfound with
  | ok hfound => exact (hnext.readName hfound name).1
  | error error => exact .error error

/-- A compared module that is there shows the same in stores that are alike. -/
theorem Alike.showsSame (halike : store.Alike pairing store') (hcovered : pairing.covers id)
    (hpresent : (store.lookup? id).isSome) : store.ShowsSame pairing store' id where
  ended := by
    rcases halike.registered hcovered with
      ⟨hnone, -⟩ | ⟨ref, ref', record, record', -, hrecord, hregistered, hregistered', -⟩
    · rw [hnone] at hpresent
      cases hpresent
    · exact ⟨ref, ref', record, record', hregistered, hregistered', hrecord.status, hrecord.error⟩
  names := halike.resembles.aligned.exportedNames_eq hcovered
  shown := halike.shown hcovered

end Store

/-! ## Agreement -/

namespace Session

/-- **What a settled module without cycles shows does not depend on the calls.**  Whatever two fresh
engines over one host have been asked to evaluate, the objects and namespaces of the one can be
matched with those of the other so that all that is matched is alike, and every module that leads to
no cycle and has settled in both shows the same. -/
theorem modules_show_same (hscripted : host.Scripted) {session session' last last' : Session}
    {calls calls' : List (String × Option ModuleId)} (hnew : session.engine = .new host config)
    (hnew' : session'.engine = .new host config) (hcalls : Calls calls session last)
    (hcalls' : Calls calls' session' last') :
    ∃ pairing : Pairing, last.store.Alike pairing last'.store ∧
      last.store.PairsSpaces pairing last'.store ∧ ∀ id, config.Acyclic host id →
        last.store.HasSettled id → last'.store.HasSettled id →
        last.store.ShowsSame pairing last'.store id := by
  obtain ⟨turns, hresting⟩ := (resting_of_new hnew).after_calls hscripted hcalls
  obtain ⟨turns', hresting'⟩ := (resting_of_new hnew').after_calls hscripted hcalls'
  have hresembles := hresting.chronicle.resembles hresting'.chronicle
  have hfits : (Pairing.between hresting.chronicle.moment hresting'.chronicle.moment
      (Store.Shared config host last.store last'.store)).Fits last.store last'.store :=
    Pairing.between_fits (fun _ _ _ _ hshared _ => .inl hshared.2)
  have halike := hresembles.withFresh hfits
  refine ⟨_, halike, fun _ _ _ _ hone hother hone' hother' => hone.alike_iff hother hone' hother',
    fun id hacyclic hsettled hsettled' => ?_⟩
  refine halike.showsSame ⟨hacyclic, hsettled, hsettled'⟩ ?_
  obtain ⟨ref, _, hregistered, -⟩ := hsettled
  rw [hregistered.lookup]
  rfl

end Session

/-! ### An example -/

/-- Of a shelf of scripts that require nothing, all bodies are so. -/
theorem Shelf.scripted_insert {shelf : Shelf} (hscripted : shelf.toHost.Scripted) (path : String)
    {source : ModuleSource} (statements : List Statement)
    (hbody : source.body = statements.map Instruction.statement)
    (hquiet : ∀ statement ∈ statements, ¬ statement.Requires) :
    (shelf.insert path source).toHost.Scripted := by
  intro id found hload
  rcases Shelf.load_insert hload with ⟨-, rfl⟩ | hload
  · exact ⟨statements, hbody, hquiet⟩
  · exact hscripted id found hload

/-- A module above another above a legacy one, and a legacy module by itself.  The body of the module
at the top fails. -/
def terrace : Shelf :=
  let base := Source.ofBody [.statement (.exportValue "seed" (.obj [("ripe", .bool true)]))]
  let middle := Source.ofBody [.statement (.get "base" "seed" "fruit")]
  let top := Source.ofBody [.statement (.get "all" "fruit" "mine"), .statement (.throw "frost")]
  (((Shelf.empty.insert "/aside.cjs" (Source.ofBody [])).insert "/base.cjs" base).insert
    "/middle.mjs" ((middle.importDefault "/base.cjs" "base").exportLocal "fruit")).insert
    "/top.mjs" ((top.importStar "/middle.mjs" "all").exportLocal "mine")

theorem scripted_terrace : terrace.toHost.Scripted := by
  have hempty : Shelf.empty.toHost.Scripted := fun _ _ hload => by cases hload
  refine Shelf.scripted_insert (Shelf.scripted_insert (Shelf.scripted_insert
    (Shelf.scripted_insert hempty "/aside.cjs" [] rfl ?_) "/base.cjs" [_] rfl ?_)
    "/middle.mjs" [_] rfl ?_) "/top.mjs" [_, _] rfl ?_ <;> simp [Statement.Requires]

/-- Each module stands above what it asks for. -/
theorem asks_terrace {one other : ModuleId} (hasks : Config.standard.Asks terrace.toHost one other) :
    (one = .ofPath "/top.mjs" ∧ other = .ofPath "/middle.mjs") ∨
      one = .ofPath "/middle.mjs" ∧ other = .ofPath "/base.cjs" := by
  obtain ⟨-, source, hload, specifier, hmem, resolved, hresolved, rfl⟩ := hasks
  have htop : (Config.standard.resolve terrace.toHost "/middle.mjs"
      (some (.ofPath "/top.mjs"))).toOption.map (·.id) = some (.ofPath "/middle.mjs") := by
    decide +kernel
  have hmiddle : (Config.standard.resolve terrace.toHost "/base.cjs"
      (some (.ofPath "/middle.mjs"))).toOption.map (·.id) = some (.ofPath "/base.cjs") := by
    decide +kernel
  rcases Shelf.load_insert hload with ⟨rfl, rfl⟩ | hload
  · obtain rfl := List.mem_singleton.mp hmem
    have hanswer : Config.standard.resolve terrace.toHost "/middle.mjs"
      (some (.ofPath "/top.mjs")) = .ok resolved := hresolved
    rw [hanswer] at htop
    exact .inl ⟨rfl, Option.some.inj htop⟩
  rcases Shelf.load_insert hload with ⟨rfl, rfl⟩ | hload
  · obtain rfl := List.mem_singleton.mp hmem
    have hanswer : Config.standard.resolve terrace.toHost "/base.cjs"
      (some (.ofPath "/middle.mjs")) = .ok resolved := hresolved
    rw [hanswer] at hmiddle
    exact .inr ⟨rfl, Option.some.inj hmiddle⟩
  rcases Shelf.load_insert hload with ⟨rfl, rfl⟩ | hload
  · cases hmem
  rcases Shelf.load_insert hload with ⟨rfl, rfl⟩ | hload
  · cases hmem
  · cases hload

theorem acyclic_terrace (id : ModuleId) : Config.standard.Acyclic terrace.toHost id := by
  have hdiffers : ModuleId.ofPath "/top.mjs" ≠ .ofPath "/middle.mjs" ∧
      ModuleId.ofPath "/top.mjs" ≠ .ofPath "/base.cjs" ∧
      ModuleId.ofPath "/middle.mjs" ≠ .ofPath "/base.cjs" := by decide +kernel
  have hpath : ∀ one other, Relation.TransGen (Config.standard.Asks terrace.toHost) one other →
      (one = .ofPath "/top.mjs" ∧ (other = .ofPath "/middle.mjs" ∨ other = .ofPath "/base.cjs")) ∨
        one = .ofPath "/middle.mjs" ∧ other = .ofPath "/base.cjs" := by
    intro one other hpath
    induction hpath with
    | single hasks => exact (asks_terrace hasks).imp_left (fun hboth => ⟨hboth.1, .inl hboth.2⟩)
    | tail _ hasks ih =>
        rcases asks_terrace hasks with ⟨rfl, rfl⟩ | ⟨rfl, rfl⟩ <;> simp_all
  intro other _ hcycle
  rcases hpath other other hcycle with ⟨rfl, hsame | hsame⟩ | ⟨rfl, hsame⟩
  · exact hdiffers.1 hsame
  · exact hdiffers.2.1 hsame
  · exact hdiffers.2.2 hsame

/-- The session after so many steps of a call. -/
def Session.called (session : Session) (specifier : String) (count : Nat) : Session :=
  ((Machine.enterEvaluate session [] specifier none).after count).session

/-- A call that comes back after so many steps. -/
theorem Session.Resting.returns_called {session : Session} {turns : List BodyTurn}
    (hresting : session.Resting config host turns) (hscripted : host.Scripted) (specifier : String)
    (count : Nat) (hback : (Machine.enterEvaluate session [] specifier none).ComesBack [] count) :
    ∃ reply turns', (Machine.enterEvaluate session [] specifier none).Returns [] count
        (session.called specifier count) reply ∧
      (session.called specifier count).Resting config host turns' := by
  obtain ⟨count', final, reply, turns', hreturns, hfinal⟩ := hresting.evaluate hscripted specifier none
  obtain rfl := hback.unique hreturns.back
  unfold Session.called
  rw [hreturns.gives]
  exact ⟨reply, turns', hreturns, hfinal⟩

/-- The module at the top fails in the same way, whether it is asked for at once or after the others,
and the one below it shows the same. -/
theorem modules_show_same_terrace :
    let session := Session.new (.shelf terrace) .standard
    ∃ last last' pairing, Session.Calls [("/top.mjs", none)] session last ∧
      Session.Calls [("/aside.cjs", none), ("/middle.mjs", none), ("/top.mjs", none)] session last' ∧
      last.store.Alike pairing last'.store ∧
      last.store.ShowsSame pairing last'.store (.ofPath "/middle.mjs") ∧
      last.store.ShowsSame pairing last'.store (.ofPath "/top.mjs") := by
  intro session
  have hresting : session.Resting .standard terrace.toHost [] := Session.resting_of_new rfl
  obtain ⟨_, _, htop, -⟩ := hresting.returns_called scripted_terrace "/top.mjs" 13
    ⟨by decide +kernel, by decide +kernel⟩
  obtain ⟨_, _, haside, hresting⟩ := hresting.returns_called scripted_terrace "/aside.cjs" 5
    ⟨by decide +kernel, by decide +kernel⟩
  obtain ⟨_, _, hmiddle, hresting⟩ := hresting.returns_called scripted_terrace "/middle.mjs" 9
    ⟨by decide +kernel, by decide +kernel⟩
  obtain ⟨_, _, htop', -⟩ := hresting.returns_called scripted_terrace "/top.mjs" 8
    ⟨by decide +kernel, by decide +kernel⟩
  have hsettled {last : Session} {id : ModuleId}
      (hstatus : (last.store.find? id).map (·.status.isSettled) = some true) :
      last.store.HasSettled id := by
    obtain ⟨record, hfind, hsettled⟩ := Option.map_eq_some_iff.mp hstatus
    obtain ⟨ref, hregistered⟩ := Store.exists_registered_of_find hfind
    exact ⟨ref, record, hregistered, hsettled⟩
  have hcalls := Session.Calls.cons htop (.nil _)
  have hcalls' := Session.Calls.cons haside (.cons hmiddle (.cons htop' (.nil _)))
  obtain ⟨pairing, halike, -, hsame⟩ := Session.modules_show_same scripted_terrace rfl rfl hcalls hcalls'
  refine ⟨_, _, pairing, hcalls, hcalls', halike, ?_, ?_⟩
  · exact hsame _ (acyclic_terrace _) (hsettled (by decide +kernel)) (hsettled (by decide +kernel))
  · exact hsame _ (acyclic_terrace _) (hsettled (by decide +kernel)) (hsettled (by decide +kernel))

end Linkage
