import Linkage.Proofs.Engine.Analyzing
import Linkage.Proofs.Engine.Relating
import Linkage.Proofs.Engine.Remembering

/-!
# Attempts and the engines they leave

`Attempt.Triple` says what holds of the whole engine when an attempt gives a result and when it
fails; `Attempt.Keeps` that something holds of it in either case.  `Attempt.Meets` is the like for
stores alone.

* `Attempt.Triple.bind`, `Attempt.Triple.foldlM` and their like : the rules.
* `Attempt.triple_analyzeModern` : reading declarations keeps what resolving and registering each
  specifier keeps, and remembers them all.
-/

namespace Linkage

/-- Begun on an engine that fulfils `pre`, an attempt gives values that fulfil `post` together with
the engine then; when it fails, the engine then fulfils `fails`. -/
def Attempt.Triple {α : Type} (pre : Engine → Prop) (action : Attempt α)
    (post : α → Engine → Prop) (fails : Engine → Prop) : Prop :=
  ∀ engine, pre engine →
    (∀ value, (engine.attempt action).1 = .ok value → post value (engine.attempt action).2) ∧
      (∀ error, (engine.attempt action).1 = .error error → fails (engine.attempt action).2)

/-- An attempt after which something still holds, however it ends. -/
abbrev Attempt.Keeps {α : Type} (fact : Engine → Prop) (action : Attempt α) : Prop :=
  Attempt.Triple fact action (fun _ => fact) fact

namespace Attempt

variable {α β γ : Type} {pre fails : Engine → Prop} {post : α → Engine → Prop}
  {fact : Engine → Prop}

namespace Triple

theorem pure {value : α} (hpost : ∀ engine, pre engine → post value engine) :
    Triple pre (Pure.pure value) post fails := by
  intro engine hpre
  refine ⟨fun found hfound => ?_, fun error herror => (by cases herror)⟩
  obtain rfl : value = found := Except.ok.inj hfound
  exact hpost engine hpre

theorem throw {error : ModuleError} (hfails : ∀ engine, pre engine → fails engine) :
    Triple pre (MonadExcept.throw error : Attempt α) post fails :=
  fun engine hpre => ⟨fun _ hvalue => (by cases hvalue), fun _ _ => hfails engine hpre⟩

theorem ofExcept {given : Except ModuleError α}
    (hpost : ∀ value, given = .ok value → ∀ engine, pre engine → post value engine)
    (hfails : ∀ engine, pre engine → fails engine) :
    Triple pre (MonadExcept.ofExcept given) post fails := by
  cases given with
  | ok value => exact .pure (hpost value rfl)
  | error error => exact .throw hfails

/-- What the first attempt leaves is what the second begins with. -/
theorem bind {action : Attempt α} {next : α → Attempt β} {post' : β → Engine → Prop}
    (hfirst : Triple pre action post fails)
    (hnext : ∀ value, Triple (post value) (next value) post' fails) :
    Triple pre (action >>= next) post' fails := by
  intro engine hpre
  have hended := hfirst engine hpre
  rw [Engine.attempt_bind]
  generalize engine.attempt action = ended at hended
  obtain ⟨result, engine'⟩ := ended
  cases result with
  | ok value => exact hnext value engine' (hended.1 value rfl)
  | error error => exact ⟨fun _ hvalue => (by cases hvalue), fun _ _ => hended.2 error rfl⟩

/-- Looking at the engine changes nothing. -/
theorem get_bind {next : Engine → Attempt β} {post' : β → Engine → Prop}
    (hnext : ∀ engine, pre engine → Triple (· = engine) (next engine) post' fails) :
    Triple pre (get >>= next) post' fails := by
  intro engine hpre
  rw [Engine.attempt_bind, Engine.attempt_get]
  exact hnext engine hpre engine rfl

theorem set {engine : Engine} {post : PUnit → Engine → Prop} (hpost : post () engine) :
    Triple pre (MonadState.set engine : Attempt PUnit) post fails :=
  fun _ _ => ⟨fun _ _ => hpost, fun _ herror => (by cases herror)⟩

theorem onStore {f : Store → α × Store} (hpost : ∀ engine, pre engine →
    post (f engine.store).1 { engine with store := (f engine.store).2 }) :
    Triple pre (Attempt.onStore f) post fails := by
  intro engine hpre
  refine ⟨fun value hvalue => ?_, fun error herror => (by cases herror)⟩
  obtain rfl : (f engine.store).1 = value := Except.ok.inj hvalue
  exact hpost engine hpre

/-- Demanding less of the beginning or promising more of the end. -/
theorem imp {pre' fails' : Engine → Prop} {post' : α → Engine → Prop} {action : Attempt α}
    (htriple : Triple pre' action post' fails') (hpre : ∀ engine, pre engine → pre' engine)
    (hpost : ∀ value engine, post' value engine → post value engine)
    (hfails : ∀ engine, fails' engine → fails engine) : Triple pre action post fails :=
  fun engine hengine =>
    ⟨fun _ hvalue => hpost _ _ ((htriple engine (hpre engine hengine)).1 _ hvalue),
      fun _ herror => hfails _ ((htriple engine (hpre engine hengine)).2 _ herror)⟩

/-- Demanding less of the beginning. -/
theorem weaken {pre' : Engine → Prop} {action : Attempt α}
    (htriple : Triple pre' action post fails) (hpre : ∀ engine, pre engine → pre' engine) :
    Triple pre action post fails :=
  htriple.imp hpre (fun _ _ hpost => hpost) (fun _ hfails => hfails)

/-- What is known of the result besides. -/
theorem also {action : Attempt α} (post' : α → Engine → Prop)
    (htriple : Triple pre action post fails)
    (hmore : ∀ engine, pre engine → ∀ value, (engine.attempt action).1 = .ok value →
      post' value (engine.attempt action).2) :
    Triple pre action (fun value engine => post value engine ∧ post' value engine) fails :=
  fun engine hpre => ⟨fun value hvalue =>
    ⟨(htriple engine hpre).1 value hvalue, hmore engine hpre value hvalue⟩, (htriple engine hpre).2⟩

/-- What is kept besides. -/
theorem and {action : Attempt α} {fact : Engine → Prop} (htriple : Triple pre action post fails)
    (hkeeps : Keeps fact action) : Triple (fun engine => pre engine ∧ fact engine) action
      (fun value engine => post value engine ∧ fact engine)
      (fun engine => fails engine ∧ fact engine) :=
  fun engine hpre =>
    ⟨fun value hvalue => ⟨(htriple engine hpre.1).1 value hvalue,
        (hkeeps engine hpre.2).1 value hvalue⟩,
      fun error herror => ⟨(htriple engine hpre.1).2 error herror,
        (hkeeps engine hpre.2).2 error herror⟩⟩

/-- A fold, with what holds after some of the items. -/
theorem foldlM (sofar : List γ → β → Engine → Prop) {f : β → γ → Attempt β} (items : List γ)
    (start : β) (hstep : ∀ done item, done ++ [item] <+: items → ∀ value,
      Triple (sofar done value) (f value item) (sofar (done ++ [item])) fails) :
    Triple (sofar [] start) (items.foldlM f start) (sofar items) fails := by
  have hrest : ∀ rest done value, done ++ rest = items →
      Triple (sofar done value) (rest.foldlM f value) (sofar items) fails := by
    intro rest
    induction rest with
    | nil =>
        intro done value hitems
        obtain rfl : done = items := by simpa using hitems
        exact .pure (fun _ hsofar => hsofar)
    | cons item rest ih =>
        intro done value hitems
        rw [List.foldlM_cons]
        have hearly : done ++ [item] <+: items := ⟨rest, by simpa using hitems⟩
        exact (hstep done item hearly value).bind
          (fun next => ih (done ++ [item]) next (by simpa using hitems))
  exact hrest items [] start rfl

/-- A deed for each of some items that keeps something. -/
theorem forM {f : γ → Attempt PUnit} (items : List γ)
    (hstep : ∀ item ∈ items, Keeps fact (f item)) : Keeps fact (items.forM f) := by
  induction items with
  | nil => exact .pure (fun _ hfact => hfact)
  | cons item rest ih =>
      exact (hstep item List.mem_cons_self).bind
        (fun _ => ih (fun other hother => hstep other (List.mem_cons_of_mem _ hother)))

end Triple

/-- What is kept first and then is kept. -/
theorem Keeps.seq {action : Attempt α} {next : α → Attempt β} (hfirst : Keeps fact action)
    (hnext : ∀ value, Keeps fact (next value)) : Keeps fact (action >>= next) :=
  Triple.bind hfirst hnext

/-- Facts about many things that are kept are kept together. -/
theorem Keeps.all {facts : γ → Engine → Prop} (items : List γ) {action : Attempt α}
    (hkeeps : ∀ item ∈ items, Keeps (facts item) action) :
    Keeps (fun engine => ∀ item ∈ items, facts item engine) action :=
  fun engine hfacts =>
    ⟨fun value hvalue item hitem => (hkeeps item hitem engine (hfacts item hitem)).1 value hvalue,
      fun error herror item hitem => (hkeeps item hitem engine (hfacts item hitem)).2 error herror⟩

/-- What holds however it ends holds afterwards. -/
theorem Triple.after {action : Attempt α} (htriple : Triple pre action (fun _ => fact) fact)
    {engine : Engine} (hpre : pre engine) : fact (engine.attempt action).2 := by
  cases hended : (engine.attempt action).1 with
  | ok value => exact (htriple engine hpre).1 value hended
  | error error => exact (htriple engine hpre).2 error hended

/-- What holds afterwards, however it ends, is kept. -/
theorem Keeps.of_after {action : Attempt α}
    (hafter : ∀ engine, fact engine → fact (engine.attempt action).2) : Keeps fact action :=
  fun engine hfact => ⟨fun _ _ => hafter engine hfact, fun _ _ => hafter engine hfact⟩

end Attempt

/-! ## Reading declarations -/

namespace Attempt

/-- What a module asks for is what the specifiers it has named lead to, and the answers are
remembered. -/
structure Heard (id : ModuleId) (specifiers : List String) (analysis : Analysis) (engine : Engine) :
    Prop where
  asked : ∀ specifier ∈ specifiers, ∃ resolved,
    engine.resolver.remembered? specifier (some id) = some resolved ∧
      resolved.id ∈ analysis.requested
  named : ∀ other ∈ analysis.requested, ∃ specifier ∈ specifiers, ∃ resolved,
    engine.resolver.remembered? specifier (some id) = some resolved ∧ resolved.id = other

section

variable {id : ModuleId} {specifiers : List String} {analysis analysis' : Analysis} {engine : Engine}

/-- At first nothing has been named. -/
theorem heard_empty (id : ModuleId) (engine : Engine) : Heard id [] Analysis.empty engine :=
  ⟨nofun, nofun⟩

theorem Heard.of_requested (hheard : Heard id specifiers analysis engine)
    (hrequested : analysis'.requested = analysis.requested) :
    Heard id specifiers analysis' engine := by
  refine ⟨fun specifier hmem => ?_, fun other hother => ?_⟩
  · rw [hrequested]
    exact hheard.asked specifier hmem
  · rw [hrequested] at hother
    exact hheard.named other hother

/-- One more specifier has been named. -/
theorem Heard.request (hheard : Heard id specifiers analysis engine) {specifier : String}
    {resolved : Resolved}
    (hknown : engine.resolver.remembered? specifier (some id) = some resolved) :
    Heard id (specifiers ++ [specifier]) (analysis.request resolved.id) engine := by
  refine ⟨fun other hother => ?_, fun other hother => ?_⟩
  · rcases List.mem_append.mp hother with hother | hother
    · obtain ⟨found, hfound, hmem⟩ := hheard.asked other hother
      exact ⟨found, hfound, analysis.requested_subset_request resolved.id hmem⟩
    · rw [List.mem_singleton.mp hother]
      exact ⟨resolved, hknown, analysis.mem_requested_request resolved.id⟩
  · rcases analysis.mem_request_cases hother with hother | rfl
    · obtain ⟨named, hnamed, hfound⟩ := hheard.named other hother
      exact ⟨named, List.mem_append_left _ hnamed, hfound⟩
    · exact ⟨specifier, List.mem_append_right _ (List.mem_singleton_self _), resolved, hknown, rfl⟩

end

/-- The resolver after a specifier has been resolved and its module registered. -/
theorem resolver_resolveAndRegister (engine : Engine) (specifier : String)
    (referrer? : Option ModuleId) :
    (engine.attempt (resolveAndRegister specifier referrer?)).2.resolver =
      (engine.resolver.resolve engine.config engine.host specifier referrer?).2 := by
  rw [Engine.attempt_resolveAndRegister, Engine.attempt_resolve]
  generalize engine.resolver.resolve engine.config engine.host specifier referrer? = answer
  obtain ⟨result, resolver⟩ := answer
  cases result <;> rfl

theorem keeps_heard (id : ModuleId) (specifiers : List String) (analysis : Analysis)
    (specifier : String) (referrer? : Option ModuleId) :
    Keeps (Heard id specifiers analysis) (resolveAndRegister specifier referrer?) := by
  refine .of_after (fun engine hheard => ⟨fun named hnamed => ?_, fun other hother => ?_⟩)
  · obtain ⟨resolved, hknown, hmem⟩ := hheard.asked named hnamed
    refine ⟨resolved, ?_, hmem⟩
    rw [resolver_resolveAndRegister]
    exact Resolver.remembered_resolve_of_remembered hknown
  · obtain ⟨named, hnamed, resolved, hknown, hid⟩ := hheard.named other hother
    refine ⟨named, hnamed, resolved, ?_, hid⟩
    rw [resolver_resolveAndRegister]
    exact Resolver.remembered_resolve_of_remembered hknown

variable {fact : Engine → Prop} {id : ModuleId} {done : List String}

/-- The answer is remembered when it is given. -/
theorem triple_register_remembered {specifier : String} {referrer? : Option ModuleId}
    (hkeeps : Keeps fact (resolveAndRegister specifier referrer?)) :
    Triple fact (resolveAndRegister specifier referrer?)
      (fun found engine => fact engine ∧
        engine.resolver.remembered? specifier referrer? = some found.1) fact := by
  refine Triple.also (fun found engine =>
    engine.resolver.remembered? specifier referrer? = some found.1) hkeeps ?_
  intro engine _ found hfound
  rw [resolver_resolveAndRegister]
  refine Resolver.remembered_of_resolve ?_
  rw [Engine.attempt_resolveAndRegister, Engine.attempt_resolve] at hfound
  generalize engine.resolver.resolve engine.config engine.host specifier referrer? = answer
    at hfound ⊢
  obtain ⟨result, resolver⟩ := answer
  cases result with
  | error error => cases hfound
  | ok resolved =>
      obtain rfl := Except.ok.inj hfound
      rfl

theorem triple_request {specifier : String} (analysis : Analysis)
    (hkeeps : Keeps fact (resolveAndRegister specifier (some id))) :
    Triple (fun engine => fact engine ∧ Heard id done analysis engine)
      (request id specifier analysis)
      (fun found engine => fact engine ∧ Heard id (done ++ [specifier]) found.2 engine) fact := by
  have hall := hkeeps.and (keeps_heard id done analysis specifier (some id))
  refine Triple.bind ((triple_register_remembered hall).imp (fun _ hpre => hpre)
    (fun _ _ hpost => hpost) (fun _ hfails => hfails.1)) (fun found => ?_)
  exact .pure (fun engine hpost => ⟨hpost.1.1, hpost.1.2.request hpost.2⟩)

theorem triple_addImports (analysis : Analysis) (declaration : ImportDeclaration)
    (hkeeps : Keeps fact (resolveAndRegister declaration.specifier (some id))) :
    Triple (fun engine => fact engine ∧ Heard id done analysis engine)
      (addImports id analysis declaration)
      (fun found engine => fact engine ∧ Heard id (done ++ [declaration.specifier]) found engine)
      fact :=
  (triple_request analysis hkeeps).bind (fun _ => .pure (fun _ hpost =>
    ⟨hpost.1, hpost.2.of_requested rfl⟩))

/-- The items of a declaration ask for no further module. -/
theorem requested_addItems {source? : Option ModuleId} {analysis analysis' : Analysis}
    {items : List ExportItem} (hadded : analysis.addItems id source? items = .ok analysis') :
    analysis'.requested = analysis.requested := by
  unfold Analysis.addItems at hadded
  refine foldlM_eq_ok_induction (fun other => other.requested = analysis.requested) hadded rfl ?_
  intro item _ other other' hother hstep
  obtain ⟨entry, -, hone⟩ := bind_eq_ok_iff.mp hstep
  rw [← hother]
  unfold Analysis.addExport at hone
  split at hone
  · split at hone
    · cases hone
    · obtain rfl := Except.ok.inj hone
      rfl
  · obtain rfl := Except.ok.inj hone
    rfl

theorem triple_addExports (analysis : Analysis) (declaration : ExportDeclaration)
    (hkeeps : ∀ specifier, declaration.source? = some specifier →
      Keeps fact (resolveAndRegister specifier (some id))) :
    Triple (fun engine => fact engine ∧ Heard id done analysis engine)
      (addExports id analysis declaration)
      (fun found engine => fact engine ∧
        Heard id (done ++ declaration.source?.toList) found engine) fact := by
  unfold addExports
  cases hsource : declaration.source? with
  | none =>
      refine .ofExcept (fun found hfound engine hpre => ⟨hpre.1, ?_⟩) (fun _ hpre => hpre.1)
      rw [Option.toList_none, List.append_nil]
      exact hpre.2.of_requested (requested_addItems hfound)
  | some specifier =>
      refine (triple_request analysis (hkeeps specifier hsource)).bind (fun found => ?_)
      refine .ofExcept (fun found' hfound' engine hpre => ⟨hpre.1, ?_⟩) (fun _ hpre => hpre.1)
      exact hpre.2.of_requested (requested_addItems hfound')

/-- Reading the declarations of a module resolves and registers the specifiers it names, and does
nothing else to the engine; in the end they are all remembered, and what they lead to is what the
module asks for. -/
theorem triple_analyzeModern (source : ModuleSource)
    (hkeeps : ∀ specifier ∈ source.specifiers,
      Keeps fact (resolveAndRegister specifier (some id))) :
    Triple fact (analyzeModern id source)
      (fun analysis engine => fact engine ∧ Heard id source.specifiers analysis engine) fact := by
  unfold analyzeModern
  have himports := Triple.foldlM
    (fun (done : List ImportDeclaration) analysis engine => fact engine ∧
      Heard id (done.map (·.specifier)) analysis engine)
    source.imports Analysis.empty (fun done declaration hearly analysis => by
      rw [List.map_append]
      refine triple_addImports analysis declaration (hkeeps _ (List.mem_append_left _ ?_))
      exact List.mem_map_of_mem (hearly.subset (by simp)))
  refine (himports.weaken (fun engine hfact => ⟨hfact, heard_empty id engine⟩)).bind
    (fun analysis => ?_)
  have hexports := Triple.foldlM
    (fun (done : List ExportDeclaration) analysis engine => fact engine ∧
      Heard id (source.imports.map (·.specifier) ++ done.filterMap (·.source?)) analysis engine)
    source.exports analysis (fun done declaration hearly analysis => by
      have hlast : (done ++ [declaration]).filterMap (·.source?) =
          done.filterMap (·.source?) ++ declaration.source?.toList := by
        rw [List.filterMap_append]
        cases hsource : declaration.source? <;> simp [hsource]
      rw [hlast, ← List.append_assoc]
      refine triple_addExports analysis declaration (fun specifier hsource => ?_)
      refine hkeeps specifier (List.mem_append_right _ ?_)
      exact List.mem_filterMap.mpr ⟨declaration, hearly.subset (by simp), hsource⟩)
  exact hexports.weaken (fun _ hpre => ⟨hpre.1, by simpa using hpre.2⟩)

end Attempt

end Linkage
