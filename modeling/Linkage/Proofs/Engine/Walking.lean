import Linkage.Engine.Graph
import Linkage.Proofs.Engine.Analyzing

/-!
# What a walk lists

The order of a graph lists no module twice, and whatever a listed module leads to is listed too: a
settled module leads nowhere, and one that is not settled has been analyzed.  While modules are
still being walked, what a listed module leads to may also be one of these.

* `Store.Walked` : the invariant of the walk.
* `Attempt.meets_walk` : every walk keeps it, and takes the module walked over into the order.
* `Attempt.meets_buildGraph` : the order of a graph spans what its modules lead to; the walk fails
  for want of a record only if an analyzed module asks for one that is not there.
-/

namespace Linkage

theorem Record.Touched.dependencies {record record' : Record}
    (htouched : record.Touched record') (hanalyzed : record.analysis?.isSome) :
    record'.dependencies = record.dependencies := by
  unfold Record.dependencies Record.requested
  rw [htouched.format, htouched.analyzed hanalyzed]

namespace Store

/-- A module has been analyzed, and these are the modules walked after it. -/
def DependsOn (store : Store) (id : ModuleId) (dependencies : List ModuleId) : Prop :=
  ∃ ref record, store.Registered id ref record ∧ record.analysis?.isSome ∧
    dependencies = record.dependencies

/-- A module is settled, or it has been analyzed and leads only to modules that are reached. -/
def LeadsTo (store : Store) (reached : List ModuleId) (id : ModuleId) : Prop :=
  ∃ ref record, store.Registered id ref record ∧ (record.status.isSettled = true ∨
    record.analysis?.isSome ∧ record.dependencies ⊆ reached)

/-- How far a walk has come: `order` are the modules listed, `above` those being walked. -/
structure Walked (store : Store) (above order : List ModuleId) : Prop where
  nodup : order.Nodup
  apart : ∀ id ∈ order, id ∉ above
  leads : ∀ id ∈ order, store.LeadsTo (order ++ above) id

/-- A list of modules that leads nowhere else. -/
abbrev Spans (store : Store) (order : List ModuleId) : Prop := store.Walked [] order

/-- Every module that an analyzed module asks for has a record. -/
def RequestsFound (store : Store) : Prop :=
  ∀ id ref record, store.Registered id ref record →
    ∀ dependency ∈ record.requested, (store.find? dependency).isSome

theorem Touch.registered {store store' : Store} (htouch : store.Touch store') {id : ModuleId}
    {ref : RecordRef} {record : Record} (hregistered : store.Registered id ref record) :
    ∃ record', store'.Registered id ref record' ∧ record.Touched record' := by
  obtain ⟨record', hrecord', htouched⟩ := htouch.record hregistered.record
  exact ⟨record', ⟨htouch.lookup hregistered.lookup, hrecord'⟩, htouched⟩

theorem DependsOn.lasting (id : ModuleId) (dependencies : List ModuleId) :
    Lasting (fun store => store.DependsOn id dependencies) := by
  rintro store store' htouch ⟨ref, record, hregistered, hanalyzed, rfl⟩
  obtain ⟨record', hregistered', htouched⟩ := htouch.registered hregistered
  refine ⟨ref, record', hregistered', ?_, (htouched.dependencies hanalyzed).symm⟩
  rw [htouched.analyzed hanalyzed]
  exact hanalyzed

theorem LeadsTo.lasting (reached : List ModuleId) (id : ModuleId) :
    Lasting (fun store => store.LeadsTo reached id) := by
  rintro store store' htouch ⟨ref, record, hregistered, hleads⟩
  obtain ⟨record', hregistered', htouched⟩ := htouch.registered hregistered
  refine ⟨ref, record', hregistered', ?_⟩
  rcases hleads with hsettled | ⟨hanalyzed, hsub⟩
  · exact .inl (by rw [htouched.status, hsettled])
  · refine .inr ⟨?_, ?_⟩
    · rw [htouched.analyzed hanalyzed]
      exact hanalyzed
    · rw [htouched.dependencies hanalyzed]
      exact hsub

theorem LeadsTo.mono {store : Store} {reached reached' : List ModuleId} {id : ModuleId}
    (hleads : store.LeadsTo reached id) (hsub : reached ⊆ reached') :
    store.LeadsTo reached' id := by
  obtain ⟨ref, record, hregistered, hleads⟩ := hleads
  refine ⟨ref, record, hregistered, hleads.imp (fun hsettled => hsettled) ?_⟩
  rintro ⟨hanalyzed, hreached⟩
  exact ⟨hanalyzed, fun _ hmem => hsub (hreached hmem)⟩

namespace Walked

variable {store : Store} {above order : List ModuleId} {id : ModuleId}

theorem lasting (above order : List ModuleId) :
    Lasting (fun store => store.Walked above order) :=
  fun _ _ htouch hwalked => ⟨hwalked.nodup, hwalked.apart,
    fun id hid => LeadsTo.lasting _ id _ _ htouch (hwalked.leads id hid)⟩

/-- A module that is not listed yet may be walked. -/
theorem enter (hwalked : store.Walked above order) (hid : id ∉ order) :
    store.Walked (id :: above) order := by
  refine ⟨hwalked.nodup, ?_, ?_⟩
  · intro other hother
    rw [List.mem_cons, not_or]
    exact ⟨fun hsame => hid (hsame ▸ hother), hwalked.apart other hother⟩
  · intro other hother
    exact (hwalked.leads other hother).mono (by grind)

/-- When a walk is over, its module is listed and is no longer being walked. -/
theorem leave (hwalked : store.Walked (id :: above) order) (habove : id ∉ above)
    (hleads : store.LeadsTo (id :: order ++ above) id) : store.Walked above (order ++ [id]) := by
  have hid : id ∉ order := fun hmem => hwalked.apart id hmem List.mem_cons_self
  refine ⟨?_, ?_, ?_⟩
  · rw [List.nodup_append]
    refine ⟨hwalked.nodup, by simp, ?_⟩
    intro other hother last hlast hsame
    exact hid (List.mem_singleton.mp hlast ▸ hsame ▸ hother)
  · intro other hother
    rcases List.mem_append.mp hother with hother | hother
    · exact fun hmem => hwalked.apart other hother (List.mem_cons_of_mem _ hmem)
    · rw [List.mem_singleton.mp hother]
      exact habove
  · intro other hother
    rcases List.mem_append.mp hother with hother | hother
    · exact (hwalked.leads other hother).mono (by grind)
    · rw [List.mem_singleton.mp hother]
      exact hleads.mono (by grind)

end Walked

end Store

namespace Engine

variable {engine : Engine}

/-- A registered module is found. -/
theorem attempt_registered {id : ModuleId} {ref : RecordRef} {record : Record}
    (hregistered : engine.store.Registered id ref record) :
    engine.attempt (Attempt.registered id) = (.ok (ref, record), engine) := by
  unfold Attempt.registered
  rw [attempt_bind, attempt_get]
  dsimp only
  rw [hregistered.lookup, hregistered.find]
  rfl

/-- A module is registered, or nothing else happens than that it is not found. -/
theorem attempt_registered_cases (engine : Engine) (id : ModuleId) :
    (∃ ref record, engine.store.Registered id ref record) ∨
      ∃ error, engine.attempt (Attempt.registered id) = (.error error, engine) := by
  unfold Attempt.registered
  rw [attempt_bind, attempt_get]
  dsimp only
  cases hlookup : engine.store.lookup? id with
  | none => exact .inr ⟨_, rfl⟩
  | some ref =>
      cases hfind : engine.store.find? id with
      | none => exact .inr ⟨_, rfl⟩
      | some record => exact .inl ⟨ref, record, hlookup, by rw [← hfind, Store.find?, hlookup]; rfl⟩

end Engine

namespace Attempt

variable {host : Host} {pre : Store → Prop}

theorem meets_registered (id : ModuleId) :
    Meets host pre (registered id)
      (fun found store => pre store ∧ store.Registered id found.1 found.2)
      (fun _ store => pre store ∧ store.find? id = none) := by
  unfold registered
  refine .get_bind (fun engine _ hpre => ?_)
  dsimp only
  cases hlookup : engine.store.lookup? id with
  | none =>
      refine .throw ?_
      rintro store rfl
      exact ⟨hpre, by simp [Store.find?, hlookup]⟩
  | some ref =>
      cases hfind : engine.store.find? id with
      | none =>
          refine .throw ?_
          rintro store rfl
          exact ⟨hpre, hfind⟩
      | some record =>
          refine .pure ?_
          rintro store rfl
          obtain ⟨ref', hregistered⟩ := Store.exists_registered_of_find hfind
          obtain rfl := Option.some.inj (hlookup.symm.trans hregistered.lookup)
          exact ⟨hpre, hregistered⟩

/-- Why a walk fails: the host said so, or an analyzed module asks for one without a record. -/
def WalkFails (host : Host) (error : ModuleError) (store : Store) : Prop :=
  Spares host error ∨ ¬ store.RequestsFound

/-- Analyzing a registered module says what it depends on. -/
theorem meets_analyze_registered (host : Host) (id : ModuleId) (ref : RecordRef) (record : Record) :
    Meets host (fun store => store.Registered id ref record) (analyze ref record)
      (fun dependencies store => store.DependsOn id dependencies)
      (fun error _ => Spares host error) := by
  have hlasting : Store.Lasting (fun store => store.lookup? id = some ref) :=
    fun _ _ htouch hlookup => htouch.lookup hlookup
  refine (meets_analyze.frame hlasting).imp (fun _ hpre => ⟨hpre.record, hpre.lookup⟩) ?_
    (fun _ _ hfails => hfails)
  rintro dependencies store ⟨⟨record', hrecord', hanalyzed, hdependencies⟩, hlookup⟩
  exact ⟨ref, record', ⟨hlookup, hrecord'⟩, hanalyzed, hdependencies⟩

/-- If every module of a list is reached when it is its turn, all are reached in the end. -/
theorem meets_reach {fails : ModuleError → Store → Prop} {fact : Store → Prop}
    {f : Graph → ModuleId → Attempt Graph} {above : List ModuleId} (hlasting : Store.Lasting fact)
    (ids : List ModuleId) (graph : Graph)
    (hstep : ∀ id ∈ ids, ∀ graph : Graph,
      Meets host (fun store => store.Walked above graph.order ∧ fact store) (f graph id)
        (fun graph' store => store.Walked above graph'.order ∧ graph.order ⊆ graph'.order ∧
          id ∈ graph'.order ++ above) fails) :
    Meets host (fun store => store.Walked above graph.order ∧ fact store) (ids.foldlM f graph)
      (fun graph' store => store.Walked above graph'.order ∧ graph.order ⊆ graph'.order ∧
        (∀ id ∈ ids, id ∈ graph'.order ++ above) ∧ fact store) fails := by
  induction ids generalizing graph with
  | nil =>
      refine .pure ?_
      rintro store ⟨hwalked, hfact⟩
      exact ⟨hwalked, fun _ hmem => hmem, by simp, hfact⟩
  | cons id rest ih =>
      rw [List.foldlM_cons]
      have hone := (hstep id List.mem_cons_self graph).frame hlasting
      refine Meets.bind (hone.imp (fun _ hpre => ⟨hpre, hpre.2⟩) (fun _ _ hpost => hpost)
        (fun _ _ hfails => hfails)) (fun graph' => ?_)
      intro engine hhost hpre
      obtain ⟨⟨hwalked, hsub, hid⟩, hfact⟩ := hpre
      have hended := ih graph' (fun other hother => hstep other (List.mem_cons_of_mem _ hother))
        engine hhost ⟨hwalked, hfact⟩
      refine ⟨hended.host, hended.touches, ?_, hended.error⟩
      intro graph'' hok
      obtain ⟨hwalked', hsub', hrest, hfact'⟩ := hended.ok graph'' hok
      refine ⟨hwalked', fun _ hmem => hsub' (hsub hmem), ?_, hfact'⟩
      intro other hother
      rcases List.mem_cons.mp hother with rfl | hother
      · exact (List.mem_append.mp hid).elim
          (fun hmem => List.mem_append_left _ (hsub' hmem)) (List.mem_append_right _)
      · exact hrest other hother

/-- A module that an analyzed module depends on has a record, or some analyzed module asks for one
that has none. -/
theorem walkFails_of_dependsOn {error : ModuleError} {store : Store} {id dependency : ModuleId}
    {dependencies : List ModuleId} (hdepends : store.DependsOn id dependencies)
    (hmem : dependency ∈ dependencies) (hnone : store.find? dependency = none) :
    WalkFails host error store := by
  obtain ⟨ref, record, hregistered, -, rfl⟩ := hdepends
  refine .inr (fun hfound => ?_)
  unfold Record.dependencies at hmem
  split at hmem
  · simpa [hnone] using hfound id ref record hregistered dependency hmem
  · cases hmem

/-- A walk lists the module walked over, keeps what is listed, and leads nowhere else. -/
theorem meets_walk (fuel : Nat) (above : List ModuleId) (id : ModuleId)
    (dependencies : List ModuleId) (graph : Graph) (habove : id ∉ above) :
    Meets host
      (fun store => store.Walked (id :: above) graph.order ∧ store.DependsOn id dependencies)
      (walk fuel (id :: above) id dependencies graph)
      (fun graph' store => store.Walked above graph'.order ∧ graph.order ⊆ graph'.order ∧
        id ∈ graph'.order)
      (WalkFails host) := by
  -- on the fuel, since a walk goes down into modules that may lead back to those above
  induction fuel generalizing above id dependencies graph with
  | zero => exact .throw (fun store _ => .inl (fun other hother => by cases hother))
  | succ fuel ih =>
      unfold walk
      refine (meets_reach (Store.DependsOn.lasting id dependencies) dependencies graph ?_).bind
        (fun graph' => ?_)
      · -- a dependency is being walked, is listed already, is a leaf, or is walked now
        intro dependency hdependency graph
        by_cases hcycle : dependency ∈ id :: above
        · rw [if_pos hcycle]
          refine .pure ?_
          rintro store ⟨hwalked, -⟩
          exact ⟨hwalked, fun _ hmem => hmem, List.mem_append_right _ hcycle⟩
        · rw [if_neg hcycle]
          by_cases hlisted : dependency ∈ graph.order
          · rw [if_pos hlisted]
            refine .pure ?_
            rintro store ⟨hwalked, -⟩
            exact ⟨hwalked, fun _ hmem => hmem, List.mem_append_left _ hlisted⟩
          · rw [if_neg hlisted]
            refine ((meets_registered dependency).imp (fun _ hpre => hpre) (fun _ _ hpost => hpost)
              ?_).bind ?_
            · rintro error store ⟨⟨-, hdepends⟩, hnone⟩
              exact walkFails_of_dependsOn hdepends hdependency hnone
            · rintro ⟨ref, record⟩
              dsimp only
              by_cases hsettled : record.status.isSettled = true
              · rw [if_pos hsettled]
                refine .pure ?_
                rintro store ⟨⟨hwalked, -⟩, hregistered⟩
                -- a settled module is a leaf, so it is entered and left at once
                refine ⟨(hwalked.enter hlisted).leave hcycle
                  ⟨ref, record, hregistered, .inl hsettled⟩, ?_, ?_⟩
                · exact fun _ hmem => List.mem_append_left _ hmem
                · exact List.mem_append_left _ (List.mem_append_right _ (by simp))
              · rw [if_neg hsettled]
                have hanalyze := (meets_analyze_registered host dependency ref record).frame
                  (Store.Walked.lasting (id :: above) graph.order)
                refine (hanalyze.imp ?_ (fun _ _ hpost => hpost) (fun _ _ h => .inl h)).bind
                  (fun further => ?_)
                · rintro store ⟨⟨hwalked, -⟩, hregistered⟩
                  exact ⟨hregistered, hwalked⟩
                · refine (ih (id :: above) dependency further graph hcycle).imp ?_ ?_
                    (fun _ _ hfails => hfails)
                  · rintro store ⟨hdepends, hwalked⟩
                    exact ⟨hwalked.enter hlisted, hdepends⟩
                  · rintro graph' store ⟨hwalked, hsub, hmem⟩
                    exact ⟨hwalked, hsub, List.mem_append_left _ hmem⟩
      · refine .pure ?_
        rintro store ⟨hwalked, hsub, hreached, ref, record, hregistered, hanalyzed, rfl⟩
        refine ⟨hwalked.leave habove ⟨ref, record, hregistered, .inr ⟨hanalyzed, ?_⟩⟩, ?_, ?_⟩
        · intro other hother
          have := hreached other hother
          grind
        · exact fun _ hmem => List.mem_append_left _ (hsub hmem)
        · exact List.mem_append_right _ (by simp)

/-- The order of a graph leads nowhere else, and its root is in it. -/
theorem meets_buildGraph (root : ModuleId) :
    Meets host (fun _ => True) (buildGraph root)
      (fun graph store => store.Spans graph.order ∧ root ∈ graph.order)
      (fun error store => WalkFails host error store ∨ store.find? root = none) := by
  unfold buildGraph
  refine ((meets_registered root).imp (fun _ hpre => hpre) (fun _ _ hpost => hpost)
    (fun _ _ hfails => .inr hfails.2)).bind ?_
  rintro ⟨ref, record⟩
  refine ((meets_analyze_registered host root ref record).imp (fun _ hpre => hpre.2)
    (fun _ _ hpost => hpost) (fun _ _ hfails => .inl (.inl hfails))).bind (fun dependencies => ?_)
  refine .get_bind (fun engine _ hdepends => ?_)
  refine (meets_walk engine.reach [] root dependencies (.empty root) (by simp)).imp ?_ ?_
    (fun _ _ hfails => .inl hfails)
  · -- nothing is listed yet, and only the root is being walked
    rintro store rfl
    exact ⟨⟨by simp [Graph.empty], by simp [Graph.empty], by simp [Graph.empty]⟩, hdepends⟩
  · rintro graph store ⟨hwalked, -, hroot⟩
    exact ⟨hwalked, hroot⟩

end Attempt

end Linkage
