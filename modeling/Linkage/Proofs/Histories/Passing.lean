import Linkage.Proofs.Histories.Chronicles
import Linkage.Proofs.Runs.Arranging

/-!
# Turns in a pass

A pass takes the modules of an order one after the other.  When it is the turn of a module that leads
to no cycle, all that it asks for has settled and its names are those that linking gave it: bodies of
other modules leave its names alone.

* `Statement.Requires`, `Host.Scripted` : bodies that require no other module.
* `Store.Expects` : what is left to be done in a pass.
* `Ran.furnished` : the body of another module leaves a module furnished.
* `Expects.turn` : the next module has settled, or it is its turn.
* `Explored.expects_link` : what linking leaves for the pass to do.
-/

namespace Linkage

open Relation (ReflTransGen TransGen)

/-- Whether a statement requires another module. -/
def Statement.Requires : Statement → Prop
  | .require _ _ => True
  | _ => False

/-- The bodies of all modules are statements that require no other module. -/
def Host.Scripted (host : Host) : Prop :=
  ∀ id source, host.load id = .ok source → ∃ statements : List Statement,
    source.body = statements.map Instruction.statement ∧
      ∀ statement ∈ statements, ¬ statement.Requires

variable {config : Config} {host : Host}

namespace Store

variable {store next : Store} {id other : ModuleId} {ref ref' : RecordRef}
  {record record' : Record} {order rest : List ModuleId}

/-- No body runs, and nothing is linked but modules that are to be evaluated. -/
def Pauses (store : Store) (rest : List ModuleId) : Prop :=
  ∀ id ref record, store.Registered id ref record →
    record.status.isSettled = true ∨ record.status = .unlinked ∨ id ∈ rest

/-- The body of a module may begin: it is linked, or it is a legacy one that has been analyzed. -/
structure Ripe (store : Store) (id : ModuleId) (ref : RecordRef) (record : Record) : Prop where
  registered : store.Registered id ref record
  analyzed : record.analysis?.isSome
  sourced : record.source?.isSome
  status : record.status = match record.format with
    | .modern => .linked
    | .legacy => .unlinked

/-- What is left to be done in a pass. -/
structure Expects (config : Config) (host : Host) (rest : List ModuleId) (store : Store) : Prop where
  pauses : store.Pauses rest
  due : ∀ id ∈ rest, store.HasSettled id ∨ ∃ ref record, store.Ripe id ref record ∧
    (config.Acyclic host id → record.format = .modern → store.Furnished ref record)
  ordered : ∀ front back id, rest = front ++ id :: back → config.Acyclic host id →
    ¬ store.HasSettled id → ∀ other, config.Asks host id other →
    store.HasSettled other ∨ other ∈ front

/-! ## The bodies of other modules -/

theorem Regular.registered_of_requested (hregular : store.Regular)
    (hregistered : store.Registered id ref record) (hrequested : other ∈ record.requested) :
    ∃ ref' record', store.Registered other ref' record' := by
  obtain ⟨record', hfind⟩ := Option.isSome_iff_exists.mp
    (hregular.closed.found id ref record hregistered other hrequested)
  obtain ⟨ref', hregistered'⟩ := exists_registered_of_find hfind
  exact ⟨ref', record', hregistered'⟩

/-- What is bound in a module, and who owns it, is the same after a body has run. -/
theorem Ran.bound (hran : store.Ran ref record next) (hproper : store.Proper config host)
    (hregistered : store.Registered id ref record) (hfound : store.Registered other ref' record') :
    ∃ ended, next.Registered other ref' ended ∧ record'.KnownAs ended ∧
      ∀ name binding, record'.environment.find? name = some binding →
        ended.environment.find? name = some binding ∧ ∀ cell, binding = .cell cell →
          (next.cell? cell).map (·.owner) = (store.cell? cell).map (·.owner) := by
  have hsame := hran.knowsSame hregistered.record
  obtain ⟨ended, hended, hknown⟩ := hsame.record ref' record' hfound.record
  refine ⟨ended, ⟨(hsame.lookup other).trans hfound.lookup, hended⟩, hknown,
    fun name binding hbound => ⟨?_, ?_⟩⟩
  · by_cases href : ref' = ref
    · subst href
      obtain rfl := Option.some.inj (hfound.record.symm.trans hregistered.record)
      obtain ⟨ended', hended', -, -, -, -, -, hkept⟩ := hran.own
      obtain rfl := Option.some.inj (hended.symm.trans hended')
      exact hkept name binding hbound
    · obtain rfl := Option.some.inj (((hran.other ref' href).trans hfound.record).symm.trans hended)
      exact hbound
  · rintro cell rfl
    obtain ⟨found, hcell, -⟩ := hproper.rooted ref' record' hfound.record name cell hbound
    obtain ⟨value?, hcell', -⟩ := hran.cell cell found hcell
    rw [hcell, hcell']
    rfl

/-- An exported local name of a modern module that is linked is bound. -/
theorem Regular.bound_of_ownName (hregular : store.Regular) (hrecord : store.record? ref = some record)
    (hmodern : record.format = .modern) (hlinked : record.status.hasLinked = true) {name : String}
    (hname : OwnName record.exportEntries name) : (record.environment.find? name).isSome := by
  have hbound := (hregular.closed.coherent ref record hrecord).linked hlinked
  by_cases himport : ∃ entry ∈ record.imports, entry.as_ = name
  · obtain ⟨entry, hentry, rfl⟩ := himport
    exact hbound.imports hmodern entry hentry
  · obtain ⟨cell, hcell, -⟩ := hbound.owns hmodern name hname
      (fun entry hentry hsame => himport ⟨entry, hentry, hsame⟩)
    rw [hcell]
    rfl

/-- The body of another module leaves a module furnished. -/
theorem Ran.furnished (hran : store.Ran ref record next) (hproper : store.Proper config host)
    (hregistered : store.Registered id ref record)
    (hlinked : record.format = .modern → record.status.hasLinked = true)
    (hregistered' : store.Registered other ref' record') (hne : other ≠ id)
    (hfurnished : store.Furnished ref' record') : next.Furnished ref' record' := by
  have hregular := hproper.regular
  have hmodules : ∀ id, (∃ ref record, store.Registered id ref record) →
      ∃ ref record record', store.Registered id ref record ∧ next.Registered id ref record' ∧
        record'.id = record.id ∧ record'.format = record.format ∧
        record'.exportEntries = record.exportEntries ∧
        (record.format = .modern → ∀ name, OwnName record.exportEntries name →
          record'.environment.find? name = record.environment.find? name ∧
          ∀ cell, record.environment.find? name = some (.cell cell) →
            (next.cell? cell).map (·.owner) = (store.cell? cell).map (·.owner)) := by
    rintro id' ⟨at_, found, hfound⟩
    obtain ⟨ended, hended, hknown, hkept⟩ := hran.bound hproper hregistered hfound
    refine ⟨at_, found, ended, hfound, hended, hknown.id, hknown.format, ?_,
      fun hmodern name hname => ?_⟩
    · unfold Record.exportEntries
      rw [hknown.analysis]
    · have hsame : ended.environment.find? name = found.environment.find? name := by
        by_cases href : at_ = ref
        · subst href
          obtain rfl := Option.some.inj (hfound.record.symm.trans hregistered.record)
          obtain ⟨binding, hbinding⟩ := Option.isSome_iff_exists.mp
            (hregular.bound_of_ownName hfound.record hmodern (hlinked hmodern) hname)
          rw [hbinding, (hkept name binding hbinding).1]
        · have := (hran.other at_ href).trans hfound.record
          rw [Option.some.inj (hended.record.symm.trans this)]
      exact ⟨hsame, fun cell hcell => (hkept name _ hcell).2 cell rfl⟩
  refine hfurnished.aligned (aligned_of_same hmodules ?_) ?_ ?_
  · rintro id' at_ found - hfound - entry hentry source hsource
    have hcoherent := hregular.closed.coherent _ _ hfound.record
    exact hregular.registered_of_requested hfound (hcoherent.source_of_export hentry hsource)
  · intro entry hentry
    have hcoherent := hregular.closed.coherent _ _ hregistered'.record
    exact hregular.registered_of_requested hregistered' (hcoherent.source_of_import hentry)
  · intro cell name hcell
    obtain ⟨value?, hcell', hvalue⟩ := hran.cell cell _ hcell
    rw [hcell', hvalue]
    rw [hproper.id_of_registered hregistered, hproper.id_of_registered hregistered']
    exact hne

/-! ## The next module -/

namespace Expects

/-- Of a module that has settled there is nothing to be done. -/
theorem skip (hexpects : Expects config host (id :: rest) store) (hsettled : store.HasSettled id) :
    Expects config host rest store where
  pauses other ref record hregistered := by
    rcases hexpects.pauses other ref record hregistered with hdone | hunlinked | hmem
    · exact .inl hdone
    · exact .inr (.inl hunlinked)
    · rcases List.mem_cons.mp hmem with rfl | hmem
      · obtain ⟨_, settled, hfound, hdone⟩ := hsettled
        obtain ⟨-, rfl⟩ := hregistered.unique hfound
        exact .inl hdone
      · exact .inr (.inr hmem)
  due other hother := hexpects.due other (List.mem_cons_of_mem _ hother)
  ordered front back other hrest hacyclic hwaits last hasks := by
    rcases hexpects.ordered (id :: front) back other (by rw [hrest]; rfl) hacyclic hwaits last hasks
      with hdone | hmem
    · exact .inl hdone
    · rcases List.mem_cons.mp hmem with rfl | hmem
      · exact .inl hsettled
      · exact .inr hmem

/-- **It is the turn of the next module**, unless it has settled. -/
theorem turn (hexpects : Expects config host (id :: rest) store) (hscripted : host.Scripted)
    (hproper : store.Proper config host) (hwaits : ¬ store.HasSettled id) (place : Nat) :
    ∃ turn : BodyTurn, turn.Fair config host ∧ turn.before = store ∧ turn.place = place ∧
      turn.id = id ∧ store.Ripe id turn.ref turn.record ∧
      (∀ statement ∈ turn.statements, ¬ statement.Requires) ∧
      Expects config host rest turn.after := by
  obtain ⟨ref, record, hripe, hfurnished⟩ :=
    (hexpects.due id List.mem_cons_self).resolve_left hwaits
  obtain ⟨source, hsource⟩ := Option.isSome_iff_exists.mp hripe.sourced
  obtain ⟨statements, hbody, hquiet⟩ := hscripted record.id source
    ((hproper.foretold id ref record hripe.registered).source source hsource)
  have hid := hproper.id_of_registered hripe.registered
  have hfair : BodyTurn.Fair config host ⟨place, id, ref, record, statements, store⟩ :=
    { proper := hproper
      registered := hripe.registered
      startable := ⟨hripe.analyzed, ⟨source, hsource, hbody⟩, hripe.status⟩
      provided := fun hacyclic => ⟨fun other hasks =>
        (hexpects.ordered [] rest id rfl hacyclic hwaits other (hid ▸ hasks)).resolve_right
          List.not_mem_nil, hfurnished hacyclic⟩ }
  refine ⟨_, hfair, rfl, rfl, rfl, hripe, hquiet, ?_⟩
  have hran := hfair.ran
  have hleaves := hfair.leaves
  have hsettles := hfair.settles
  generalize BodyTurn.after ⟨place, id, ref, record, statements, store⟩ = last
    at hran hleaves hsettles ⊢
  have hlinked : record.format = .modern → record.status.hasLinked = true := by
    intro hmodern
    rw [hripe.status, hmodern]
    rfl
  -- a module other than the one that has run is as it was
  have hother {other : ModuleId} {ref' : RecordRef} {record' : Record}
      (hregistered : last.Registered other ref' record') (hne : other ≠ id) :
      store.Registered other ref' record' := by
    have hlookup := ((hran.knowsSame hripe.registered.record).lookup other).symm.trans
      hregistered.lookup
    refine ⟨hlookup, (hran.other ref' ?_).symm.trans hregistered.record⟩
    rintro rfl
    exact hne (hproper.regular.living.named.unique hripe.registered.lookup hlookup)
  refine ⟨fun other ref' record' hregistered => ?_, fun other hmem => ?_,
    fun front back other hrest hacyclic hnot last' hasks => ?_⟩
  · by_cases hne : other = id
    · obtain ⟨_, settled, hfound, hdone⟩ := hne ▸ hsettles
      obtain ⟨-, rfl⟩ := hregistered.unique hfound
      exact .inl hdone
    · rcases hexpects.pauses other ref' record' (hother hregistered hne) with hdone | hfree | hdue
      · exact .inl hdone
      · exact .inr (.inl hfree)
      · exact .inr (.inr ((List.mem_cons.mp hdue).resolve_left hne))
  · by_cases hne : other = id
    · exact .inl (hne ▸ hsettles)
    · rcases hexpects.due other (List.mem_cons_of_mem _ hmem) with
        hdone | ⟨ref', record', hripe', hfurnished'⟩
      · exact .inl (hleaves.hasSettled hdone)
      · refine .inr ⟨ref', record', { hripe' with registered := ⟨?_, ?_⟩ },
          fun hacyclic hmodern => hran.furnished hproper hripe.registered hlinked
            hripe'.registered hne (hfurnished' hacyclic hmodern)⟩
        · exact hleaves.lookup other ref' hripe'.registered.lookup
        · rw [hran.other ref' ?_, hripe'.registered.record]
          rintro rfl
          exact hne (hproper.regular.living.named.unique hripe.registered.lookup
            hripe'.registered.lookup)
  · rcases hexpects.ordered (id :: front) back other (by rw [hrest]; rfl) hacyclic
      (fun hdone => hnot (hleaves.hasSettled hdone)) last' hasks with hdone | hmem
    · exact .inl (hleaves.hasSettled hdone)
    · rcases List.mem_cons.mp hmem with rfl | hmem
      · exact .inl hsettles
      · exact .inr hmem

end Expects

/-! ## What linking leaves -/

section Linking

variable {turns : List BodyTurn} {root : ModuleId} {graph : Graph}

/-- A module of a graph that waits and leads to no cycle stands behind all that it asks for. -/
theorem Explored.before_of_asks (hexplored : store.Explored root [] graph)
    (hproper : store.Proper config host) (hid : id ∈ graph.order) (hwaits : ¬ store.HasSettled id)
    (hacyclic : config.Acyclic host id) (hasks : config.Asks host id other) :
    graph.Before other id := by
  have hedges {one two : ModuleId} (hedge : store.Edge root one two) : config.Asks host one two := by
    obtain ⟨_, ⟨ref, record, hregistered, -, hanalyzed, rfl⟩, hmem⟩ := hedge
    have hsourced := (hproper.regular.closed.coherent _ _ hregistered.record).sourced hanalyzed
    rw [← hproper.id_of_registered hregistered]
    exact ((hproper.foretold _ _ _ hregistered).mem_dependencies_iff hsourced hanalyzed).mp hmem
  rcases hexplored.placed id hid with
    ⟨ref, record, hregistered, -, hsettled⟩ | ⟨_, ⟨ref, record, hregistered, -, hanalyzed, rfl⟩,
      -, hplaced⟩
  · exact absurd ⟨ref, record, hregistered, hsettled⟩ hwaits
  · have hsourced := (hproper.regular.closed.coherent _ _ hregistered.record).sourced hanalyzed
    have hforetold := hproper.foretold _ _ _ hregistered
    rw [← hproper.id_of_registered hregistered] at hasks
    refine (hplaced other ((hforetold.mem_dependencies_iff hsourced hanalyzed).mpr hasks)).resolve_right
      (fun hback => ?_)
    -- a back edge closes a cycle
    obtain ⟨hedge, hcycle, -⟩ := hexplored.back id other hback
    exact hacyclic id .refl (.head' (hedges hedge) (ReflTransGen.mono (fun _ _ => hedges) _ _ hcycle))

/-- Whatever it leads to has settled or stands before it. -/
theorem Explored.settled_or_front (hexplored : store.Explored root [] graph)
    (hchronicle : store.Chronicle config host turns) {front back : List ModuleId}
    (horder : graph.order = front ++ id :: back) (hwaits : ¬ store.HasSettled id)
    (hacyclic : config.Acyclic host id) (hreached : TransGen (config.Asks host) id other) :
    store.HasSettled other ∨ other ∈ front := by
  have hnodup : graph.order.Nodup := hexplored.nodup
  have hstep {one two : ModuleId} (hplace : graph.order.idxOf one ≤ front.length)
      (hone : one ∈ graph.order) (hreached : ReflTransGen (config.Asks host) id one)
      (hasks : config.Asks host one two) (hwaits : ¬ store.HasSettled one) : two ∈ front :=
    (hexplored.before_of_asks hchronicle.proper hone hwaits (hacyclic.of_reached hreached)
      hasks).mem_front hnodup horder hplace
  induction hreached with
  | single hasks =>
      refine .inr (hstep ?_ (by simp [horder]) .refl hasks hwaits)
      rw [horder] at hnodup ⊢
      rw [List.idxOf_append_of_notMem (fun hmem => (List.disjoint_of_nodup_append hnodup) hmem
        List.mem_cons_self), List.idxOf_cons_self]
      exact Nat.le_refl _
  | @tail middle last hreached hasks ih =>
      by_cases hsettled : store.HasSettled middle
      · exact .inl (hchronicle.settled_of_reached hsettled (hacyclic.of_reached hreached.to_reflTransGen)
          (.single hasks))
      · have hmem := ih.resolve_left hsettled
        refine .inr (hstep ?_ (by simp [horder, hmem]) hreached.to_reflTransGen hasks hsettled)
        rw [horder, List.idxOf_append_of_mem hmem]
        exact Nat.le_of_lt (List.idxOf_lt_length_of_mem hmem)

/-- A module that linking takes is furnished, if it leads to no cycle. -/
theorem Explored.furnished_link (hexplored : store.Explored root [] graph)
    (hchronicle : store.Chronicle config host turns) (hspans : store.Spans graph.order)
    (hok : (store.link graph.order).1 = .ok ()) (hid : id ∈ graph.order)
    (hregistered : store.Registered id ref record) (hmodern : record.format = .modern)
    (hunlinked : record.status = .unlinked) (hacyclic : config.Acyclic host id)
    (hrecord' : (store.link graph.order).2.record? ref = some record') :
    (store.link graph.order).2.Furnished ref record' := by
  have hproper := hchronicle.proper
  have hwaits : ¬ store.HasSettled id := by
    rintro ⟨_, found, hfound, hsettled⟩
    obtain ⟨-, rfl⟩ := hregistered.unique hfound
    rw [hunlinked] at hsettled
    cases hsettled
  obtain ⟨front, back, horder⟩ := List.append_of_mem hid
  rw [horder] at hok hrecord' ⊢
  have hregion : ∀ other, TransGen (config.Asks host) id other → ∃ ref' found,
      store.Registered other ref' found ∧
        (other ∈ front ∨ ref' ∉ store.pendingLinks (front ++ id :: back)) := by
    intro other hreached
    rcases hexplored.settled_or_front hchronicle horder hwaits hacyclic hreached with
      ⟨ref', found, hfound, hsettled⟩ | hfront
    · refine ⟨ref', found, hfound, .inr (fun hpending => ?_)⟩
      obtain ⟨_, -, found', hfound', -, hunlinked'⟩ := mem_pendingLinks.mp hpending
      obtain rfl := Option.some.inj (hfound.record.symm.trans hfound'.record)
      rw [hunlinked'] at hsettled
      cases hsettled
    · obtain ⟨ref', found, hfound⟩ : ∃ ref' found, store.Registered other ref' found := by
        rcases hexplored.placed other (by simp [horder, hfront]) with
          ⟨ref', found, hfound, -⟩ | ⟨_, ⟨ref', found, hfound, -⟩, -⟩
        · exact ⟨ref', found, hfound⟩
        · exact ⟨ref', found, hfound⟩
      exact ⟨ref', found, hfound, .inl hfront⟩
  refine Store.furnished_link hproper.regular.living.named (horder ▸ hspans.nodup) hregistered
    hmodern hunlinked hok hregion (fun other _ found hreached hfound _ entry hentry source
      hsource => ?_) (fun entry hentry => ?_) hrecord'
  · have hcoherent := hproper.regular.closed.coherent _ _ hfound.record
    exact hreached.tail (hproper.asks_of_requested hfound (hcoherent.source_of_export hentry hsource))
  · have hcoherent := hproper.regular.closed.coherent _ _ hregistered.record
    exact .single (hproper.asks_of_requested hregistered (hcoherent.source_of_import hentry))

/-- **What linking leaves for the pass to do.** -/
theorem Explored.expects_link (hexplored : store.Explored root [] graph)
    (hchronicle : store.Chronicle config host turns) (hspans : store.Spans graph.order)
    (hpauses : store.Pauses []) (hok : (store.link graph.order).1 = .ok ()) :
    Expects config host graph.order (store.link graph.order).2 := by
  have hproper := hchronicle.proper
  have hnamed := hproper.regular.living.named
  have hrebinds := store.rebinds_link graph.order
  have hnodup := nodup_pendingLinks hnamed hspans.nodup
  have hleaves := leavesSettled_link store graph.order
  refine ⟨fun id ref record' hregistered' => ?_, fun id hid => ?_,
    fun front back id horder hacyclic hwaits other hasks => ?_⟩
  · have hlookup := (hrebinds.lookup id).symm.trans hregistered'.lookup
    obtain ⟨record, hrecord, -⟩ := hnamed id ref hlookup
    rcases link_record hnodup hrecord with ⟨-, hkept⟩ | ⟨hpending, -⟩
    · obtain rfl := Option.some.inj (hkept.symm.trans hregistered'.record)
      rcases hpauses id ref record ⟨hlookup, hrecord⟩ with hdone | hfree | hmem
      · exact .inl hdone
      · exact .inr (.inl hfree)
      · cases hmem
    · obtain ⟨id', hmem, found, hfound, -⟩ := mem_pendingLinks.mp hpending
      exact .inr (.inr (hnamed.unique hlookup hfound.lookup ▸ hmem))
  · by_cases hdone : store.HasSettled id
    · exact .inl (hleaves.hasSettled hdone)
    · rcases hexplored.placed id hid with ⟨ref, record, hregistered, -, hsettled⟩ |
        ⟨_, ⟨ref, record, hregistered, -, hanalyzed, -⟩, -⟩
      · exact absurd ⟨ref, record, hregistered, hsettled⟩ hdone
      have hsourced := (hproper.regular.closed.coherent _ _ hregistered.record).sourced hanalyzed
      have hunlinked : record.status = .unlinked := by
        rcases hpauses id ref record hregistered with hsettled | hfree | hmem
        · exact absurd ⟨ref, record, hregistered, hsettled⟩ hdone
        · exact hfree
        · cases hmem
      have hlookup := (hrebinds.lookup id).trans hregistered.lookup
      refine .inr ?_
      rcases link_record hnodup hregistered.record with ⟨hnot, hkept⟩ | ⟨hpending, environment, hkept⟩
      · have hlegacy : record.format = .legacy := by
          cases hformat : record.format with
          | legacy => rfl
          | modern =>
              exact absurd (mem_pendingLinks.mpr ⟨id, hid, record, hregistered, hformat, hunlinked⟩) hnot
        exact ⟨ref, record, ⟨⟨hlookup, hkept⟩, hanalyzed, hsourced, by rw [hunlinked, hlegacy]⟩,
          fun _ hmodern => by cases hlegacy.symm.trans hmodern⟩
      · obtain ⟨_, -, found, hfound, hmodern, -⟩ := mem_pendingLinks.mp hpending
        obtain rfl := Option.some.inj (hfound.record.symm.trans hregistered.record)
        rw [hok] at hkept
        refine ⟨ref, _, ⟨⟨hlookup, hkept⟩, hanalyzed, hsourced, ?_⟩, fun hacyclic _ =>
          hexplored.furnished_link hchronicle hspans hok hid hregistered hmodern hunlinked
            hacyclic hkept⟩
        have hformat : Record.format { found with status := .linked, environment } = .modern := hmodern
        rw [hformat]
  · refine (hexplored.settled_or_front hchronicle horder
      (fun hdone => hwaits (hleaves.hasSettled hdone)) hacyclic (.single hasks)).imp_left ?_
    exact hleaves.hasSettled

end Linking

end Store

end Linkage
