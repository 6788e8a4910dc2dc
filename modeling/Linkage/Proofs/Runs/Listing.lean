import Linkage.Proofs.Exports.Names
import Linkage.Proofs.Linking.Failing
import Linkage.Proofs.Runs.LiveBindings

/-!
# Namespaces list what resolves

The list of exported names takes every name that an entry gives, also one that is only exported
anew from another module.  Linking has tried each such name, and what a linked module leads to
exports the same ever after, so none of them is missing.  The other way round, whatever a request
comes to along `export *` gives a name that the list has.

* `Store.Tried` : the invariant, what linking has tried still resolves.
* `Offers.shows`, `Shows.offers` : a module that is ready shows the names that lead somewhere.
* `Machine.namespaces_list_what_resolves` : every state of every run.
-/

namespace Linkage

namespace Store

/-- Whatever name a linked module exports anew from another leads to one thing there. -/
def Tried (store : Store) : Prop :=
  ∀ id ref record, store.Registered id ref record → record.format = .modern →
    record.status.hasLinked = true → ∀ as_ source name,
      .indirect as_ source (.name name) ∈ record.exportEntries →
        ∃ binding, store.resolveExport source name = .found binding

variable {store store' : Store} {id : ModuleId} {name : String}

/-- After linking, whatever the records taken ask for leads to one thing. -/
theorem link_resolves {region : ModuleId → Prop} {order : List ModuleId}
    (hoffering : Offering region ((store.pendingLinks order).foldl beginLink store))
    (hsources : ∀ ref ∈ store.pendingLinks order, ∀ record, store.record? ref = some record →
      ∀ source name, record.AsksFor source name → region source)
    (hok : (store.link order).1 = .ok ()) {ref : RecordRef} (href : ref ∈ store.pendingLinks order)
    {record : Record} (hrecord : store.record? ref = some record) {source : ModuleId}
    {asked : String} (hasks : record.AsksFor source asked) :
    ∃ binding, (store.link order).2.resolveExport source asked = .found binding := by
  have hresolved :
      ¬ ((store.pendingLinks order).foldl beginLink store).Unresolved source asked := by
    intro hunresolved
    obtain ⟨error, herror⟩ := (link_fails_iff hoffering hsources).mpr
      ⟨ref, href, record, hrecord, source, asked, hasks, hunresolved⟩
    cases hok.symm.trans herror
  obtain ⟨_, -, -, -, honly⟩ := link_ok_bindsOnly hok
  rw [(honly.agreeOn hoffering).resolveExport (hsources ref href record hrecord source asked hasks)]
  unfold Unresolved at hresolved
  cases hanswer : ((store.pendingLinks order).foldl beginLink store).resolveExport source asked with
  | found binding => exact ⟨binding, rfl⟩
  | missing => exact absurd (.inl hanswer) hresolved
  | ambiguous => exact absurd (.inr hanswer) hresolved

/-! ## What is shown and what is on offer -/

/-- A module that lists a name offers it, unless it lists it for a re-export that was not tried. -/
theorem offers_of_lists (hclosed : store.Closed) (hspares : store.SparesDefault)
    (htried : store.Tried) (hready : store.Ready id) (hlists : store.Lists id name) :
    ∃ binding, store.Offers (id, name) binding := by
  obtain ⟨ref, record, hregistered, hgives⟩ := hlists
  obtain ⟨_, _, hfound, -, hlinked⟩ := hready
  obtain ⟨rfl, rfl⟩ := hfound.unique hregistered
  cases hformat : record.format with
  | legacy =>
      by_cases hdefault : name = "default"
      · subst hdefault
        exact ⟨_, .of_end (.exports hregistered hformat)⟩
      · obtain ⟨entry, hentry, hname⟩ := hgives.resolve_left (fun hleft => hdefault hleft.2)
        exact ⟨_, .of_end (.property hregistered hformat hdefault hentry hname)⟩
  | modern =>
      -- the first entry of the name decides
      obtain ⟨entry, hentry, hname⟩ := hgives.resolve_left (fun hleft => by simp_all)
      obtain ⟨first, hfirst⟩ : ∃ first, IsExplicit record.exportEntries name first := by
        cases hexplicit : explicitExport? record.exportEntries name with
        | none => exact absurd hname (explicitExport?_eq_none_iff.mp hexplicit entry hentry)
        | some first => exact ⟨first, explicitExport?_eq_some_iff.mp hexplicit⟩
      cases first with
      | own as_ localName =>
          obtain ⟨cell, howns⟩ := (hclosed.coherent _ record hregistered.record).owns
            (hspares.record hregistered.record) hformat (hlinked hformat) ⟨as_, hfirst.mem⟩
          exact ⟨_, .of_end (.own hregistered hformat hfirst howns)⟩
      | indirect as_ source imported =>
          cases imported with
          | star => exact ⟨_, .of_end (.star hregistered hformat hfirst)⟩
          | name imported =>
              obtain ⟨binding, hresolved⟩ := htried id _ record hregistered hformat
                (hlinked hformat) as_ source imported hfirst.mem
              exact ⟨binding, .head (.indirect hregistered hformat hfirst)
                (resolveExport_eq_found_iff.mp hresolved).1⟩
      | star source => exact absurd hfirst.publicName (by simp [ExportEntry.publicName?])

/-- A name that is on offer is shown, whatever the module. -/
theorem Offers.shows {request : Request} {binding : Binding}
    (hoffers : store.Offers request binding) : store.Shows request.1 request.2 := by
  obtain ⟨last, hpath, hend⟩ := hoffers
  -- back along the path: a re-export lists the name itself, and `export *` passes it on
  induction hpath using Relation.ReflTransGen.head_induction_on with
  | refl =>
      refine .own ?_
      cases hend with
      | star hregistered hmodern hentry =>
          exact ⟨_, _, hregistered, .inr ⟨_, hentry.mem, hentry.publicName⟩⟩
      | own hregistered hmodern hentry hcell =>
          exact ⟨_, _, hregistered, .inr ⟨_, hentry.mem, hentry.publicName⟩⟩
      | exports hregistered hlegacy => exact ⟨_, _, hregistered, .inl ⟨hlegacy, rfl⟩⟩
      | property hregistered hlegacy hname hentry hhint =>
          exact ⟨_, _, hregistered, .inr ⟨_, hentry, hhint⟩⟩
  | head hstep _ ih =>
      cases hstep with
      | indirect hregistered hmodern hentry =>
          exact .own ⟨_, _, hregistered, .inr ⟨_, hentry.mem, hentry.publicName⟩⟩
      | star hregistered hmodern hnone hname hsource =>
          exact .along hname ⟨_, _, hregistered, hmodern, hsource⟩ ih

/-- A name that a ready module shows is on offer. -/
theorem Shows.offers (hshows : store.Shows id name) (hclosed : store.Closed)
    (hspares : store.SparesDefault) (htried : store.Tried) (hready : store.Ready id) :
    ∃ binding, store.Offers (id, name) binding := by
  induction hshows with
  | own hlists => exact offers_of_lists hclosed hspares htried hready hlists
  | @along id source name hname hforwards _ ih =>
      obtain ⟨ref, record, hregistered, hmodern, hstar⟩ := hforwards
      by_cases hnone : NoExplicit record.exportEntries name
      · obtain ⟨_, _, hfound, -, hlinked⟩ := hready
        obtain ⟨rfl, rfl⟩ := hfound.unique hregistered
        have hsource := (hclosed.coherent ref record hregistered.record).source_of_export hstar rfl
        obtain ⟨binding, hoffers⟩ :=
          ih (hclosed.ready id ref record hregistered hmodern (hlinked hmodern) source hsource)
        exact ⟨binding, hoffers.head (.star hregistered hmodern hnone hname hstar)⟩
      · -- an entry of this module takes the name elsewhere
        simp only [NoExplicit, ne_eq, not_forall, not_not] at hnone
        obtain ⟨entry, hentry, hgives⟩ := hnone
        exact offers_of_lists hclosed hspares htried hready
          ⟨ref, record, hregistered, .inr ⟨entry, hentry, hgives⟩⟩

/-- The list of a ready module has the names that lead to one thing or are ambiguous. -/
theorem mem_exportedNames_iff_resolves (hclosed : store.Closed) (hspares : store.SparesDefault)
    (htried : store.Tried) (hready : store.Ready id) :
    name ∈ store.exportedNames id ↔
      (∃ binding, store.resolveExport id name = .found binding) ∨
        store.resolveExport id name = .ambiguous := by
  rw [mem_exportedNames_iff]
  have hoffers : store.Shows id name ↔ ∃ binding, store.Offers (id, name) binding :=
    ⟨fun hshows => hshows.offers hclosed hspares htried hready, fun ⟨_, hbinding⟩ => hbinding.shows⟩
  rw [hoffers]
  rcases store.resolveExport_cases id name with
    ⟨hanswer, hnone⟩ | ⟨binding, hanswer, hfound, -⟩ | ⟨hanswer, binding, -, -, hfound, -⟩
  · rw [hanswer]
    exact iff_of_false (fun ⟨binding, hbinding⟩ => hnone binding hbinding) (by simp)
  · exact iff_of_true ⟨binding, hfound⟩ (.inl ⟨binding, hanswer⟩)
  · exact iff_of_true ⟨binding, hfound⟩ (.inr hanswer)

/-- A read through a namespace that is attached fails for an ambiguous name, and what is missing is
undefined. -/
theorem readName_of_not_found {found : Namespace} (hattached : store.isAttached found = true)
    (name : String) :
    (store.resolveExport found.id name = .missing →
      store.readName found name = (.ok .undefined, store)) ∧
    (store.resolveExport found.id name = .ambiguous →
      store.readName found name = (.error (.duplicateExport found.id name), store)) := by
  unfold readName
  rw [hattached]
  refine ⟨fun hanswer => ?_, fun hanswer => ?_⟩ <;> rw [hanswer] <;> rfl

end Store

/-! ## Every state of every run -/

namespace Change

variable {stage stage' : Stage} {marks : List Mark}

/-- What linking has tried goes on to resolve, and every linking tries what it links. -/
theorem tried (hchange : Change stage marks stage') (hliving : stage.Living)
    (hclosed : stage.store.Closed) (hspares : stage.store.SparesDefault)
    (htried : stage.store.Tried) : stage'.store.Tried := by
  intro id ref record' hregistered hmodern hlinked as_ source name hentry
  have hclosed' := hchange.closed hliving hclosed
  obtain ⟨record, hbefore, hmodern', hadvances, hcases⟩ :=
    hchange.linked_back hliving hregistered hmodern hlinked
  have hcoherent := hclosed.coherent ref record hbefore.record
  rcases hcases with ⟨hlinked', hkept⟩ | ⟨order, hspans, hsame, hpending, hok, hlinks⟩
  · rw [Record.exportEntries, hadvances.analyzed (hcoherent.linked hlinked').analyzed] at hentry
    have hready := hclosed.ready id ref record hbefore hmodern' hlinked' source
      (hcoherent.source_of_export hentry rfl)
    rw [(Store.agreeOn_ready hclosed hspares (hchange.advances hliving) hkept).resolveExport hready]
    exact htried id ref record hbefore hmodern' hlinked' as_ source name hentry
  · have hnodup := Store.nodup_pendingLinks hliving.named hspans.nodup
    -- every record taken is linked now, so what it asks for is asked of ready modules
    have hsources : ∀ ref ∈ stage.store.pendingLinks order, ∀ record,
        stage.store.record? ref = some record → ∀ source name, record.AsksFor source name →
          stage'.store.Ready source := by
      intro ref href record hrecord source name hasks
      obtain ⟨id, -, found, hfound, hmodern, -⟩ := Store.mem_pendingLinks.mp href
      obtain rfl := Option.some.inj (hfound.record.symm.trans hrecord)
      obtain ⟨environment, hrecord', -⟩ := hlinks.linked ref href found hrecord
      have hlookup : stage'.store.lookup? id = some ref := by
        rw [hlinks.rebinds.lookup, hfound.lookup]
      refine hclosed'.ready id ref _ ⟨hlookup, hrecord'⟩ hmodern rfl source ?_
      show source ∈ found.requested
      have hcoherent := hclosed.coherent ref found hrecord
      rcases hasks with ⟨as_, himport⟩ | ⟨as_, hexport⟩
      · exact hcoherent.source_of_import himport
      · exact hcoherent.source_of_export hexport rfl
    have hoffering := hlinks.offering hnodup hclosed.coherent hspares hclosed'
    have hasks : record.AsksFor source name := by
      obtain ⟨environment, hrecord', -⟩ := hlinks.linked ref hpending record hbefore.record
      obtain rfl := Option.some.inj (hrecord'.symm.trans hregistered.record)
      exact .inr ⟨as_, hentry⟩
    rw [hsame]
    exact Store.link_resolves hoffering hsources hok hpending hbefore.record hasks

end Change

/-- If imports spare the local name of default exports in the end, what was tried resolves all the
way. -/
theorem Chain.tried {stage stage' : Stage} {marks : List Mark} (hchain : Chain stage marks stage')
    (hliving : stage.Living) (hclosed : stage.store.Closed) (hspares : stage'.store.SparesDefault)
    (htried : stage.store.Tried) : stage'.store.Tried := by
  induction hchain with
  | refl => exact htried
  | tail hbefore hchange ih =>
      have hliving' := hbefore.living hliving
      have hspares' := hspares.back (hchange.advances hliving')
      exact hchange.tried hliving' (hbefore.closed hliving hclosed) hspares' (ih hspares')

namespace Machine

/-- **In every state of every run, the exported names of a linked module, or of an analyzed legacy
one, are the names that resolve to one thing or are ambiguous**, in order and each once.  So a
namespace that is attached lists no name that reads as undefined for want of an export, and hides
none that can be read. -/
theorem namespaces_list_what_resolves (place : Place) (config : Config) (acts : List Act)
    (hspares : ((new place config).perform acts).session.store.SparesDefault) :
    let store := ((new place config).perform acts).session.store
    ∀ id ref record, store.Registered id ref record →
      (record.format = .modern → record.status.hasLinked = true) →
      (record.format = .legacy → record.analysis?.isSome) →
      (store.exportedNames id).Pairwise (· < ·) ∧
      (∀ name, name ∈ store.exportedNames id ↔
        (∃ binding, store.resolveExport id name = .found binding) ∨
          store.resolveExport id name = .ambiguous) ∧
      ∀ found : Namespace, found.id = id → store.isAttached found = true →
        store.keysOf found = .ok (store.exportedNames id) ∧
        ∀ name, (name ∉ store.exportedNames id ∧
            store.readName found name = (.ok .undefined, store)) ∨
          (name ∈ store.exportedNames id ∧
            ((∃ binding, store.resolveExport id name = .found binding ∧
                store.readName found name = store.read binding found.requester?) ∨
              store.readName found name = (.error (.duplicateExport id name), store))) := by
  intro store id ref record hregistered hlinked hanalyzed
  have hclosed : store.Closed := closed_perform place config acts
  have htried : store.Tried := by
    refine (chain_perform _ acts).tried (living_new place config)
      (closed_perform place config []) hspares ?_
    intro id ref record hregistered
    cases hregistered.record
  have hready : store.Ready id := by
    refine ⟨ref, record, hregistered, ?_, hlinked⟩
    cases hformat : record.format with
    | legacy => exact hanalyzed hformat
    | modern =>
        exact ((hclosed.coherent ref record hregistered.record).linked (hlinked hformat)).analyzed
  have hnames : ∀ name, name ∈ store.exportedNames id ↔
      (∃ binding, store.resolveExport id name = .found binding) ∨
        store.resolveExport id name = .ambiguous :=
    fun name => Store.mem_exportedNames_iff_resolves hclosed hspares htried hready
  refine ⟨Table.pairwise_keys _, hnames, ?_⟩
  rintro found rfl hattached
  refine ⟨by rw [Store.keysOf, if_pos hattached], fun name => ?_⟩
  obtain ⟨hmissing, hambiguous⟩ := Store.readName_of_not_found hattached name
  cases hanswer : store.resolveExport found.id name with
  | missing =>
      refine .inl ⟨fun hmem => ?_, hmissing hanswer⟩
      simpa [hanswer] using (hnames name).mp hmem
  | found binding =>
      exact .inr ⟨(hnames name).mpr (.inl ⟨binding, hanswer⟩),
        .inl ⟨binding, rfl, Store.readName_of_found hattached hanswer⟩⟩
  | ambiguous =>
      exact .inr ⟨(hnames name).mpr (.inr hanswer), .inr (hambiguous hanswer)⟩

/-- Two modules export `x`, a third forwards both and names `z` itself. -/
def crossing : Shelf :=
  let both := ((Source.ofBody []).exportAllFrom "/left.mjs").exportAllFrom "/right.mjs"
  ((Shelf.empty.insert "/left.mjs" ((Source.ofBody []).exportLocal "x")).insert "/right.mjs"
    (((Source.ofBody []).exportLocal "x").exportLocal "y")).insert "/both.mjs"
      (both.exportFrom "/right.mjs" "y" "z")

/-- All three are linked, and the first body runs. -/
def crossingLinked : List Act := [.call (.evaluate "/both.mjs" none) none, .step]

theorem namespaces_list_what_resolves_crossing :
    let store := ((new (.shelf crossing) .standard).perform crossingLinked).session.store
    store.SparesDefault ∧ store.exportedNames (.ofPath "/both.mjs") = ["x", "y", "z"] ∧
      store.resolveExport (.ofPath "/both.mjs") "x" = .ambiguous ∧
      (∃ binding, store.resolveExport (.ofPath "/both.mjs") "z" = .found binding) ∧
      ∀ binding, store.resolveExport (.ofPath "/both.mjs") "w" ≠ .found binding := by
  intro store
  have hspares : store.SparesDefault := by
    unfold Store.SparesDefault
    decide +kernel
  have hnames : store.exportedNames (.ofPath "/both.mjs") = ["x", "y", "z"] := by decide +kernel
  have hambiguous : store.resolveExport (.ofPath "/both.mjs") "x" = .ambiguous := by decide +kernel
  have hdiffers : store.resolveExport (.ofPath "/both.mjs") "z" ≠ .ambiguous := by decide +kernel
  have hfacts : (store.find? (.ofPath "/both.mjs")).map (fun record =>
      (record.format, record.status)) = some (.modern, .linked) := by decide +kernel
  obtain ⟨record, hfind, hfields⟩ := Option.map_eq_some_iff.mp hfacts
  obtain ⟨hmodern, hlinked⟩ := Prod.mk.inj hfields
  obtain ⟨ref, hregistered⟩ := Store.exists_registered_of_find hfind
  obtain ⟨-, hlisted, -⟩ := namespaces_list_what_resolves (.shelf crossing) .standard
    crossingLinked hspares _ ref record hregistered (fun _ => by rw [hlinked]; rfl)
    (fun hlegacy => by rw [hmodern] at hlegacy; cases hlegacy)
  refine ⟨hspares, hnames, hambiguous, ?_, ?_⟩
  · refine ((hlisted "z").mp ?_).resolve_right hdiffers
    rw [show store.exportedNames _ = _ from hnames]
    decide
  · intro binding hfound
    have hmem := (hlisted "w").mpr (.inl ⟨binding, hfound⟩)
    rw [show store.exportedNames _ = _ from hnames] at hmem
    revert hmem
    decide

end Machine

end Linkage
