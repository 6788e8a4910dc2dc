import Linkage.Proofs.Exports.Rule
import Mathlib.Data.List.Perm.Subperm
import Mathlib.Data.List.Nodup
import Mathlib.Data.List.ProdSigma

/-!
# The search for an exported name

The search walks the requests depth first and shares one list of requests asked already between all
`export *` branches.  A request that comes up a second time gives nothing, be it in a circle or
where two branches meet again.  Nothing is lost by that: whatever the second visit could have found
was found by the first, and every answer is carried down to the request the search began with.

* `Searched` : what the newly asked requests lead to has been asked as well, and all bindings they
  give are the one that was found.
* `resolveWithin_settles` : every call of the search with enough fuel leaves such a state behind, or
  has met two different bindings.
* `resolveExport_follows_rule` : the answer is the one the rule of exported names gives.
-/

namespace Linkage.Store

/-- The requests asked between `asked` and `asked'` lead to requests that have been asked or to
modules that are not registered, and what they give by themselves is what was found. -/
structure Searched (store : Store) (asked asked' : List Request) (found? : Option Binding) :
    Prop where
  /-- Nothing that the new requests lead to is left out. -/
  closed : ∀ key ∈ asked', key ∉ asked → ∀ next, store.ExportStep key next →
    next ∈ asked' ∨ store.find? next.1 = none
  /-- No new request gives anything else. -/
  ends : ∀ key ∈ asked', key ∉ asked → ∀ binding, store.ExportEnd key binding →
    found? = some binding

/-- How a request stands once the search has answered it. -/
inductive Settles (store : Store) (request : Request) (asked asked' : List Request) :
    Resolution → Prop
  | ambiguous {binding binding' : Binding} (hne : binding ≠ binding')
      (hoffers : store.Offers request binding) (hoffers' : store.Offers request binding') :
      Settles store request asked asked' .ambiguous
  | missing (hsearched : store.Searched asked asked' none)
      (hcovered : request ∈ asked' ∨ store.find? request.1 = none) :
      Settles store request asked asked' .missing
  | found {binding : Binding} (hoffers : store.Offers request binding)
      (hsearched : store.Searched asked asked' (some binding))
      (hcovered : request ∈ asked' ∨ store.find? request.1 = none) :
      Settles store request asked asked' (.found binding)

/-- How the sources of `export *` stand once they have been asked for a name, when `known?` was
found before. -/
inductive StarsSettle (store : Store) (sources : List ModuleId) (name : String)
    (known? : Option Binding) (asked asked' : List Request) : Resolution → Prop
  | ambiguous {binding binding' : Binding} (hne : binding ≠ binding')
      (hoffers : known? = some binding ∨ ∃ source ∈ sources, store.Offers (source, name) binding)
      (hoffers' : ∃ source ∈ sources, store.Offers (source, name) binding') :
      StarsSettle store sources name known? asked asked' .ambiguous
  | agreed {found? : Option Binding}
      (hknown : ∀ binding, known? = some binding → found? = some binding)
      (hoffers : ∀ binding, found? = some binding →
        known? = some binding ∨ ∃ source ∈ sources, store.Offers (source, name) binding)
      (hsearched : store.Searched asked asked' found?)
      (hcovered : ∀ source ∈ sources, (source, name) ∈ asked' ∨ store.find? source = none) :
      StarsSettle store sources name known? asked asked' ((found?.map .found).getD .missing)

/-- The requests asked are different ones, of registered modules and for names that can come up. -/
structure Fits (store : Store) (names : List String) (asked : List Request) : Prop where
  nodup : asked.Nodup
  registered : ∀ key ∈ asked, key.1 ∈ store.ids
  named : ∀ key ∈ asked, key.2 ∈ names

namespace Searched

variable {store : Store} {asked asked' asked'' : List Request} {found? : Option Binding}

theorem refl (store : Store) (asked : List Request) (found? : Option Binding) :
    store.Searched asked asked found? :=
  ⟨fun _ hmem hnew => absurd hmem hnew, fun _ hmem hnew => absurd hmem hnew⟩

/-- A search that found nothing is in order whatever was found elsewhere. -/
theorem of_none (hsearched : store.Searched asked asked' none) (found? : Option Binding) :
    store.Searched asked asked' found? := by
  refine ⟨hsearched.closed, ?_⟩
  intro key hmem hnew binding hend
  simpa using hsearched.ends key hmem hnew binding hend

theorem trans (hfirst : store.Searched asked asked' found?)
    (hsecond : store.Searched asked' asked'' found?) (hsub : asked' ⊆ asked'') :
    store.Searched asked asked'' found? := by
  constructor
  · intro key hmem hnew next hstep
    by_cases hkey : key ∈ asked'
    · exact (hfirst.closed key hkey hnew next hstep).imp (fun hnext => hsub hnext) id
    · exact hsecond.closed key hmem hkey next hstep
  · intro key hmem hnew binding hend
    by_cases hkey : key ∈ asked'
    · exact hfirst.ends key hkey hnew binding hend
    · exact hsecond.ends key hmem hkey binding hend

/-- A new request may be counted in once it is seen what it leads to and what it gives. -/
theorem cons {key : Request} (hsearched : store.Searched (asked ++ [key]) asked' found?)
    (hclosed : ∀ next, store.ExportStep key next → next ∈ asked' ∨ store.find? next.1 = none)
    (hends : ∀ binding, store.ExportEnd key binding → found? = some binding) :
    store.Searched asked asked' found? := by
  constructor
  · intro other hmem hnew next hstep
    by_cases hother : other = key
    · exact hclosed next (hother ▸ hstep)
    · exact hsearched.closed other hmem (by simp [hnew, hother]) next hstep
  · intro other hmem hnew binding hend
    by_cases hother : other = key
    · exact hends binding (hother ▸ hend)
    · exact hsearched.ends other hmem (by simp [hnew, hother]) binding hend

/-- When the search began with nothing asked, every binding on offer is the one it found. -/
theorem offers_eq {request : Request} {binding : Binding}
    (hsearched : store.Searched [] asked' found?)
    (hcovered : request ∈ asked' ∨ store.find? request.1 = none)
    (hoffers : store.Offers request binding) : found? = some binding := by
  obtain ⟨last, hpath, hend⟩ := hoffers
  -- along the path every request has been asked, or it is the last one and of no module
  have hlast : last ∈ asked' ∨ store.find? last.1 = none := by
    clear hend
    induction hpath with
    | refl => exact hcovered
    | tail _ hstep ih =>
        rcases ih with hmem | hdead
        · exact hsearched.closed _ hmem (by simp) _ hstep
        · cases hstep with
          | indirect hregistered => simp [hregistered.find] at hdead
          | star hregistered => simp [hregistered.find] at hdead
  rcases hlast with hmem | hdead
  · exact hsearched.ends last hmem (by simp) binding hend
  · cases hend with
    | star hregistered => simp [hregistered.find] at hdead
    | own hregistered => simp [hregistered.find] at hdead
    | exports hregistered => simp [hregistered.find] at hdead
    | property hregistered => simp [hregistered.find] at hdead

end Searched

namespace Fits

variable {store : Store} {names : List String} {asked : List Request}

/-- There are not more requests than modules and names make up. -/
theorem length_le (hfits : store.Fits names asked) :
    asked.length ≤ store.size * names.length := by
  have hsub : asked ⊆ store.ids ×ˢ names := by
    intro key hmem
    exact List.mem_product.mpr ⟨hfits.registered key hmem, hfits.named key hmem⟩
  have hlength := (hfits.nodup.subperm hsub).length_le
  rw [List.length_product] at hlength
  simpa [ids, size, Table.keys, Table.size] using hlength

theorem snoc {key : Request} (hfits : store.Fits names asked) (hnew : key ∉ asked)
    (hid : key.1 ∈ store.ids) (hname : key.2 ∈ names) : store.Fits names (asked ++ [key]) := by
  constructor
  · rw [List.nodup_append]
    refine ⟨hfits.nodup, List.nodup_singleton key, ?_⟩
    intro other hother last hlast heq
    exact hnew (by simp_all)
  · intro other hmem
    rcases List.mem_append.mp hmem with hold | hlast
    · exact hfits.registered other hold
    · rw [List.mem_singleton.mp hlast]
      exact hid
  · intro other hmem
    rcases List.mem_append.mp hmem with hold | hlast
    · exact hfits.named other hold
    · rw [List.mem_singleton.mp hlast]
      exact hname

end Fits

/-! ## What one call of the search does -/

/-- What the search says of one request and what it leaves behind. -/
structure Answers (store : Store) (names : List String) (request : Request) (asked : List Request)
    (answer : Resolution × List Request) : Prop where
  grows : asked <+: answer.2
  fits : store.Fits names answer.2
  settles : store.Settles request asked answer.2 answer.1

/-- What the first source gives may be counted in. -/
theorem StarsSettle.cons {store : Store} {source : ModuleId} {rest : List ModuleId}
    {name : String} {known? known'? : Option Binding} {asked asked' asked'' : List Request}
    {answer : Resolution} (hrest : store.StarsSettle rest name known'? asked' asked'' answer)
    (hsub : asked' ⊆ asked'')
    (hsearched : ∀ found?, (∀ binding, known'? = some binding → found? = some binding) →
      store.Searched asked asked' found?)
    (hcovered : (source, name) ∈ asked' ∨ store.find? source = none)
    (hknown : ∀ binding, known? = some binding → known'? = some binding)
    (hfrom : ∀ binding, known'? = some binding →
      known? = some binding ∨ store.Offers (source, name) binding) :
    store.StarsSettle (source :: rest) name known? asked asked'' answer := by
  -- what is found among the rest comes from there, from the first source or from before
  have horigin : ∀ binding,
      (known'? = some binding ∨ ∃ other ∈ rest, store.Offers (other, name) binding) →
        known? = some binding ∨ ∃ other ∈ source :: rest, store.Offers (other, name) binding := by
    rintro binding (hbinding | ⟨other, hother, hoffers⟩)
    · rcases hfrom binding hbinding with hbinding | hoffers
      · exact .inl hbinding
      · exact .inr ⟨source, by simp, hoffers⟩
    · exact .inr ⟨other, List.mem_cons_of_mem _ hother, hoffers⟩
  cases hrest with
  | ambiguous hne hoffers hoffers' =>
      obtain ⟨other, hother, hoffers'⟩ := hoffers'
      exact .ambiguous hne (horigin _ hoffers) ⟨other, List.mem_cons_of_mem _ hother, hoffers'⟩
  | agreed hkeeps hoffers hsearched' hcovered' =>
      refine .agreed (fun binding hbinding => hkeeps binding (hknown binding hbinding))
        (fun binding hbinding => horigin binding (hoffers binding hbinding))
        ((hsearched _ hkeeps).trans hsearched' hsub) ?_
      intro other hother
      rcases List.mem_cons.mp hother with rfl | hother
      · exact hcovered.imp (fun hmem => hsub hmem) id
      · exact hcovered' other hother

/-- Asking the sources of `export *` in order, given that each single request is answered. -/
theorem resolveStars_settles {store : Store} {names : List String} (name : String)
    {resolve : ModuleId → List Request → Resolution × List Request} (bound : Nat)
    (hresolve : ∀ source asked, store.Fits names asked → bound ≤ asked.length →
      store.Answers names (source, name) asked (resolve source asked))
    (sources : List ModuleId) (known? : Option Binding) (asked : List Request)
    (hfits : store.Fits names asked) (hbound : bound ≤ asked.length) :
    asked <+: (resolveStars resolve sources known? asked).2 ∧
      store.Fits names (resolveStars resolve sources known? asked).2 ∧
      store.StarsSettle sources name known? asked (resolveStars resolve sources known? asked).2
        (resolveStars resolve sources known? asked).1 := by
  -- the sources in turn; what is found so far and what is asked so far grow on the way
  induction sources generalizing known? asked with
  | nil =>
      refine ⟨List.prefix_rfl, hfits, ?_⟩
      exact .agreed (fun _ h => h) (fun _ h => .inl h) (.refl store asked known?) (by simp)
  | cons source rest ih =>
      obtain ⟨hgrows, hfits', hsettles⟩ := hresolve source asked hfits hbound
      have hbound' : bound ≤ (resolve source asked).2.length := Nat.le_trans hbound hgrows.length_le
      generalize hanswer : resolve source asked = answer at hgrows hfits' hsettles hbound'
      obtain ⟨answer, asked'⟩ := answer
      dsimp only at hgrows hfits' hsettles hbound'
      cases hsettles with
      | ambiguous hne hoffers hoffers' =>
          simp only [resolveStars, hanswer]
          exact ⟨hgrows, hfits', .ambiguous hne (.inr ⟨source, by simp, hoffers⟩)
            ⟨source, by simp, hoffers'⟩⟩
      | missing hsearched hcovered =>
          simp only [resolveStars, hanswer]
          obtain ⟨hgrows', hfits'', hrest⟩ := ih known? asked' hfits' hbound'
          exact ⟨hgrows.trans hgrows', hfits'', hrest.cons hgrows'.subset
            (fun found? _ => hsearched.of_none found?) hcovered (fun _ h => h) (fun _ h => .inl h)⟩
      | found hoffers hsearched hcovered =>
          rename_i binding
          -- from here on the binding is known, and the rest may only agree with it
          have hkeep : ∀ found?, (∀ other, some binding = some other → found? = some other) →
              store.Searched asked asked' found? := by
            intro found? hfound
            rw [hfound binding rfl]
            exact hsearched
          cases known? with
          | none =>
              simp only [resolveStars, hanswer]
              obtain ⟨hgrows', hfits'', hrest⟩ := ih (some binding) asked' hfits' hbound'
              refine ⟨hgrows.trans hgrows', hfits'', hrest.cons hgrows'.subset hkeep hcovered
                (fun _ h => by simp at h) ?_⟩
              rintro other hother
              obtain rfl : binding = other := by simpa using hother
              exact .inr hoffers
          | some known =>
              by_cases hsame : known = binding
              · subst hsame
                simp only [resolveStars, hanswer, if_true]
                obtain ⟨hgrows', hfits'', hrest⟩ := ih (some known) asked' hfits' hbound'
                exact ⟨hgrows.trans hgrows', hfits'', hrest.cons hgrows'.subset hkeep hcovered
                  (fun _ h => h) (fun _ h => .inl h)⟩
              · simp only [resolveStars, hanswer, if_neg hsame]
                exact ⟨hgrows, hfits', .ambiguous hsame (.inl rfl) ⟨source, by simp, hoffers⟩⟩

/-- The names that can come up: the one asked for first, and whatever an entry imports. -/
structure Names (store : Store) (names : List String) : Prop where
  imported : ∀ {id ref record as_ source imported}, store.Registered id ref record →
    .indirect as_ source (.name imported) ∈ record.exportEntries → imported ∈ names

/-- A request whose answer is settled by itself: at most one binding, and nothing to ask. -/
theorem Settles.of_end {store : Store} {request : Request} {asked : List Request}
    (found? : Option Binding) (hstep : ∀ next, ¬ store.ExportStep request next)
    (hend : ∀ binding, store.ExportEnd request binding ↔ found? = some binding) :
    store.Settles request asked (asked ++ [request]) ((found?.map .found).getD .missing) := by
  have hsearched : store.Searched asked (asked ++ [request]) found? :=
    (Searched.refl store (asked ++ [request]) found?).cons
      (fun next hnext => absurd hnext (hstep next)) (fun binding => (hend binding).mp)
  cases found? with
  | none => exact .missing hsearched (by simp)
  | some binding =>
      exact .found (.of_end ((hend binding).mpr rfl)) hsearched (by simp)

/-- A request that only passes another one on is answered as that one. -/
theorem Settles.of_step {store : Store} {request next : Request} {asked asked' : List Request}
    {answer : Resolution} (hsettles : store.Settles next (asked ++ [request]) asked' answer)
    (hmem : request ∈ asked') (hnext : store.ExportStep request next)
    (hstep : ∀ other, store.ExportStep request other → other = next)
    (hend : ∀ binding, ¬ store.ExportEnd request binding) :
    store.Settles request asked asked' answer := by
  cases hsettles with
  | ambiguous hne hoffers hoffers' =>
      exact .ambiguous hne (hoffers.head hnext) (hoffers'.head hnext)
  | missing hsearched hcovered =>
      refine .missing (hsearched.cons ?_ fun binding hb => absurd hb (hend binding)) (.inl hmem)
      intro other hother
      rw [hstep other hother]
      exact hcovered
  | found hoffers hsearched hcovered =>
      refine .found (hoffers.head hnext)
        (hsearched.cons ?_ fun binding hb => absurd hb (hend binding)) (.inl hmem)
      intro other hother
      rw [hstep other hother]
      exact hcovered

/-- A request that is passed on to all sources of `export *`. -/
theorem Settles.of_stars {store : Store} {id : ModuleId} {name : String}
    {sources : List ModuleId} {asked asked' : List Request} {answer : Resolution}
    (hsettles : store.StarsSettle sources name none (asked ++ [(id, name)]) asked' answer)
    (hmem : (id, name) ∈ asked')
    (hstep : ∀ next, store.ExportStep (id, name) next ↔
      ∃ source ∈ sources, next = (source, name))
    (hend : ∀ binding, ¬ store.ExportEnd (id, name) binding) :
    store.Settles (id, name) asked asked' answer := by
  -- what a source offers the request offers as well
  have hpass : ∀ binding, (∃ source ∈ sources, store.Offers (source, name) binding) →
      store.Offers (id, name) binding := by
    rintro binding ⟨source, hsource, hoffers⟩
    exact hoffers.head ((hstep _).mpr ⟨source, hsource, rfl⟩)
  cases hsettles with
  | ambiguous hne hoffers hoffers' =>
      exact .ambiguous hne (hpass _ (hoffers.resolve_left (by simp))) (hpass _ hoffers')
  | agreed _ hoffers hsearched hcovered =>
      rename_i found? _
      have hall : store.Searched asked asked' found? := by
        refine hsearched.cons ?_ fun binding hb => absurd hb (hend binding)
        intro next hnext
        obtain ⟨source, hsource, rfl⟩ := (hstep next).mp hnext
        exact hcovered source hsource
      cases found? with
      | none => exact .missing hall (.inl hmem)
      | some binding =>
          exact .found (hpass binding ((hoffers binding rfl).resolve_left (by simp))) hall
            (.inl hmem)

theorem resolveWithin_of_not_registered {store : Store} {id : ModuleId}
    (hdead : store.find? id = none) (fuel : Nat) (name : String) (asked : List Request) :
    store.resolveWithin fuel id name asked = (.missing, asked) := by
  cases fuel with
  | zero => rfl
  | succ fuel => simp [resolveWithin, hdead]

/-- One call of the search for a module that is registered. -/
theorem resolveWithin_succ {store : Store} {id : ModuleId} {ref : RecordRef} {record : Record}
    (hregistered : store.Registered id ref record) (fuel : Nat) (name : String)
    {asked : List Request} (hnew : (id, name) ∉ asked) :
    store.resolveWithin (fuel + 1) id name asked =
      if record.format = .legacy then (resolveLegacy ref record name, asked ++ [(id, name)])
      else match explicitExport? record.exportEntries name with
        | some (.own _ localName) => match store.ownCell? record localName with
          | some cell => (.found (.cell cell), asked ++ [(id, name)])
          | none => (.missing, asked ++ [(id, name)])
        | some (.indirect _ source .star) => (.found (.star source), asked ++ [(id, name)])
        | some (.indirect _ source (.name imported)) =>
            store.resolveWithin fuel source imported (asked ++ [(id, name)])
        | _ =>
            if name = "default" then (.missing, asked ++ [(id, name)])
            else resolveStars (fun source asked => store.resolveWithin fuel source name asked)
              (starSources record.exportEntries) none (asked ++ [(id, name)]) := by
  rw [resolveWithin, hregistered.lookup, hregistered.find]
  exact if_neg hnew

theorem resolveLegacy_eq (ref : RecordRef) (record : Record) (name : String) :
    ∃ found? : Option Binding, resolveLegacy ref record name = (found?.map .found).getD .missing ∧
      ∀ binding, found? = some binding ↔
        (name = "default" ∧ binding = .exports ref none) ∨
          (name ≠ "default" ∧ ¬ NoExplicit record.exportEntries name ∧
            binding = .exports ref (some name)) := by
  unfold resolveLegacy
  by_cases hdefault : name = "default"
  · exact ⟨some (.exports ref none), by simp [hdefault], by simp [hdefault, eq_comm]⟩
  · by_cases hhint : NoExplicit record.exportEntries name
    · refine ⟨none, ?_, by simp [hdefault, hhint]⟩
      have hany :
          record.exportEntries.any (fun entry => entry.publicName? == some name) = false := by
        simpa [NoExplicit] using hhint
      simp [hdefault, hany]
    · refine ⟨some (.exports ref (some name)), ?_, by simp [hdefault, hhint, eq_comm]⟩
      have hany :
          record.exportEntries.any (fun entry => entry.publicName? == some name) = true := by
        simpa [NoExplicit] using hhint
      simp [hdefault, hany]

/-- A request that leads nowhere is answered by what it gives itself. -/
theorem Answers.of_end {store : Store} {names : List String} {request : Request}
    {asked : List Request} (hfits : store.Fits names (asked ++ [request]))
    (found? : Option Binding) (hstep : ∀ next, ¬ store.ExportStep request next)
    (hend : ∀ binding, store.ExportEnd request binding ↔ found? = some binding) :
    store.Answers names request asked
      ((found?.map .found).getD .missing, asked ++ [request]) :=
  ⟨List.prefix_append _ _, hfits, .of_end found? hstep hend⟩

/-- A request that only passes another one on grows by what that one asks. -/
theorem Answers.of_step {store : Store} {names : List String} {request next : Request}
    {asked : List Request} {answer : Resolution × List Request}
    (hanswers : store.Answers names next (asked ++ [request]) answer)
    (hnext : store.ExportStep request next)
    (hstep : ∀ other, store.ExportStep request other → other = next)
    (hend : ∀ binding, ¬ store.ExportEnd request binding) :
    store.Answers names request asked answer := by
  obtain ⟨hgrows, hfits, hsettles⟩ := hanswers
  have hmem : request ∈ answer.2 := hgrows.subset (by simp)
  exact ⟨(List.prefix_append _ _).trans hgrows, hfits, hsettles.of_step hmem hnext hstep hend⟩

section Asking

variable {store : Store} {names : List String} {id : ModuleId} {ref : RecordRef} {record : Record}
  {name : String} {asked : List Request}

/-- Asking a legacy module. -/
theorem Answers.of_legacy (hregistered : store.Registered id ref record)
    (hlegacy : record.format = .legacy) (hfits : store.Fits names (asked ++ [(id, name)])) :
    store.Answers names (id, name) asked
      (resolveLegacy ref record name, asked ++ [(id, name)]) := by
  obtain ⟨found?, hanswer, hfound⟩ := resolveLegacy_eq ref record name
  rw [hanswer]
  refine .of_end hfits found? (not_exportStep_of_legacy hregistered hlegacy) ?_
  intro binding
  rw [exportEnd_iff hregistered, hfound]
  simp [hlegacy]

/-- Asking a modern module that leaves the name to the sources of `export *`. -/
theorem Answers.of_sources (hregistered : store.Registered id ref record)
    (hmodern : record.format = .modern) (hnone : NoExplicit record.exportEntries name)
    (hdefault : name ≠ "default") (hfits : store.Fits names (asked ++ [(id, name)]))
    {resolve : ModuleId → List Request → Resolution × List Request}
    (hresolve : ∀ source asked', store.Fits names asked' →
      (asked ++ [(id, name)]).length ≤ asked'.length →
      store.Answers names (source, name) asked' (resolve source asked')) :
    store.Answers names (id, name) asked
      (resolveStars resolve (starSources record.exportEntries) none (asked ++ [(id, name)])) := by
  obtain ⟨hgrows, hfits', hsettles⟩ := resolveStars_settles name _ hresolve
    (starSources record.exportEntries) none _ hfits (Nat.le_refl _)
  refine ⟨(List.prefix_append _ _).trans hgrows, hfits', .of_stars hsettles
    (hgrows.subset (by simp)) ?_ (not_exportEnd_of_noExplicit hregistered hmodern hnone)⟩
  rintro ⟨source, nextName⟩
  rw [exportStep_of_noExplicit hregistered hmodern hnone]
  simp [hdefault, mem_starSources]

end Asking

/-- Every call of the search with enough fuel answers its request. -/
theorem resolveWithin_settles {store : Store} {names : List String} (hnames : store.Names names)
    (fuel : Nat) (id : ModuleId) (name : String) (asked : List Request) (hname : name ∈ names)
    (hfits : store.Fits names asked)
    (hfuel : store.size * names.length < fuel + asked.length) :
    store.Answers names (id, name) asked (store.resolveWithin fuel id name asked) := by
  induction fuel generalizing id name asked with
  | zero =>
      -- there are no more requests than the list of those asked already has room for
      have hlength := hfits.length_le
      omega
  | succ fuel ih =>
      cases hfind : store.find? id with
      | none =>
          rw [resolveWithin_of_not_registered hfind]
          exact ⟨List.prefix_rfl, hfits, .missing (.refl store asked none) (.inr hfind)⟩
      | some record =>
          obtain ⟨ref, hregistered⟩ := exists_registered_of_find hfind
          by_cases hasked : (id, name) ∈ asked
          · -- nothing new is asked, and whoever asked first answers for what it leads to
            have hanswer : store.resolveWithin (fuel + 1) id name asked = (.missing, asked) := by
              simp [resolveWithin, hregistered.lookup, hfind, hasked]
            rw [hanswer]
            exact ⟨List.prefix_rfl, hfits, .missing (.refl store asked none) (.inl hasked)⟩
          · rw [resolveWithin_succ hregistered fuel name hasked]
            have hfits' : store.Fits names (asked ++ [(id, name)]) :=
              hfits.snoc hasked hregistered.mem_ids hname
            -- the list of requests asked grows by the fuel that is spent
            have hfuel' : store.size * names.length < fuel + (asked ++ [(id, name)]).length := by
              simp only [List.length_append, List.length_singleton]
              omega
            by_cases hlegacy : record.format = .legacy
            · rw [if_pos hlegacy]
              exact .of_legacy hregistered hlegacy hfits'
            · have hmodern : record.format = .modern := by
                cases hformat : record.format with
                | legacy => exact absurd hformat hlegacy
                | modern => rfl
              rw [if_neg hlegacy]
              cases hexplicit : explicitExport? record.exportEntries name with
              | none =>
                  have hnone := explicitExport?_eq_none_iff.mp hexplicit
                  by_cases hdefault : name = "default"
                  · simp only [if_pos hdefault]
                    refine .of_end hfits' none ?_ ?_
                    · intro next hstep
                      exact ((exportStep_of_noExplicit hregistered hmodern hnone).mp hstep).1
                        hdefault
                    · simp [not_exportEnd_of_noExplicit hregistered hmodern hnone]
                  · simp only [if_neg hdefault]
                    exact .of_sources hregistered hmodern hnone hdefault hfits'
                      (fun source asked' hasked' hbound =>
                        ih source name asked' hname hasked' (by omega))
              | some entry =>
                  have hentry := explicitExport?_eq_some_iff.mp hexplicit
                  have hstep := fun next => exportStep_of_explicit hregistered hmodern hentry next
                  have hend := fun binding =>
                    exportEnd_of_explicit hregistered hmodern hentry binding
                  cases entry with
                  | star source =>
                      -- an `export *` gives no name by itself
                      exact absurd hentry.publicName (by simp [ExportEntry.publicName?])
                  | own as_ localName =>
                      dsimp only
                      cases hcell : store.ownCell? record localName with
                      | none =>
                          refine .of_end hfits' none (by simp [hstep]) ?_
                          intro binding
                          simp [hend, ← ownCell?_eq_some_iff, hcell]
                      | some cell =>
                          refine .of_end hfits' (some (.cell cell)) (by simp [hstep]) ?_
                          intro binding
                          simp [hend, ← ownCell?_eq_some_iff, hcell, eq_comm]
                  | indirect as_ source imported =>
                      cases imported with
                      | star =>
                          refine .of_end hfits' (some (.star source)) (by simp [hstep]) ?_
                          intro binding
                          simp [hend, eq_comm]
                      | name imported =>
                          have himported : imported ∈ names :=
                            hnames.imported hregistered hentry.mem
                          refine .of_step (ih source imported _ himported hfits' hfuel')
                            ((hstep _).mpr ⟨as_, rfl⟩) ?_ (by simp [hend])
                          intro other hother
                          obtain ⟨_, heq⟩ := (hstep other).mp hother
                          simp_all

/-! ## The fuel does not matter -/

theorem resolveStars_congr {store : Store} {names : List String} (name : String)
    {resolve resolve' : ModuleId → List Request → Resolution × List Request} (bound : Nat)
    (hanswers : ∀ source asked, store.Fits names asked → bound ≤ asked.length →
      store.Answers names (source, name) asked (resolve source asked))
    (hsame : ∀ source asked, store.Fits names asked → bound ≤ asked.length →
      resolve source asked = resolve' source asked)
    (sources : List ModuleId) (known? : Option Binding) (asked : List Request)
    (hfits : store.Fits names asked) (hbound : bound ≤ asked.length) :
    resolveStars resolve sources known? asked = resolveStars resolve' sources known? asked := by
  induction sources generalizing known? asked with
  | nil => rfl
  | cons source rest ih =>
      obtain ⟨hgrows, hfits', -⟩ := hanswers source asked hfits hbound
      have hbound' : bound ≤ (resolve source asked).2.length :=
        Nat.le_trans hbound hgrows.length_le
      simp only [resolveStars, ← hsame source asked hfits hbound]
      generalize resolve source asked = answer at hfits' hbound'
      obtain ⟨answer, asked'⟩ := answer
      cases answer with
      | ambiguous => rfl
      | missing => exact ih known? asked' hfits' hbound'
      | found binding =>
          cases known? with
          | none => exact ih (some binding) asked' hfits' hbound'
          | some known =>
              dsimp only
              split
              · exact ih (some known) asked' hfits' hbound'
              · rfl

/-- Two calls with enough fuel agree, however much fuel each has. -/
theorem resolveWithin_fuel {store : Store} {names : List String} (hnames : store.Names names)
    (fuel fuel' : Nat) (id : ModuleId) (name : String) (asked : List Request)
    (hname : name ∈ names) (hfits : store.Fits names asked)
    (hfuel : store.size * names.length < fuel + asked.length)
    (hfuel' : store.size * names.length < fuel' + asked.length) :
    store.resolveWithin fuel id name asked = store.resolveWithin fuel' id name asked := by
  have hlength := hfits.length_le
  induction fuel generalizing fuel' id name asked with
  | zero => omega
  | succ fuel ih =>
      cases fuel' with
      | zero => omega
      | succ fuel' =>
          cases hfind : store.find? id with
          | none =>
              rw [resolveWithin_of_not_registered hfind, resolveWithin_of_not_registered hfind]
          | some record =>
              obtain ⟨ref, hregistered⟩ := exists_registered_of_find hfind
              by_cases hasked : (id, name) ∈ asked
              · simp [resolveWithin, hregistered.lookup, hfind, hasked]
              · have hfits' : store.Fits names (asked ++ [(id, name)]) :=
                  hfits.snoc hasked hregistered.mem_ids hname
                have hlength' := hfits'.length_le
                have hsnoc : (asked ++ [(id, name)]).length = asked.length + 1 := by simp
                rw [resolveWithin_succ hregistered fuel name hasked,
                  resolveWithin_succ hregistered fuel' name hasked]
                -- by the induction the sources are asked alike, as each answer keeps the bound
                have hstars : resolveStars
                      (fun source asked => store.resolveWithin fuel source name asked)
                      (starSources record.exportEntries) none (asked ++ [(id, name)]) =
                    resolveStars (fun source asked => store.resolveWithin fuel' source name asked)
                      (starSources record.exportEntries) none (asked ++ [(id, name)]) := by
                  refine resolveStars_congr name (asked.length + 1) ?_ ?_ _ _ _ hfits'
                    (by omega)
                  · intro source asked' hasked' hbound
                    exact resolveWithin_settles hnames fuel source name asked' hname hasked'
                      (by omega)
                  · intro source asked' hasked' hbound
                    exact ih fuel' source name asked' hname hasked' (by omega) (by omega)
                      hasked'.length_le
                cases hexplicit : explicitExport? record.exportEntries name with
                | none => simp only [hstars]
                | some entry =>
                    cases entry with
                    | own as_ localName => rfl
                    | star source => simp only [hstars]
                    | indirect as_ source imported =>
                        cases imported with
                        | star => rfl
                        | name imported =>
                            have himported : imported ∈ names := hnames.imported hregistered
                              (explicitExport?_eq_some_iff.mp hexplicit).mem
                            simp only [ih fuel' source imported _ himported hfits' (by omega)
                              (by omega) hlength']

/-! ## The answer to a request -/

/-- The name that an entry imports, if it is a re-export by name. -/
def importedName? : ExportEntry → Option String
  | .indirect _ _ (.name imported) => some imported
  | _ => none

/-- All names that entries of registered modules import. -/
def importedNames (store : Store) : List String :=
  store.ids.flatMap (fun id =>
    (((store.find? id).map (·.exportEntries)).getD []).filterMap importedName?)

theorem length_importedNames_le (store : Store) :
    store.importedNames.length ≤ store.entryCount := by
  unfold importedNames entryCount
  induction store.ids with
  | nil => simp
  | cons id rest ih =>
      simp only [List.flatMap_cons, List.length_append, List.foldr_cons]
      have hentries := List.length_filterMap_le importedName?
        (((store.find? id).map (·.exportEntries)).getD [])
      cases hfind : store.find? id with
      | none =>
          simp only [hfind, Option.map_none, Option.getD_none, List.filterMap_nil,
            List.length_nil] at hentries ⊢
          omega
      | some record =>
          simp only [hfind, Option.map_some, Option.getD_some] at hentries ⊢
          omega

theorem names_cons_importedNames (store : Store) (name : String) :
    store.Names (name :: store.importedNames) := by
  constructor
  intro id ref record as_ source imported hregistered hentry
  refine List.mem_cons_of_mem _ (List.mem_flatMap.mpr ⟨id, hregistered.mem_ids, ?_⟩)
  rw [hregistered.find]
  exact List.mem_filterMap.mpr ⟨_, hentry, rfl⟩

theorem lt_requestBound (store : Store) (name : String) :
    store.size * (name :: store.importedNames).length < store.requestBound := by
  have hle : store.importedNames.length + 1 ≤ store.entryCount + 1 :=
    Nat.add_le_add_right (length_importedNames_le store) 1
  exact Nat.lt_succ_of_le (Nat.mul_le_mul_left store.size hle)

theorem resolveExport_settles (store : Store) (id : ModuleId) (name : String) :
    ∃ asked, store.Settles (id, name) [] asked (store.resolveExport id name) :=
  ⟨_, (resolveWithin_settles (store.names_cons_importedNames name) store.requestBound id name []
    (by simp) ⟨List.nodup_nil, by simp, by simp⟩ (lt_requestBound store name)).settles⟩

/-- Different answers exclude each other, so each of them says what is on offer. -/
theorem resolveExport_cases (store : Store) (id : ModuleId) (name : String) :
    (store.resolveExport id name = .missing ∧ ∀ binding, ¬ store.Offers (id, name) binding) ∨
    (∃ binding, store.resolveExport id name = .found binding ∧
      store.Offers (id, name) binding ∧ ∀ other, store.Offers (id, name) other → other = binding) ∨
    (store.resolveExport id name = .ambiguous ∧ ∃ binding binding', binding ≠ binding' ∧
      store.Offers (id, name) binding ∧ store.Offers (id, name) binding') := by
  obtain ⟨asked, hsettles⟩ := store.resolveExport_settles id name
  generalize store.resolveExport id name = answer at hsettles
  cases hsettles with
  | ambiguous hne hoffers hoffers' =>
      exact .inr (.inr ⟨rfl, _, _, hne, hoffers, hoffers'⟩)
  | missing hsearched hcovered =>
      refine .inl ⟨rfl, fun binding hoffers => ?_⟩
      simpa using hsearched.offers_eq hcovered hoffers
  | found hoffers hsearched hcovered =>
      refine .inr (.inl ⟨_, rfl, hoffers, fun other hother => ?_⟩)
      exact (Option.some.inj (hsearched.offers_eq hcovered hother)).symm

theorem resolveExport_eq_missing_iff {store : Store} {id : ModuleId} {name : String} :
    store.resolveExport id name = .missing ↔ ∀ binding, ¬ store.Offers (id, name) binding := by
  rcases store.resolveExport_cases id name with
    ⟨hanswer, hnone⟩ | ⟨binding, hanswer, hoffers, -⟩ | ⟨hanswer, binding, -, -, hoffers, -⟩
  · simp [hanswer, hnone]
  · simpa [hanswer] using ⟨binding, hoffers⟩
  · simpa [hanswer] using ⟨binding, hoffers⟩

theorem resolveExport_eq_found_iff {store : Store} {id : ModuleId} {name : String}
    {binding : Binding} :
    store.resolveExport id name = .found binding ↔ store.Offers (id, name) binding ∧
      ∀ other, store.Offers (id, name) other → other = binding := by
  rcases store.resolveExport_cases id name with
    ⟨hanswer, hnone⟩ | ⟨found, hanswer, hoffers, hall⟩ | ⟨hanswer, one, other, hne, hone, hother⟩
  · simp [hanswer, hnone]
  · rw [hanswer, Resolution.found.injEq]
    constructor
    · rintro rfl
      exact ⟨hoffers, hall⟩
    · rintro ⟨hbinding, -⟩
      exact (hall binding hbinding).symm
  · simp only [hanswer, reduceCtorEq, false_iff]
    rintro ⟨-, hall⟩
    exact hne ((hall one hone).trans (hall other hother).symm)

theorem resolveExport_eq_ambiguous_iff {store : Store} {id : ModuleId} {name : String} :
    store.resolveExport id name = .ambiguous ↔ ∃ binding binding', binding ≠ binding' ∧
      store.Offers (id, name) binding ∧ store.Offers (id, name) binding' := by
  rcases store.resolveExport_cases id name with
    ⟨hanswer, hnone⟩ | ⟨found, hanswer, -, hall⟩ | ⟨hanswer, hdiffer⟩
  · simp [hanswer, hnone]
  · simp only [hanswer, reduceCtorEq, false_iff]
    rintro ⟨one, other, hne, hone, hother⟩
    exact hne ((hall one hone).trans (hall other hother).symm)
  · simp only [hanswer, true_iff]
    exact hdiffer

/-- **The answer to a request is the one the rule gives.**  Nothing on offer is `missing`, one
binding only is `found`, and two different ones are `ambiguous`.  The search comes to its end by
itself: with more fuel than the bound it gives the same answer after the same requests. -/
theorem resolveExport_follows_rule (store : Store) (id : ModuleId) (name : String) :
    (store.resolveExport id name = .missing ↔ ∀ binding, ¬ store.Offers (id, name) binding) ∧
    (∀ binding, store.resolveExport id name = .found binding ↔
      store.Offers (id, name) binding ∧
        ∀ other, store.Offers (id, name) other → other = binding) ∧
    (store.resolveExport id name = .ambiguous ↔ ∃ binding binding', binding ≠ binding' ∧
      store.Offers (id, name) binding ∧ store.Offers (id, name) binding') ∧
    ∀ extra, store.resolveWithin (store.requestBound + extra) id name [] =
      store.resolveWithin store.requestBound id name [] := by
  refine ⟨resolveExport_eq_missing_iff, fun _ => resolveExport_eq_found_iff,
    resolveExport_eq_ambiguous_iff, fun extra => ?_⟩
  have hbound := lt_requestBound store name
  exact resolveWithin_fuel (store.names_cons_importedNames name) _ _ id name [] (by simp)
    ⟨List.nodup_nil, by simp, by simp⟩ (Nat.lt_add_right extra hbound) hbound

end Linkage.Store
