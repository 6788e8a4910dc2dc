import Linkage.Proofs.Engine.Analyzing
import Mathlib.Data.List.Forall2

/-!
# Items and their entries

What an item of a declaration stands for is said here without the analysis that finds it out.

* `ImportItem.Yields`, `ExportItem.Yields` : the entry of an item.
* `ExportItem.Yields.publicName?` : the public name of an entry is told by the item alone.
* `Analysis.addItems_ok`, `Analysis.addItems_fails` : the items of a declaration are added one by one,
  or one of them has no entry, or one public name is given twice.
* `Analysis.requested_request` : what is asked for is listed without its repetitions.
-/

namespace Linkage

/-- What an import item takes from a module. -/
inductive ImportItem.Yields (source : ModuleId) : ImportItem → ImportEntry → Prop
  | default (as_ : String) : Yields source (.default as_) ⟨source, .name "default", as_⟩
  | named (imported : String) (alias? : Option String) :
      Yields source (.named imported alias?)
        ⟨source, .name imported, alias?.getD imported⟩
  | star (as_ : String) : Yields source (.star as_) ⟨source, .star, as_⟩

/-- What an export item gives, with the imports of the module and the source of its declaration. -/
inductive ExportItem.Yields (imports : List ImportEntry) :
    Option ModuleId → ExportItem → ExportEntry → Prop
  | default : Yields imports none .default (.own "default" defaultLocal)
  | defaultFrom (source : ModuleId) :
      Yields imports (some source) .default (.indirect "default" source (.name "default"))
  /-- No import has this local name. -/
  | own (name : String) (alias? : Option String) (hown : ∀ entry ∈ imports, entry.as_ ≠ name) :
      Yields imports none (.named name alias?) (.own (alias?.getD name) name)
  /-- The first import of this local name is passed on. -/
  | passed (name : String) (alias? : Option String) (entry : ImportEntry)
      (front back : List ImportEntry) (himports : imports = front ++ entry :: back)
      (hname : entry.as_ = name) (hfirst : ∀ other ∈ front, other.as_ ≠ name) :
      Yields imports none (.named name alias?)
        (.indirect (alias?.getD name) entry.source entry.imported)
  | namedFrom (source : ModuleId) (name : String) (alias? : Option String) :
      Yields imports (some source) (.named name alias?)
        (.indirect (alias?.getD name) source (.name name))
  | star (source : ModuleId) : Yields imports (some source) .star (.star source)
  | starAs (source : ModuleId) (as_ : String) :
      Yields imports (some source) (.starAs as_) (.indirect as_ source .star)

namespace ExportItem

/-- The public name that an item gives. -/
def publicName? : ExportItem → Option String
  | default => some "default"
  | named name alias? => some (alias?.getD name)
  | star => none
  | starAs as_ => some as_

/-- Only of another module can every name be exported, or the namespace. -/
def NeedsSource : ExportItem → Prop
  | default | named _ _ => False
  | star | starAs _ => True

variable {imports : List ImportEntry} {source? : Option ModuleId} {item : ExportItem}
  {entry : ExportEntry}

theorem Yields.publicName? (hyields : item.Yields imports source? entry) :
    entry.publicName? = item.publicName? := by
  cases hyields <;> rfl

theorem Yields.sourced (hyields : item.Yields imports source? entry) (hneeds : item.NeedsSource) :
    source? ≠ none := by
  cases hyields with
  | default => exact hneeds.elim
  | own name alias? hown => exact hneeds.elim
  | passed name alias? found front back himports hname hfirst => exact hneeds.elim
  | defaultFrom source => exact Option.some_ne_none source
  | namedFrom source name alias? => exact Option.some_ne_none source
  | star source => exact Option.some_ne_none source
  | starAs source as_ => exact Option.some_ne_none source

/-- Without a source module, an exported name leads elsewhere exactly when it is imported. -/
theorem Yields.indirect_iff {name : String} {alias? : Option String}
    (hyields : (named name alias?).Yields imports none entry) :
    (∃ as_ source imported, entry = .indirect as_ source imported) ↔
      ∃ found ∈ imports, found.as_ = name := by
  cases hyields with
  | own _ _ hown =>
      refine iff_of_false ?_ ?_
      · rintro ⟨_, _, _, hentry⟩
        cases hentry
      · rintro ⟨found, hfound, hname⟩
        exact hown found hfound hname
  | passed _ _ found front back himports hname hfirst =>
      refine iff_of_true ⟨_, _, _, rfl⟩ ⟨found, ?_, hname⟩
      rw [himports]
      exact List.mem_append_right _ List.mem_cons_self

end ExportItem

namespace Analysis

variable {id : ModuleId} {analysis analysis' : Analysis} {source? : Option ModuleId}

theorem yields_importEntry (source : ModuleId) (item : ImportItem) :
    item.Yields source (importEntry source item) := by
  cases item with
  | default as_ => exact .default as_
  | named imported alias? => exact .named imported alias?
  | star as_ => exact .star as_

theorem exportEntry_ok {imports : List ImportEntry} {item : ExportItem} {entry : ExportEntry}
    (hentry : exportEntry id imports source? item = .ok entry) :
    item.Yields imports source? entry := by
  unfold exportEntry at hentry
  split at hentry
  · obtain rfl := Except.ok.inj hentry
    exact .default
  · obtain rfl := Except.ok.inj hentry
    exact .defaultFrom _
  · split at hentry
    · rename_i found hfound
      obtain rfl := Except.ok.inj hentry
      obtain ⟨hname, front, back, himports, hfirst⟩ := List.find?_eq_some_iff_append.mp hfound
      exact .passed _ _ found front back himports (of_decide_eq_true hname)
        (fun other hother => by simpa using hfirst other hother)
    · rename_i hnone
      obtain rfl := Except.ok.inj hentry
      exact .own _ _ (fun other hother => by simpa using List.find?_eq_none.mp hnone other hother)
  · obtain rfl := Except.ok.inj hentry
    exact .namedFrom _ _ _
  · obtain rfl := Except.ok.inj hentry
    exact .star _
  · obtain rfl := Except.ok.inj hentry
    exact .starAs _ _
  · cases hentry
  · cases hentry

/-- An item has no entry only for want of a source module. -/
theorem exportEntry_fails {imports : List ImportEntry} {item : ExportItem}
    (hfails : Fails (exportEntry id imports source? item)) :
    source? = none ∧ item.NeedsSource := by
  obtain ⟨error, hfailed⟩ := hfails
  unfold exportEntry at hfailed
  split at hfailed
  · cases hfailed
  · cases hfailed
  · split at hfailed <;> cases hfailed
  · cases hfailed
  · cases hfailed
  · cases hfailed
  · exact ⟨rfl, trivial⟩
  · exact ⟨rfl, trivial⟩

/-- The public names that have been given. -/
def publicNames (analysis : Analysis) : List String := analysis.exports.filterMap (·.publicName?)

/-- An entry is refused only if its public name has been given. -/
theorem addExport_fails {entry : ExportEntry} (hfails : Fails (analysis.addExport id entry)) :
    ∃ name ∈ analysis.publicNames, entry.publicName? = some name := by
  obtain ⟨error, hfailed⟩ := hfails
  unfold addExport at hfailed
  split at hfailed
  · rename_i name hname
    split at hfailed
    · rename_i htaken
      obtain ⟨other, hother, hsame⟩ := List.any_eq_true.mp htaken
      exact ⟨name, List.mem_filterMap.mpr ⟨other, hother, by simpa using hsame⟩, hname⟩
    · cases hfailed
  · cases hfailed

/-- An entry that is added keeps the public names apart. -/
theorem addExport_nodup {entry : ExportEntry} (hnodup : analysis.publicNames.Nodup)
    (hadded : analysis.addExport id entry = .ok analysis') : analysis'.publicNames.Nodup := by
  have hlast := addExport_eq_ok hadded
  unfold addExport at hadded
  rw [hlast]
  unfold publicNames at hnodup ⊢
  rw [List.filterMap_append]
  cases hname : entry.publicName? with
  | none => simpa [hname] using hnodup
  | some name =>
      rw [hname] at hadded
      dsimp only at hadded
      split at hadded
      · cases hadded
      rename_i hfree
      have hapart : ∀ taken ∈ analysis.exports.filterMap (·.publicName?), taken ≠ name := by
        rintro _ htaken rfl
        obtain ⟨other, hother, hsame⟩ := List.mem_filterMap.mp htaken
        exact hfree (List.any_eq_true.mpr ⟨other, hother, by simp [hsame]⟩)
      simpa [hname, List.nodup_append, hnodup] using hapart

/-- **The items of a declaration that are added become entries**, in their order, at the end. -/
theorem addItems_ok {items : List ExportItem}
    (hadded : analysis.addItems id source? items = .ok analysis') :
    ∃ entries, List.Forall₂ (ExportItem.Yields analysis.imports source?) items entries ∧
      analysis' = { analysis with exports := analysis.exports ++ entries } ∧
      (analysis.publicNames.Nodup → analysis'.publicNames.Nodup) := by
  unfold addItems at hadded
  induction items generalizing analysis with
  | nil =>
      obtain rfl := Except.ok.inj hadded
      exact ⟨[], .nil, by rw [List.append_nil], fun hnodup => hnodup⟩
  | cons item rest ih =>
      rw [List.foldlM_cons] at hadded
      obtain ⟨next, hfirst, hrest⟩ := bind_eq_ok_iff.mp hadded
      obtain ⟨entry, hentry, hone⟩ := bind_eq_ok_iff.mp hfirst
      have hnext := addExport_eq_ok hone
      obtain ⟨entries, hentries, hlast, hapart⟩ := ih hrest
      refine ⟨entry :: entries, .cons (exportEntry_ok hentry) ?_, ?_, fun hnodup =>
        hapart (addExport_nodup hnodup hone)⟩
      · rwa [hnext] at hentries
      · rw [hlast, hnext]
        simp

/-- **A declaration is refused** only if an item has no source module that needs one, or a public
name is given twice. -/
theorem addItems_fails {items : List ExportItem}
    (hfails : Fails (analysis.addItems id source? items)) :
    (source? = none ∧ ∃ item ∈ items, item.NeedsSource) ∨
      ¬ (analysis.publicNames ++ items.filterMap (·.publicName?)).Nodup := by
  unfold addItems at hfails
  induction items generalizing analysis with
  | nil => exact absurd hfails (not_fails_ok analysis)
  | cons item rest ih =>
      rw [List.foldlM_cons] at hfails
      rcases fails_bind_iff.mp hfails with hfirst | ⟨next, hnext, hrest⟩
      · rcases fails_bind_iff.mp hfirst with hentry | ⟨entry, hentry, hone⟩
        · obtain ⟨hnone, hneeds⟩ := exportEntry_fails hentry
          exact .inl ⟨hnone, item, List.mem_cons_self, hneeds⟩
        · -- the name of the item stands among the names that have been given
          obtain ⟨name, htaken, hname⟩ := addExport_fails hone
          refine .inr (fun hnodup => ?_)
          rw [(exportEntry_ok hentry).publicName?] at hname
          rw [List.filterMap_cons_some hname] at hnodup
          exact (List.nodup_append.mp hnodup).2.2 name htaken name List.mem_cons_self rfl
      · obtain ⟨entry, hentry, hone⟩ := bind_eq_ok_iff.mp hnext
        have hnext := addExport_eq_ok hone
        rcases ih hrest with ⟨hnone, other, hother, hneeds⟩ | hrepeated
        · exact .inl ⟨hnone, other, List.mem_cons_of_mem _ hother, hneeds⟩
        · refine .inr (fun hnodup => hrepeated ?_)
          have hnames : next.publicNames = analysis.publicNames ++ item.publicName?.toList := by
            rw [hnext, ← (exportEntry_ok hentry).publicName?]
            unfold publicNames
            rw [List.filterMap_append]
            cases hname : entry.publicName? <;> simp [hname]
          rw [hnames, List.append_assoc]
          cases hname : item.publicName? with
          | none => simpa [hname] using hnodup
          | some name => simpa [hname] using hnodup

/-- A module that has been asked for is not listed again. -/
theorem requested_request {targets : List ModuleId}
    (hrequested : analysis.requested = targets.eraseDups) (target : ModuleId) :
    (analysis.request target).requested = (targets ++ [target]).eraseDups := by
  rw [List.eraseDups_append, ← hrequested]
  unfold request
  split
  · rename_i hmem
    rw [hrequested, List.mem_eraseDups] at hmem
    simp [List.removeAll, hmem]
  · rename_i hmem
    have hnew : target ∉ targets := fun htarget =>
      hmem (hrequested ▸ List.mem_eraseDups.mpr htarget)
    simp [List.removeAll, hnew, List.eraseDups_cons]

end Analysis

end Linkage
