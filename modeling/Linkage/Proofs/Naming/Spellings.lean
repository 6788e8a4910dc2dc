import Linkage.Host.Files
import Linkage.Host.Shelf
import Linkage.Proofs.Engine.Remembering
import Linkage.Proofs.Naming.Paths
import Linkage.Proofs.Table

/-!
# One module for all its spellings

What a specifier means is a path, and what it names is the first module that exists among the path
and what may be meant by it.  The module found exists, so its own path names it again, in the same
format, whoever asks.  A relative specifier means what the path it is joined to means.

* `Host.IsCanonical` : paths given for bare specifiers are canonical; `FileHost.isCanonical`,
  `Shelf.isCanonical`.
* `Config.resolve_text` : what is found is found by its own path.
* `Config.resolve_relative` : a relative specifier and the absolute path that it means.
* `Resolver.after` : a resolver that has been asked some questions.
* `Resolver.spellings_agree` : both, for resolvers that remember.
-/

namespace Linkage

/-- The paths that a host gives for bare specifiers are canonical. -/
def Host.IsCanonical (host : Host) : Prop :=
  ∀ bare asker? id, host.resolveBare bare asker? = some id → id.IsCanonical

theorem FileHost.isCanonical (files : FileHost) : files.toHost.IsCanonical := by
  intro bare asker? id hfound
  obtain ⟨package, -, rfl⟩ := Option.map_eq_some_iff.mp hfound
  have hentry : ∀ dir, (files.packageEntry dir).IsCanonical := by
    intro dir
    unfold packageEntry
    split <;> exact ModuleId.isCanonical_ofPath _
  unfold withinPackage
  split
  · exact hentry package
  · dsimp only
    split
    · exact hentry _
    · exact ModuleId.isCanonical_ofPath _

/-- The paths that names of a shelf stand for have been given as texts. -/
theorem Shelf.isCanonical {shelf : Shelf}
    (haliases : ∀ bare id, shelf.aliases.find? bare = some id → ∃ path, id = .ofPath path) :
    shelf.toHost.IsCanonical := by
  intro bare asker? id hfound
  change (if shelf.hasIndex then shelf.aliases.find? bare else none) = some id at hfound
  split at hfound
  · obtain ⟨path, rfl⟩ := haliases bare id hfound
    exact ModuleId.isCanonical_ofPath path
  · cases hfound

namespace Specifier

variable {specifier : String}

theorem not_isAbsolute_of_isRelative (hrelative : isRelative specifier = true) :
    isAbsolute specifier = false := by
  unfold isRelative at hrelative
  unfold isAbsolute
  split at hrelative <;> simp_all

theorem not_isRelative_of_isAbsolute (habsolute : isAbsolute specifier = true) :
    isRelative specifier = false := by
  cases hrelative : isRelative specifier with
  | false => rfl
  | true => exact habsolute.symm.trans (not_isAbsolute_of_isRelative hrelative)

theorem ne_empty_of_isAbsolute (habsolute : isAbsolute specifier = true) : specifier ≠ "" := by
  rintro rfl
  cases habsolute

theorem ne_empty_of_isRelative (hrelative : isRelative specifier = true) : specifier ≠ "" := by
  rintro rfl
  cases hrelative

theorem isCanonical_join (base specifier : String) : (join base specifier).IsCanonical := by
  unfold join
  split <;> exact ModuleId.isCanonical_ofPath _

end Specifier

theorem ModuleId.IsCanonical.isAbsolute {id : ModuleId} (hcanonical : id.IsCanonical) :
    Specifier.isAbsolute id.text = true :=
  decide_eq_true hcanonical.rooted

namespace Config

variable {config : Config} {host : Host} {specifier : String} {referrer? asker? : Option ModuleId}
  {candidate id : ModuleId} {resolved : Resolved}

/-- The directory that relative specifiers start from. -/
def directory (config : Config) : Option ModuleId → String
  | some referrer => referrer.dirname
  | none => config.baseDir

theorem candidate?_of_isRelative (hrelative : Specifier.isRelative specifier = true) :
    config.candidate? host specifier referrer? =
      some (Specifier.join (config.directory referrer?) specifier) := by
  unfold candidate?
  rw [if_pos hrelative]
  cases referrer? <;> rfl

theorem candidate?_text (hcanonical : id.IsCanonical) :
    config.candidate? host id.text asker? = some id := by
  unfold candidate?
  rw [if_neg (by simp [Specifier.not_isRelative_of_isAbsolute hcanonical.isAbsolute]),
    if_pos hcanonical.isAbsolute, hcanonical.ofPath_text]

/-- All that a specifier can mean is a canonical path. -/
theorem isCanonical_of_candidate? (hhost : host.IsCanonical)
    (hcandidate : config.candidate? host specifier referrer? = some candidate) :
    candidate.IsCanonical := by
  by_cases hrelative : Specifier.isRelative specifier = true
  · rw [candidate?_of_isRelative hrelative] at hcandidate
    obtain rfl := Option.some.inj hcandidate
    exact Specifier.isCanonical_join _ specifier
  · unfold candidate? at hcandidate
    rw [if_neg hrelative] at hcandidate
    split at hcandidate
    · obtain rfl := Option.some.inj hcandidate
      exact ModuleId.isCanonical_ofPath specifier
    · exact hhost specifier referrer? candidate hcandidate

/-- The paths that may be meant by a canonical one are canonical. -/
theorem isCanonical_of_mem_candidates (hcandidate : candidate.IsCanonical)
    (hmem : id ∈ config.candidates candidate) : id.IsCanonical := by
  unfold candidates at hmem
  rcases List.mem_append.mp hmem with hmem | hmem
  · rcases List.mem_cons.mp hmem with rfl | hmem
    · exact hcandidate
    · obtain ⟨extension, -, rfl⟩ := List.mem_map.mp hmem
      exact ModuleId.isCanonical_ofPath _
  · obtain ⟨extension, -, rfl⟩ := List.mem_map.mp hmem
    exact Specifier.isCanonical_join _ _

/-- A path that names a module is not probed any further. -/
theorem probe?_of_holds (hholds : host.holds id = true) : config.probe? host id = some id := by
  unfold probe? candidates
  rw [List.cons_append, List.find?_cons_of_pos hholds]

/-- How a specifier is resolved once it is known what it means. -/
theorem resolve_of_candidate? (hne : specifier ≠ "")
    (hcandidate : config.candidate? host specifier referrer? = some candidate) :
    config.resolve host specifier referrer? = match config.probe? host candidate with
      | none => .error (.resolution specifier referrer? s!"no module at '{candidate.text}'")
      | some id => .ok ⟨id, config.formatOf host id⟩ := by
  unfold resolve
  dsimp only
  rw [if_neg hne]
  cases hprobe : config.probe? host candidate <;> simp only [hcandidate, hprobe]

theorem resolve_eq_ok_iff : config.resolve host specifier referrer? = .ok resolved ↔
    specifier ≠ "" ∧ ∃ candidate, config.candidate? host specifier referrer? = some candidate ∧
      config.probe? host candidate = some resolved.id ∧
      resolved.format = config.formatOf host resolved.id := by
  by_cases hempty : specifier = ""
  · simp [resolve, hempty]
  · cases hcandidate : config.candidate? host specifier referrer? with
    | none => simp [resolve, hempty, hcandidate]
    | some candidate =>
        rw [resolve_of_candidate? hempty hcandidate]
        cases hprobe : config.probe? host candidate with
        | none => simp [hempty, hprobe]
        | some id =>
            obtain ⟨found, format⟩ := resolved
            simp only [Except.ok.injEq, Resolved.mk.injEq, ne_eq, hempty, not_false_eq_true,
              Option.some.injEq, exists_eq_left', hprobe, true_and]
            refine ⟨?_, ?_⟩
            · rintro ⟨rfl, rfl⟩
              exact ⟨rfl, rfl⟩
            · rintro ⟨rfl, rfl⟩
              exact ⟨rfl, rfl⟩

/-- What a specifier names is a canonical path. -/
theorem isCanonical_of_resolve (hhost : host.IsCanonical)
    (hresolved : config.resolve host specifier referrer? = .ok resolved) :
    resolved.id.IsCanonical := by
  obtain ⟨-, candidate, hcandidate, hprobe, -⟩ := resolve_eq_ok_iff.mp hresolved
  exact isCanonical_of_mem_candidates (isCanonical_of_candidate? hhost hcandidate)
    (List.mem_of_find?_eq_some hprobe)

/-- **What a specifier names is named by its own path**, in the same format, whoever asks. -/
theorem resolve_text (hhost : host.IsCanonical)
    (hresolved : config.resolve host specifier referrer? = .ok resolved)
    (asker? : Option ModuleId) : config.resolve host resolved.id.text asker? = .ok resolved := by
  have hcanonical := isCanonical_of_resolve hhost hresolved
  obtain ⟨-, candidate, -, hprobe, hformat⟩ := resolve_eq_ok_iff.mp hresolved
  have hholds : host.holds resolved.id = true := List.find?_some hprobe
  exact resolve_eq_ok_iff.mpr ⟨Specifier.ne_empty_of_isAbsolute hcanonical.isAbsolute, resolved.id,
    candidate?_text hcanonical, probe?_of_holds hholds, hformat⟩

/-- **A relative specifier means what the path it is joined to means**: both name the same, or
neither names anything. -/
theorem resolve_relative (hrelative : Specifier.isRelative specifier = true)
    (referrer? asker? : Option ModuleId) {spelt : ModuleId}
    (hspelt : spelt = Specifier.join (config.directory referrer?) specifier) :
    (∃ resolved, config.resolve host specifier referrer? = .ok resolved ∧
      config.resolve host spelt.text asker? = .ok resolved) ∨
    ∃ reason, config.resolve host specifier referrer? =
        .error (.resolution specifier referrer? reason) ∧
      config.resolve host spelt.text asker? = .error (.resolution spelt.text asker? reason) := by
  have hcanonical : spelt.IsCanonical := hspelt ▸ Specifier.isCanonical_join _ specifier
  rw [resolve_of_candidate? (Specifier.ne_empty_of_isRelative hrelative)
      (candidate?_of_isRelative hrelative),
    resolve_of_candidate? (Specifier.ne_empty_of_isAbsolute hcanonical.isAbsolute)
      (candidate?_text hcanonical), ← hspelt]
  cases config.probe? host spelt with
  | some id => exact .inl ⟨_, rfl, rfl⟩
  | none => exact .inr ⟨_, rfl, rfl⟩

end Config

namespace Resolver

variable {config : Config} {host : Host}

/-- A resolver that has been asked for some specifiers, each by a referrer or by nobody. -/
def after (config : Config) (host : Host) (asked : List (String × Option ModuleId)) : Resolver :=
  asked.foldl (fun resolver request => (resolver.resolve config host request.1 request.2).2) .empty

theorem faithful_after (asked : List (String × Option ModuleId)) :
    (after config host asked).Faithful config host := by
  unfold after
  suffices hfold : ∀ resolver : Resolver, resolver.Faithful config host →
      (asked.foldl (fun resolver request =>
        (resolver.resolve config host request.1 request.2).2) resolver).Faithful config host from
    hfold .empty (.empty config host)
  induction asked with
  | nil => exact fun _ hfaithful => hfaithful
  | cons request rest ih =>
      exact fun resolver hfaithful => ih _ (hfaithful.resolve request.1 request.2)

/-- **A module is reached under one identifier and in one format by all its spellings.**  Whatever
has been asked before: what a specifier names is named by its own path, and a relative specifier
names what the path it is joined to names, or both name nothing. -/
theorem spellings_agree (hhost : host.IsCanonical)
    (asked asked' : List (String × Option ModuleId)) (specifier : String)
    (referrer? asker? : Option ModuleId) :
    (∀ resolved, ((after config host asked).resolve config host specifier referrer?).1 = .ok resolved →
      ((after config host asked').resolve config host resolved.id.text asker?).1 = .ok resolved) ∧
    (Specifier.isRelative specifier = true →
      let spelt := Specifier.join (config.directory referrer?) specifier
      (∃ resolved,
        ((after config host asked).resolve config host specifier referrer?).1 = .ok resolved ∧
        ((after config host asked').resolve config host spelt.text asker?).1 = .ok resolved) ∨
      ∃ reason, ((after config host asked).resolve config host specifier referrer?).1 =
          .error (.resolution specifier referrer? reason) ∧
        ((after config host asked').resolve config host spelt.text asker?).1 =
          .error (.resolution spelt.text asker? reason)) := by
  rw [(faithful_after asked).resolve_eq]
  refine ⟨fun resolved hresolved => ?_, fun hrelative => ?_⟩
  · rw [(faithful_after asked').resolve_eq]
    exact Config.resolve_text hhost hresolved asker?
  · dsimp only
    rw [(faithful_after asked').resolve_eq]
    exact Config.resolve_relative hrelative referrer? asker? rfl

/-- Two modules that one path may mean, and a name for that path. -/
def twins : Shelf :=
  ((Shelf.empty.insert "/app/lib.mjs" (.ofBody [])).insert "/app/lib/index.js" (.ofBody [])).alias_
    "lib" "app//lib"

theorem spellings_agree_twins : twins.toHost.IsCanonical ∧ Specifier.isRelative "../lib" = true ∧
    ∃ resolved : Resolved, resolved.id = ⟨"/app/lib.mjs"⟩ ∧
      ((after .standard twins.toHost [("lib", none)]).resolve .standard twins.toHost "../lib"
        (some ⟨"/app/tools/main.mjs"⟩)).1 = .ok resolved ∧
      ((after .standard twins.toHost []).resolve .standard twins.toHost "/app/lib.mjs"
        (some ⟨"/app/lib/index.js"⟩)).1 = .ok resolved ∧
      ((after .standard twins.toHost [("./lib", none)]).resolve .standard twins.toHost "/app/lib"
        none).1 = .ok resolved := by
  have hhost : twins.toHost.IsCanonical := by
    refine Shelf.isCanonical (fun bare id hfound => ⟨"app//lib", ?_⟩)
    change ((∅ : Table ModuleId).insert "lib" (.ofPath "app//lib")).find? bare = some id at hfound
    rw [Table.find?_insert] at hfound
    split at hfound
    · exact (Option.some.inj hfound).symm
    · cases hfound
  have hrelative : Specifier.isRelative "../lib" = true := by decide
  have hfirst : ((after .standard twins.toHost [("lib", none)]).resolve .standard twins.toHost
      "../lib" (some ⟨"/app/tools/main.mjs"⟩)).1 = .ok ⟨⟨"/app/lib.mjs"⟩, .modern⟩ := by
    decide +kernel
  have hagree := @spellings_agree .standard _ hhost [("lib", none)] [] "../lib"
    (some ⟨"/app/tools/main.mjs"⟩) (some ⟨"/app/lib/index.js"⟩)
  have hagree' := @spellings_agree .standard _ hhost [("lib", none)] [("./lib", none)]
    "../lib" (some ⟨"/app/tools/main.mjs"⟩) none
  refine ⟨hhost, hrelative, _, rfl, hfirst, hagree.1 _ hfirst, ?_⟩
  rcases hagree'.2 hrelative with ⟨resolved, hone, hother⟩ | ⟨reason, hone, -⟩
  · obtain rfl := Except.ok.inj (hone.symm.trans hfirst)
    have hspelt : (Specifier.join (Config.standard.directory (some ⟨"/app/tools/main.mjs"⟩))
        "../lib").text = "/app/lib" := by decide +kernel
    rw [← hspelt]
    exact hother
  · cases hone.symm.trans hfirst

end Resolver

end Linkage
