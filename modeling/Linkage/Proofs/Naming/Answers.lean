import Linkage.Proofs.Engine.Remembering
import Linkage.Proofs.Naming.Spellings
import Mathlib.Data.List.Dedup

/-!
# Answers over time

A resolver is asked for one specifier after the other, it is cleared now and then, and meanwhile the
host may change in any way.  What has once been answered since the resolver was cleared last is
answered again, whatever the host has become; anything else is found out afresh, from the host as it
is.  A question without an answer leaves no trace.

* `Config.Finds` : what a specifier finds, by the host as it is.
* `Config.Baffles` : what a specifier must be like to name nothing.
* `Resolver.InUse` : a resolver with its host and the answers it has given.
* `Resolver.InUse.Kept` : what is remembered is what has been answered; `Kept.next`, `kept_after`.
* `Resolver.answers_stay` : the whole behaviour.
-/

namespace Linkage

/-- A module is the first one there among the paths that are tried. -/
def Host.HoldsFirst (host : Host) (tried : List ModuleId) (id : ModuleId) : Prop :=
  ∃ before after, tried = before ++ id :: after ∧ host.holds id = true ∧
    ∀ earlier ∈ before, host.holds earlier = false

namespace Config

variable {config : Config} {host : Host} {specifier : String} {referrer? : Option ModuleId}
  {candidate id : ModuleId} {resolved : Resolved}

/-- A specifier means a path: a relative one is joined to the directory of its referrer, an absolute
one is the path itself, and of a bare one the host says what it stands for. -/
inductive Means (config : Config) (host : Host) (specifier : String)
    (referrer? : Option ModuleId) : ModuleId → Prop
  | relative (hrelative : Specifier.isRelative specifier = true) :
      Means config host specifier referrer? (Specifier.join (config.directory referrer?) specifier)
  | absolute (habsolute : Specifier.isAbsolute specifier = true) :
      Means config host specifier referrer? (.ofPath specifier)
  | bare {candidate : ModuleId} (hrelative : Specifier.isRelative specifier = false)
      (habsolute : Specifier.isAbsolute specifier = false)
      (hbare : host.resolveBare specifier referrer? = some candidate) :
      Means config host specifier referrer? candidate

/-- The format of a module: its extension decides, else the host, else it is the default. -/
def formatBy (config : Config) (host : Host) (id : ModuleId) : Format :=
  ((id.extension?.bind config.formatByExtension.find?).or (host.formatHint id)).getD
    config.defaultFormat

/-- A specifier finds a module: the first one there among the path it means, that path with each
extension, and the index file with each extension in the directory of that path. -/
def Finds (config : Config) (host : Host) (specifier : String) (referrer? : Option ModuleId)
    (resolved : Resolved) : Prop :=
  specifier ≠ "" ∧ ∃ candidate, config.Means host specifier referrer? candidate ∧
    host.HoldsFirst (candidate :: config.extensions.map (fun extension =>
        ModuleId.ofPath (candidate.text ++ extension)) ++
      config.extensions.map (fun extension =>
        Specifier.join candidate.text (config.indexName ++ extension))) resolved.id ∧
    resolved.format = config.formatBy host resolved.id

/-- A specifier names nothing: it is empty, or bare and stands for nothing, or no module is there
under any of the paths that are tried. -/
def Baffles (config : Config) (host : Host) (specifier : String)
    (referrer? : Option ModuleId) : Prop :=
  specifier = "" ∨
  (Specifier.isRelative specifier = false ∧ Specifier.isAbsolute specifier = false ∧
    host.resolveBare specifier referrer? = none) ∨
  ∃ candidate, config.Means host specifier referrer? candidate ∧
    host.holds candidate = false ∧
    (∀ extension ∈ config.extensions,
      host.holds (ModuleId.ofPath (candidate.text ++ extension)) = false) ∧
    ∀ extension ∈ config.extensions,
      host.holds (Specifier.join candidate.text (config.indexName ++ extension)) = false

theorem candidate?_eq_some_iff :
    config.candidate? host specifier referrer? = some candidate ↔
      config.Means host specifier referrer? candidate := by
  constructor
  · intro hcandidate
    by_cases hrelative : Specifier.isRelative specifier = true
    · rw [candidate?_of_isRelative hrelative] at hcandidate
      obtain rfl := Option.some.inj hcandidate
      exact .relative hrelative
    · unfold candidate? at hcandidate
      rw [if_neg hrelative] at hcandidate
      split at hcandidate
      · rename_i habsolute
        obtain rfl := Option.some.inj hcandidate
        exact .absolute habsolute
      · rename_i habsolute
        exact .bare (Bool.not_eq_true _ ▸ hrelative) (Bool.not_eq_true _ ▸ habsolute) hcandidate
  · intro hmeans
    cases hmeans with
    | relative hrelative => exact candidate?_of_isRelative hrelative
    | absolute habsolute =>
        unfold candidate?
        rw [if_neg (by rw [Specifier.not_isRelative_of_isAbsolute habsolute]; decide),
          if_pos habsolute]
    | bare hrelative habsolute hbare =>
        unfold candidate?
        rw [if_neg (by rw [hrelative]; decide), if_neg (by rw [habsolute]; decide), hbare]

/-- Only a bare specifier can mean no path at all. -/
theorem candidate?_eq_none_iff :
    config.candidate? host specifier referrer? = none ↔
      Specifier.isRelative specifier = false ∧ Specifier.isAbsolute specifier = false ∧
        host.resolveBare specifier referrer? = none := by
  unfold candidate?
  cases Specifier.isRelative specifier with
  | true => cases referrer? <;> simp
  | false => cases Specifier.isAbsolute specifier <;> simp

theorem formatOf_eq (config : Config) (host : Host) (id : ModuleId) :
    config.formatOf host id = config.formatBy host id := by
  unfold formatOf formatBy formatForExtension
  cases id.extension?.bind config.formatByExtension.find? <;> rfl

theorem probe?_eq_some_iff :
    config.probe? host candidate = some id ↔
      host.HoldsFirst (config.candidates candidate) id := by
  unfold probe? Host.HoldsFirst
  rw [List.find?_eq_some_iff_append]
  constructor
  · rintro ⟨hholds, before, after, htried, hbefore⟩
    exact ⟨before, after, htried, hholds, fun earlier hearlier => by simpa using hbefore earlier hearlier⟩
  · rintro ⟨before, after, htried, hholds, hbefore⟩
    exact ⟨hholds, before, after, htried, fun earlier hearlier => by simp [hbefore earlier hearlier]⟩

theorem probe?_eq_none_iff :
    config.probe? host candidate = none ↔
      host.holds candidate = false ∧
      (∀ extension ∈ config.extensions, host.holds (candidate.withSuffix extension) = false) ∧
      ∀ extension ∈ config.extensions,
        host.holds (candidate.child (config.indexName ++ extension)) = false := by
  unfold probe? candidates
  simp only [List.find?_eq_none, List.cons_append, List.mem_cons, List.mem_append, List.mem_map,
    or_imp, forall_and, forall_eq, forall_exists_index, and_imp, forall_apply_eq_imp_iff₂,
    Bool.not_eq_true]

/-- An answer that is found out afresh is what the specifier names. -/
theorem resolve_eq_ok_iff_finds :
    config.resolve host specifier referrer? = .ok resolved ↔
      config.Finds host specifier referrer? resolved := by
  rw [resolve_eq_ok_iff]
  refine and_congr_right (fun _ => exists_congr (fun candidate => ?_))
  rw [candidate?_eq_some_iff, probe?_eq_some_iff, formatOf_eq]
  rfl

/-- There is no answer exactly when the specifier names nothing. -/
theorem resolve_eq_error_iff_baffles :
    (∃ error, config.resolve host specifier referrer? = .error error) ↔
      config.Baffles host specifier referrer? := by
  by_cases hempty : specifier = ""
  · refine iff_of_true ?_ (.inl hempty)
    unfold resolve
    rw [if_pos hempty]
    exact ⟨_, rfl⟩
  · cases hcandidate : config.candidate? host specifier referrer? with
    | none =>
        refine iff_of_true ?_ (.inr (.inl (candidate?_eq_none_iff.mp hcandidate)))
        unfold resolve
        rw [if_neg hempty]
        simp only [hcandidate, Except.error.injEq, exists_eq']
    | some candidate =>
        have hsomewhere : ¬ (Specifier.isRelative specifier = false ∧
            Specifier.isAbsolute specifier = false ∧
            host.resolveBare specifier referrer? = none) := by
          intro hnowhere
          cases hcandidate.symm.trans (candidate?_eq_none_iff.mpr hnowhere)
        have hprobe := @probe?_eq_none_iff config host candidate
        rw [resolve_of_candidate? hempty hcandidate]
        unfold Baffles
        rw [or_iff_right hempty, or_iff_right hsomewhere]
        cases hfound : config.probe? host candidate with
        | none =>
            refine iff_of_true ⟨_, rfl⟩ ⟨candidate, candidate?_eq_some_iff.mp hcandidate, ?_⟩
            exact hprobe.mp hfound
        | some id =>
            refine iff_of_false (by simp) ?_
            rintro ⟨candidate', hmeans, hnone⟩
            obtain rfl := Option.some.inj
              (hcandidate.symm.trans (candidate?_eq_some_iff.mpr hmeans))
            cases hfound.symm.trans (hprobe.mpr hnone)

/-- All that can go wrong is said of the specifier and the referrer. -/
theorem error_of_resolve {error : ModuleError}
    (hfailed : config.resolve host specifier referrer? = .error error) :
    ∃ reason, error = .resolution specifier referrer? reason := by
  unfold resolve at hfailed
  dsimp only at hfailed
  split at hfailed
  · exact ⟨_, (Except.error.inj hfailed).symm⟩
  · split at hfailed
    · exact ⟨_, (Except.error.inj hfailed).symm⟩
    · split at hfailed
      · exact ⟨_, (Except.error.inj hfailed).symm⟩
      · cases hfailed

end Config

namespace Resolver

/-- What may happen to a resolver and around it. -/
inductive Occasion where
  /-- A specifier is asked for, by a module or by nobody. -/
  | asked (specifier : String) (referrer? : Option ModuleId)
  /-- The resolver is cleared. -/
  | cleared
  /-- The host becomes another one. -/
  | changed (host : Host)

/-- An answer that has been given to a question. -/
structure Answer where
  /-- The specifier. -/
  specifier : String
  /-- The module that asked. -/
  referrer? : Option ModuleId
  /-- What was answered. -/
  answer : Except ModuleError Resolved

/-- A resolver in use. -/
structure InUse where
  /-- The host as it is now. -/
  host : Host
  /-- The resolver. -/
  resolver : Resolver
  /-- The answers given since it was cleared last, in order. -/
  given : List Answer

namespace InUse

variable {config : Config} {use : InUse} {specifier : String} {referrer? : Option ModuleId}

/-- What happens next. -/
def next (config : Config) (use : InUse) : Occasion → InUse
  | .asked specifier referrer? =>
      let (answer, resolver) := use.resolver.resolve config use.host specifier referrer?
      ⟨use.host, resolver, use.given ++ [⟨specifier, referrer?, answer⟩]⟩
  | .cleared => ⟨use.host, .empty, []⟩
  | .changed host => ⟨host, use.resolver, use.given⟩

/-- A new resolver after all that has happened to it. -/
def after (config : Config) (host : Host) (happened : List Occasion) : InUse :=
  happened.foldl (next config) ⟨host, .empty, []⟩

/-- The module that was found for a specifier and referrer when one was found first. -/
def firstFound? (use : InUse) (specifier : String) (referrer? : Option ModuleId) :
    Option Resolved :=
  use.given.findSome? (fun given =>
    if given.specifier = specifier ∧ given.referrer? = referrer? then given.answer.toOption
    else none)

/-- The pairs of specifier and referrer for which a module has been found, each time one was. -/
def foundFor (use : InUse) : List (String × Option ModuleId) :=
  (use.given.filter (·.answer.toOption.isSome)).map (fun given => (given.specifier, given.referrer?))

/-- What is remembered is what has been found, each pair once. -/
structure Kept (use : InUse) : Prop where
  distinct : (use.resolver.memo.map (fun entry => (entry.specifier, entry.referrer?))).Nodup
  remembered : ∀ specifier referrer?,
    use.resolver.remembered? specifier referrer? = use.firstFound? specifier referrer?

/-- Whatever happens next, what is remembered is what has been found. -/
theorem Kept.next (hkept : use.Kept) (occasion : Occasion) : (use.next config occasion).Kept := by
  cases occasion with
  | asked specifier referrer? =>
      refine ⟨nodup_resolve hkept.distinct, fun other asker? => ?_⟩
      show (use.resolver.resolve config use.host specifier referrer?).2.remembered? other asker? =
        List.findSome? _ (use.given ++ [_])
      rw [remembered_resolve, hkept.remembered, List.findSome?_append, List.findSome?_singleton]
      rfl
  | cleared => exact ⟨List.nodup_nil, fun _ _ => rfl⟩
  | changed host => exact ⟨hkept.distinct, hkept.remembered⟩

theorem kept_after (config : Config) (host : Host) (happened : List Occasion) :
    (after config host happened).Kept := by
  induction happened using List.reverseRecOn with
  | nil => exact ⟨List.nodup_nil, fun _ _ => rfl⟩
  | append_singleton happened occasion ih =>
      unfold after
      rw [List.foldl_concat]
      exact ih.next occasion

/-- A pair has been answered when some answer to it was a module. -/
theorem mem_foundFor_iff {key : String × Option ModuleId} :
    key ∈ use.foundFor ↔ (use.firstFound? key.1 key.2).isSome := by
  unfold foundFor firstFound?
  rw [List.findSome?_isSome_iff]
  constructor
  · intro hmem
    obtain ⟨given, hgiven, rfl⟩ := List.mem_map.mp hmem
    obtain ⟨hgiven, hfound⟩ := List.mem_filter.mp hgiven
    exact ⟨given, hgiven, by rwa [if_pos ⟨rfl, rfl⟩]⟩
  · rintro ⟨given, hgiven, hfound⟩
    split at hfound
    · rename_i hsame
      refine List.mem_map.mpr ⟨given, List.mem_filter.mpr ⟨hgiven, hfound⟩, ?_⟩
      exact Prod.ext hsame.1 hsame.2
    · cases hfound

/-- As much is remembered as there are pairs for which a module has been found. -/
theorem Kept.size_eq (hkept : use.Kept) : use.resolver.size = use.foundFor.dedup.length := by
  have hperm := (List.perm_ext_iff_of_nodup hkept.distinct (List.nodup_dedup use.foundFor)).mpr
    (fun key => by rw [Resolver.mem_keys_iff, hkept.remembered, List.mem_dedup, mem_foundFor_iff])
  unfold size
  simpa only [List.length_map] using hperm.length_eq

end InUse

/-- **Answers stay, failures do not.**  Whatever has happened before: a module that has been found for a
specifier and referrer since the resolver was cleared last is found again; if none has, the answer is
what the specifier finds by the host as it is, and an error about this specifier exactly when it names
nothing.  After an error the resolver is as it was, and it remembers as much as there are pairs for
which a module has been found. -/
theorem answers_stay (config : Config) (host : Host) (happened : List Occasion) (specifier : String)
    (referrer? : Option ModuleId) :
    let use := InUse.after config host happened
    let ended := use.resolver.resolve config use.host specifier referrer?
    (∀ resolved, use.firstFound? specifier referrer? = some resolved → ended.1 = .ok resolved) ∧
    (use.firstFound? specifier referrer? = none →
      (∀ resolved, ended.1 = .ok resolved ↔ config.Finds use.host specifier referrer? resolved) ∧
      ((∃ error, ended.1 = .error error) ↔ config.Baffles use.host specifier referrer?)) ∧
    (∀ error, ended.1 = .error error →
      (∃ reason, error = .resolution specifier referrer? reason) ∧ ended.2 = use.resolver) ∧
    use.resolver.size = use.foundFor.dedup.length := by
  intro use ended
  have hkept : use.Kept := InUse.kept_after config host happened
  have hafresh : use.firstFound? specifier referrer? = none →
      ended.1 = config.resolve use.host specifier referrer? := by
    intro hnone
    rw [← hkept.remembered] at hnone
    show (use.resolver.resolve config use.host specifier referrer?).1 = _
    rw [resolve_of_unknown hnone]
    cases config.resolve use.host specifier referrer? <;> rfl
  have hagain : ∀ resolved, use.firstFound? specifier referrer? = some resolved →
      ended.1 = .ok resolved := by
    intro resolved hfound
    rw [← hkept.remembered] at hfound
    exact congrArg Prod.fst (resolve_of_remembered hfound)
  refine ⟨hagain, fun hnone => ?_, fun error hfailed => ⟨?_, resolve_of_error hfailed⟩, hkept.size_eq⟩
  · rw [hafresh hnone]
    exact ⟨fun resolved => Config.resolve_eq_ok_iff_finds, Config.resolve_eq_error_iff_baffles⟩
  · cases hfound : use.firstFound? specifier referrer? with
    | some resolved => cases hfailed.symm.trans (hagain resolved hfound)
    | none => exact Config.error_of_resolve ((hafresh hfound).symm.trans hfailed)

end Resolver

end Linkage
