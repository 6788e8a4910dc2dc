import Linkage.Resolving
import Mathlib.Data.List.Nodup
import Mathlib.Data.List.Perm.Basic

/-!
# What a resolver remembers

A resolver answers as its memory says, or afresh.  As long as the configuration and the host stay
the same, the two do not differ: what is remembered is what resolving afresh would give.

* `Resolver.remembered_resolve` : what is remembered after an answer.
* `Resolver.Faithful` : nothing else is remembered than what resolving afresh gives.
* `Resolver.Faithful.size_eq` : how much is remembered is told by what is remembered.
-/

namespace Linkage

namespace Resolver

variable {resolver : Resolver} {config : Config} {host : Host} {specifier other : String}
  {referrer? asker? : Option ModuleId} {resolved : Resolved}

theorem resolve_of_remembered (hknown : resolver.remembered? specifier referrer? = some resolved) :
    resolver.resolve config host specifier referrer? = (.ok resolved, resolver) := by
  unfold resolve
  rw [hknown]

theorem resolve_of_unknown (hunknown : resolver.remembered? specifier referrer? = none) :
    resolver.resolve config host specifier referrer? =
      match config.resolve host specifier referrer? with
      | .error error => (.error error, resolver)
      | .ok resolved => (.ok resolved, ⟨resolver.memo ++ [⟨specifier, referrer?, resolved⟩]⟩) := by
  unfold resolve
  cases config.resolve host specifier referrer? <;> simp only [hunknown]

/-- A resolver that cannot answer remembers nothing more. -/
theorem resolve_of_error {error : ModuleError}
    (hfailed : (resolver.resolve config host specifier referrer?).1 = .error error) :
    (resolver.resolve config host specifier referrer?).2 = resolver := by
  cases hknown : resolver.remembered? specifier referrer? with
  | some known => rw [resolve_of_remembered hknown]
  | none =>
      rw [resolve_of_unknown hknown] at hfailed ⊢
      cases hfresh : config.resolve host specifier referrer? with
      | error error => rfl
      | ok resolved =>
          rw [hfresh] at hfailed
          cases hfailed

/-- A further answer is found unless there is one already. -/
theorem remembered_append (memo : List Remembered) (entry : Remembered) (specifier : String)
    (referrer? : Option ModuleId) :
    remembered? ⟨memo ++ [entry]⟩ specifier referrer? =
      ((⟨memo⟩ : Resolver).remembered? specifier referrer?).or
        ((⟨[entry]⟩ : Resolver).remembered? specifier referrer?) := by
  unfold remembered?
  rw [List.find?_append]
  cases memo.find? _ <;> rfl

theorem remembered_single (specifier other : String) (referrer? asker? : Option ModuleId)
    (resolved : Resolved) :
    remembered? ⟨[⟨specifier, referrer?, resolved⟩]⟩ other asker? =
      if specifier = other ∧ referrer? = asker? then some resolved else none := by
  unfold remembered?
  rw [List.find?_singleton]
  split <;> rename_i hsame
  · rw [if_pos (by simpa using hsame)]
    rfl
  · rw [if_neg (by simpa using hsame)]
    rfl

/-- What is remembered after resolving was remembered, or it is the answer. -/
theorem remembered_resolve (resolver : Resolver) (config : Config) (host : Host)
    (specifier other : String) (referrer? asker? : Option ModuleId) :
    (resolver.resolve config host specifier referrer?).2.remembered? other asker? =
      (resolver.remembered? other asker?).or
        (if specifier = other ∧ referrer? = asker? then
          (resolver.resolve config host specifier referrer?).1.toOption else none) := by
  cases hknown : resolver.remembered? specifier referrer? with
  | some resolved =>
      rw [resolve_of_remembered hknown]
      split
      · rename_i hsame
        rw [← hsame.1, ← hsame.2, hknown]
        rfl
      · rw [Option.or_none]
  | none =>
      rw [resolve_of_unknown hknown]
      cases config.resolve host specifier referrer? with
      | error error => exact (by simp [Except.toOption])
      | ok resolved =>
          dsimp only
          rw [remembered_append, remembered_single]
          rfl

/-- The answer is remembered. -/
theorem remembered_of_resolve
    (hresolved : (resolver.resolve config host specifier referrer?).1 = .ok resolved) :
    (resolver.resolve config host specifier referrer?).2.remembered? specifier referrer? =
      some resolved := by
  rw [remembered_resolve, if_pos ⟨rfl, rfl⟩, hresolved]
  cases hknown : resolver.remembered? specifier referrer? with
  | none => rfl
  | some known =>
      rw [resolve_of_remembered hknown] at hresolved
      exact congrArg some (Except.ok.inj hresolved)

/-- Nothing is forgotten. -/
theorem remembered_resolve_of_remembered
    (hknown : resolver.remembered? other asker? = some resolved) :
    (resolver.resolve config host specifier referrer?).2.remembered? other asker? =
      some resolved := by
  rw [remembered_resolve, hknown]
  rfl

/-- The keys of the memory are what is remembered. -/
theorem mem_keys_iff {key : String × Option ModuleId} :
    key ∈ resolver.memo.map (fun entry => (entry.specifier, entry.referrer?)) ↔
      (resolver.remembered? key.1 key.2).isSome := by
  unfold remembered?
  rw [Option.isSome_map, List.find?_isSome, List.mem_map]
  simp only [Prod.ext_iff, decide_eq_true_eq]

/-- Nothing is remembered twice. -/
theorem nodup_resolve
    (hdistinct : (resolver.memo.map (fun entry => (entry.specifier, entry.referrer?))).Nodup) :
    ((resolver.resolve config host specifier referrer?).2.memo.map
      (fun entry => (entry.specifier, entry.referrer?))).Nodup := by
  cases hknown : resolver.remembered? specifier referrer? with
  | some resolved =>
      rw [resolve_of_remembered hknown]
      exact hdistinct
  | none =>
      rw [resolve_of_unknown hknown]
      cases config.resolve host specifier referrer? with
      | error error => exact hdistinct
      | ok resolved =>
          dsimp only
          rw [List.map_append, List.map_singleton, List.nodup_append]
          refine ⟨hdistinct, List.nodup_singleton _, ?_⟩
          rintro key hkey _ hlast rfl
          rw [List.mem_singleton.mp hlast] at hkey
          rw [mem_keys_iff, hknown] at hkey
          cases hkey

/-- What is remembered is what resolving afresh gives, each answer once. -/
structure Faithful (config : Config) (host : Host) (resolver : Resolver) : Prop where
  distinct : (resolver.memo.map (fun entry => (entry.specifier, entry.referrer?))).Nodup
  remembered : ∀ specifier referrer? resolved,
    resolver.remembered? specifier referrer? = some resolved →
    config.resolve host specifier referrer? = .ok resolved

namespace Faithful

theorem empty (config : Config) (host : Host) : Resolver.empty.Faithful config host :=
  ⟨List.nodup_nil, nofun⟩

/-- A faithful resolver answers as one that remembers nothing. -/
theorem resolve_eq (hfaithful : resolver.Faithful config host) (specifier : String)
    (referrer? : Option ModuleId) :
    (resolver.resolve config host specifier referrer?).1 =
      config.resolve host specifier referrer? := by
  cases hknown : resolver.remembered? specifier referrer? with
  | some resolved =>
      rw [resolve_of_remembered hknown, hfaithful.remembered _ _ _ hknown]
  | none =>
      rw [resolve_of_unknown hknown]
      cases config.resolve host specifier referrer? <;> rfl

theorem resolve (hfaithful : resolver.Faithful config host) (specifier : String)
    (referrer? : Option ModuleId) :
    (resolver.resolve config host specifier referrer?).2.Faithful config host := by
  refine ⟨nodup_resolve hfaithful.distinct, fun other asker? resolved hknown => ?_⟩
  rw [remembered_resolve] at hknown
  rcases Option.or_eq_some_iff.mp hknown with hknown | ⟨-, hanswer⟩
  · exact hfaithful.remembered _ _ _ hknown
  · split at hanswer
    · rename_i hsame
      rw [hfaithful.resolve_eq, hsame.1, hsame.2] at hanswer
      generalize config.resolve host other asker? = answer at hanswer ⊢
      cases answer with
      | error error => cases hanswer
      | ok found => exact congrArg Except.ok (Option.some.inj hanswer)
    · cases hanswer

/-- How much is remembered is told by what is remembered. -/
theorem size_eq {resolver' : Resolver} (hfaithful : resolver.Faithful config host)
    (hfaithful' : resolver'.Faithful config host)
    (hsame : ∀ specifier referrer?, resolver'.remembered? specifier referrer? =
      resolver.remembered? specifier referrer?) : resolver'.size = resolver.size := by
  have hperm := (List.perm_ext_iff_of_nodup hfaithful'.distinct hfaithful.distinct).mpr
    (fun key => by rw [mem_keys_iff, mem_keys_iff, hsame])
  unfold size
  simpa only [List.length_map] using hperm.length_eq

end Faithful

end Resolver

end Linkage
