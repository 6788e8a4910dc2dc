/-!
# Computations that may fail

When a sequence of computations succeeds, each of them has; when it fails, one of them has.
-/

namespace Linkage

variable {ε α β γ : Type}

/-- Two computations in a row succeed when the first does and the second does with its value. -/
theorem bind_eq_ok_iff {first : Except ε α} {next : α → Except ε β} {result : β} :
    (first >>= next) = .ok result ↔ ∃ value, first = .ok value ∧ next value = .ok result := by
  cases first with
  | ok value =>
      constructor
      · intro hnext
        exact ⟨value, rfl, hnext⟩
      · rintro ⟨found, hfound, hnext⟩
        obtain rfl := Except.ok.inj hfound
        exact hnext
  | error error =>
      constructor
      · intro hfailed
        cases hfailed
      · rintro ⟨_, hfailed, -⟩
        cases hfailed

theorem bind_eq_ok {first : Except ε α} {next : α → Except ε β} {value : α} {result : β}
    (hfirst : first = .ok value) (hnext : next value = .ok result) : first >>= next = .ok result :=
  bind_eq_ok_iff.mpr ⟨value, hfirst, hnext⟩

/-- Two computations in a row fail when the first does or the second does with its value. -/
theorem bind_eq_error_iff {first : Except ε α} {next : α → Except ε β} {error : ε} :
    (first >>= next) = .error error ↔
      first = .error error ∨ ∃ value, first = .ok value ∧ next value = .error error := by
  cases first with
  | ok value =>
      constructor
      · intro hnext
        exact .inr ⟨value, rfl, hnext⟩
      · rintro (hfailed | ⟨found, hfound, hnext⟩)
        · cases hfailed
        · obtain rfl := Except.ok.inj hfound
          exact hnext
  | error found =>
      constructor
      · intro hfailed
        obtain rfl := Except.error.inj hfailed
        exact .inl rfl
      · rintro (hfailed | ⟨_, hvalue, -⟩)
        · obtain rfl := Except.error.inj hfailed
          rfl
        · cases hvalue

/-- A fold fails with an error of one of its steps. -/
theorem exists_of_foldlM_eq_error {f : β → γ → Except ε β} {items : List γ} {start : β}
    {error : ε} (hfold : items.foldlM f start = .error error) :
    ∃ item ∈ items, ∃ value, f value item = .error error := by
  induction items generalizing start with
  | nil => cases hfold
  | cons item rest ih =>
      rw [List.foldlM_cons] at hfold
      rcases bind_eq_error_iff.mp hfold with hfailed | ⟨value, -, hrest⟩
      · exact ⟨item, by simp, start, hfailed⟩
      · obtain ⟨other, hother, hfailed⟩ := ih hrest
        exact ⟨other, List.mem_cons_of_mem _ hother, hfailed⟩

/-- A fold that succeeds keeps what each of its steps keeps. -/
theorem foldlM_eq_ok_induction {f : β → γ → Except ε β} {items : List γ} {start result : β}
    (invariant : β → Prop) (hfold : items.foldlM f start = .ok result) (hstart : invariant start)
    (hstep : ∀ item ∈ items, ∀ value value', invariant value → f value item = .ok value' →
      invariant value') : invariant result := by
  induction items generalizing start with
  | nil =>
      obtain rfl := Except.ok.inj hfold
      exact hstart
  | cons item rest ih =>
      rw [List.foldlM_cons] at hfold
      obtain ⟨value, hvalue, hrest⟩ := bind_eq_ok_iff.mp hfold
      exact ih hrest (hstep item (by simp) start value hstart hvalue)
        (fun other hother => hstep other (List.mem_cons_of_mem _ hother))

/-- A computation has failed. -/
def Fails (ended : Except ε α) : Prop := ∃ error, ended = .error error

theorem not_fails_ok (value : α) : ¬ Fails (.ok value : Except ε α) := by
  rintro ⟨error, herror⟩
  cases herror

/-- Two computations in a row fail when the first does or the second does after it. -/
theorem fails_bind_iff {first : Except ε α} {next : α → Except ε β} :
    Fails (first >>= next) ↔ Fails first ∨ ∃ value, first = .ok value ∧ Fails (next value) := by
  unfold Fails
  simp only [bind_eq_error_iff]
  constructor
  · rintro ⟨error, hfirst | ⟨value, hvalue, hnext⟩⟩
    · exact .inl ⟨error, hfirst⟩
    · exact .inr ⟨value, hvalue, error, hnext⟩
  · rintro (⟨error, hfirst⟩ | ⟨value, hvalue, error, hnext⟩)
    · exact ⟨error, .inl hfirst⟩
    · exact ⟨error, .inr ⟨value, hvalue, hnext⟩⟩

/-- If each item fails or not whatever has come before it, a fold fails when one of them does. -/
theorem fails_foldlM_iff {f : β → γ → Except ε β} {items : List γ} {start : β}
    (invariant : β → Prop) (bad : γ → Prop) (hstart : invariant start)
    (hbad : ∀ item ∈ items, ∀ value, invariant value → (Fails (f value item) ↔ bad item))
    (hstep : ∀ item ∈ items, ∀ value value', invariant value → f value item = .ok value' →
      invariant value') : Fails (items.foldlM f start) ↔ ∃ item ∈ items, bad item := by
  induction items generalizing start with
  | nil => exact iff_of_false (not_fails_ok start) (by simp)
  | cons item rest ih =>
      have hrest : ∀ value, f start item = .ok value →
          (Fails (rest.foldlM f value) ↔ ∃ other ∈ rest, bad other) := fun value hvalue =>
        ih (hstep item List.mem_cons_self start value hstart hvalue)
          (fun other hother => hbad other (List.mem_cons_of_mem _ hother))
          (fun other hother => hstep other (List.mem_cons_of_mem _ hother))
      rw [List.foldlM_cons, fails_bind_iff]
      constructor
      · rintro (hfirst | ⟨value, hvalue, hfails⟩)
        · exact ⟨item, List.mem_cons_self, (hbad item List.mem_cons_self start hstart).mp hfirst⟩
        · obtain ⟨other, hother, hbad'⟩ := (hrest value hvalue).mp hfails
          exact ⟨other, List.mem_cons_of_mem _ hother, hbad'⟩
      · rintro ⟨other, hother, hbad'⟩
        cases hended : f start item with
        | error error => exact .inl ⟨error, rfl⟩
        | ok value =>
            rcases List.mem_cons.mp hother with rfl | hother
            · have hfails := (hbad other List.mem_cons_self start hstart).mpr hbad'
              rw [hended] at hfails
              exact absurd hfails (not_fails_ok value)
            · exact .inr ⟨value, rfl, (hrest value hended).mpr ⟨other, hother, hbad'⟩⟩

theorem fails_forM_iff {f : γ → Except ε PUnit} {items : List γ} :
    Fails (items.forM f) ↔ ∃ item ∈ items, Fails (f item) := by
  induction items with
  | nil =>
      refine iff_of_false ?_ (by simp)
      rintro ⟨error, herror⟩
      cases herror
  | cons item rest ih =>
      show Fails (f item >>= fun _ => rest.forM f) ↔ _
      rw [fails_bind_iff, ih]
      constructor
      · rintro (hfirst | ⟨_, -, other, hother, hfails⟩)
        · exact ⟨item, List.mem_cons_self, hfirst⟩
        · exact ⟨other, List.mem_cons_of_mem _ hother, hfails⟩
      · rintro ⟨other, hother, hfails⟩
        rcases List.mem_cons.mp hother with rfl | hother
        · exact .inl hfails
        · cases hended : f item with
          | error error => exact .inl ⟨error, rfl⟩
          | ok value => exact .inr ⟨value, rfl, other, hother, hfails⟩

/-- Both have failed alike, or both have given a result and the results correspond. -/
inductive Matches (R : α → β → Prop) : Except ε α → Except ε β → Prop
  | ok {value : α} {value' : β} (hvalue : R value value') :
      Matches R (.ok value) (.ok value')
  | error (error : ε) : Matches R (.error error) (.error error)

theorem Matches.refl (result : Except ε α) : Matches Eq result result := by
  cases result with
  | ok value => exact .ok rfl
  | error error => exact .error error

theorem Matches.eq {result result' : Except ε α} (hmatches : Matches Eq result result') :
    result' = result := by
  cases hmatches with
  | ok hvalue => rw [hvalue]
  | error error => rfl

theorem Matches.of_map {g : α → β} {result : Except ε α} {result' : Except ε β}
    (heq : result' = result.map g) :
    Matches (fun value value' => value' = g value) result result' := by
  subst heq
  cases result with
  | ok value => exact .ok rfl
  | error error => exact .error error

theorem Matches.eq_map {g : α → β} {result : Except ε α} {result' : Except ε β}
    (hmatches : Matches (fun value value' => value' = g value) result result') :
    result' = result.map g := by
  cases hmatches with
  | ok hvalue => exact congrArg Except.ok hvalue
  | error error => rfl

/-- Two results that correspond are the same error, or both are values. -/
theorem Matches.elim {R : α → β → Prop} {result : Except ε α} {result' : Except ε β}
    (hmatches : Matches R result result') :
    (∃ error, result = .error error ∧ result' = .error error) ∨
      ∃ value value', result = .ok value ∧ result' = .ok value' ∧ R value value' := by
  cases hmatches with
  | ok hvalue => exact .inr ⟨_, _, rfl, rfl, hvalue⟩
  | error error => exact .inl ⟨error, rfl, rfl⟩

theorem Matches.mono {R S : α → β → Prop} {result : Except ε α}
    {result' : Except ε β}
    (hmatches : Matches R result result')
    (himplies : ∀ value value', R value value' → S value value') :
    Matches S result result' := by
  cases hmatches with
  | ok hvalue => exact .ok (himplies _ _ hvalue)
  | error error => exact .error error

end Linkage
