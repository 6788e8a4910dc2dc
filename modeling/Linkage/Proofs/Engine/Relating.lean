import Linkage.Proofs.Engine.Attempts
import Linkage.Proofs.Fallible
import Mathlib.Data.List.Forall2

/-!
# Attempts side by side

Two attempts on two engines do the same with respect to a relation of engines if they keep it and
end alike.  The rules follow the ways in which attempts are put together, so that a statement about
one attempt on two engines is proved along its text, whatever the relation.

* `Attempt.Relates` : two attempts that do the same.
* `Attempt.relates_analyzeModern` : reading declarations asks the engine only to resolve.
-/

namespace Linkage

/-- Two attempts that keep a relation of engines and end alike. -/
def Attempt.Relates {α β : Type} (same : Engine → Engine → Prop) (R : α → β → Prop)
    (action : Attempt α) (action' : Attempt β) : Prop :=
  ∀ engine engine', same engine engine' →
    Matches R (engine.attempt action).1 (engine'.attempt action').1 ∧
      same (engine.attempt action).2 (engine'.attempt action').2

namespace Attempt

variable {α α' β β' γ γ' : Type} {same : Engine → Engine → Prop} {R : α → α' → Prop}
  {S : β → β' → Prop}

namespace Relates

theorem pure {value : α} {value' : α'} (hvalue : R value value') :
    Relates same R (Pure.pure value) (Pure.pure value') :=
  fun _ _ hsame => ⟨.ok hvalue, hsame⟩

theorem throw (error : ModuleError) :
    Relates same R (MonadExcept.throw error) (MonadExcept.throw error) :=
  fun _ _ hsame => ⟨.error error, hsame⟩

theorem ofExcept {given : Except ModuleError α} {given' : Except ModuleError α'}
    (hgiven : Matches R given given') :
    Relates same R (MonadExcept.ofExcept given) (MonadExcept.ofExcept given') := by
  intro engine engine' hsame
  rw [Engine.attempt_ofExcept, Engine.attempt_ofExcept]
  exact ⟨hgiven, hsame⟩

theorem bind {action : Attempt α} {action' : Attempt α'} {more : α → Attempt β}
    {more' : α' → Attempt β'} (hfirst : Relates same R action action')
    (hmore : ∀ value value', R value value' →
      Relates same S (more value) (more' value')) :
    Relates same S (action >>= more) (action' >>= more') := by
  intro engine engine' hsame
  obtain ⟨hresult, hsame'⟩ := hfirst engine engine' hsame
  rw [Engine.attempt_bind, Engine.attempt_bind]
  generalize engine.attempt action = ended at hresult hsame'
  generalize engine'.attempt action' = ended' at hresult hsame'
  obtain ⟨result, engine⟩ := ended
  obtain ⟨result', engine'⟩ := ended'
  cases hresult with
  | error error => exact ⟨.error error, hsame'⟩
  | ok hvalue => exact hmore _ _ hvalue _ _ hsame'

/-- An attempt that goes on with the same value on both sides. -/
theorem bind_same {action action' : Attempt α} {more : α → Attempt β} {more' : α → Attempt β'}
    (hfirst : Relates same Eq action action')
    (hmore : ∀ value, Relates same S (more value) (more' value)) :
    Relates same S (action >>= more) (action' >>= more') := by
  refine hfirst.bind (fun value value' hvalue => ?_)
  subst hvalue
  exact hmore value

/-- An attempt that begins by looking at the engine. -/
theorem get_bind {more : Engine → Attempt β} {more' : Engine → Attempt β'}
    (hmore : ∀ engine engine', same engine engine' →
      Matches S (engine.attempt (more engine)).1 (engine'.attempt (more' engine')).1 ∧
        same (engine.attempt (more engine)).2 (engine'.attempt (more' engine')).2) :
    Relates same S (get >>= more) (get >>= more') := by
  intro engine engine' hsame
  rw [Engine.attempt_bind, Engine.attempt_bind, Engine.attempt_get, Engine.attempt_get]
  exact hmore engine engine' hsame

theorem mono {T : α → α' → Prop} {action : Attempt α} {action' : Attempt α'}
    (hrelates : Relates same R action action')
    (himplies : ∀ value value', R value value' → T value value') :
    Relates same T action action' :=
  fun engine engine' hsame =>
    ⟨(hrelates engine engine' hsame).1.mono himplies, (hrelates engine engine' hsame).2⟩

/-- A fold over items that correspond pair by pair. -/
theorem foldlM_pairs {T : γ → γ' → Prop} {f : β → γ → Attempt β} {f' : β' → γ' → Attempt β'}
    {items : List γ} {items' : List γ'} (hitems : List.Forall₂ T items items')
    {start : β} {start' : β'} (hstart : S start start')
    (hstep : ∀ item item', T item item' → ∀ value value', S value value' →
      Relates same S (f value item) (f' value' item')) :
    Relates same S (items.foldlM f start) (items'.foldlM f' start') := by
  induction hitems generalizing start start' with
  | nil => exact .pure hstart
  | cons hitem _ ih =>
      rw [List.foldlM_cons, List.foldlM_cons]
      exact (hstep _ _ hitem _ _ hstart).bind (fun value value' hvalue => ih hvalue)

/-- A deed for each of the items that correspond pair by pair. -/
theorem forM_pairs {T : γ → γ' → Prop} {f : γ → Attempt PUnit} {f' : γ' → Attempt PUnit}
    {items : List γ} {items' : List γ'} (hitems : List.Forall₂ T items items')
    (hstep : ∀ item item', T item item' → Relates same (fun _ _ => True) (f item) (f' item')) :
    Relates same (fun _ _ => True) (items.forM f) (items'.forM f') := by
  induction hitems with
  | nil => exact .pure trivial
  | cons hitem _ ih => exact (hstep _ _ hitem).bind (fun _ _ _ => ih)

/-- A fold over items that correspond. -/
theorem foldlM {g : γ → γ'} {f : β → γ → Attempt β} {f' : β' → γ' → Attempt β'} (items : List γ)
    {start : β} {start' : β'} (hstart : S start start')
    (hstep : ∀ item ∈ items, ∀ value value', S value value' →
      Relates same S (f value item) (f' value' (g item))) :
    Relates same S (items.foldlM f start) ((items.map g).foldlM f' start') := by
  induction items generalizing start start' with
  | nil => exact .pure hstart
  | cons item rest ih =>
      rw [List.map_cons, List.foldlM_cons, List.foldlM_cons]
      refine (hstep item List.mem_cons_self _ _ hstart).bind (fun value value' hvalue => ?_)
      exact ih hvalue (fun other hother => hstep other (List.mem_cons_of_mem _ hother))

/-- A fold over the same items from the same start. -/
theorem foldlM_same {f : β → γ → Attempt β} (items : List γ) (start : β)
    (hstep : ∀ item ∈ items, ∀ value, Relates same Eq (f value item) (f value item)) :
    Relates same Eq (items.foldlM f start) (items.foldlM f start) := by
  induction items generalizing start with
  | nil => exact .pure rfl
  | cons item rest ih =>
      rw [List.foldlM_cons]
      refine (hstep item List.mem_cons_self start).bind_same (fun value => ?_)
      exact ih value (fun other hother => hstep other (List.mem_cons_of_mem _ hother))

/-- A deed for each of the items that correspond. -/
theorem forM {g : γ → γ'} {f : γ → Attempt PUnit} {f' : γ' → Attempt PUnit} (items : List γ)
    (hstep : ∀ item ∈ items, Relates same (fun _ _ => True) (f item) (f' (g item))) :
    Relates same (fun _ _ => True) (items.forM f) ((items.map g).forM f') := by
  induction items with
  | nil => exact .pure trivial
  | cons item rest ih =>
      refine (hstep item List.mem_cons_self).bind (fun _ _ _ => ?_)
      exact ih (fun other hother => hstep other (List.mem_cons_of_mem _ hother))

end Relates

/-! ## Reading declarations -/

/-- Resolving and registering names the same module on both sides. -/
def ResolvesAlike (same : Engine → Engine → Prop) : Prop :=
  ∀ specifier referrer?, Relates same (fun found found' => found'.1 = found.1)
    (resolveAndRegister specifier referrer?) (resolveAndRegister specifier referrer?)

variable (hresolves : ResolvesAlike same) (id : ModuleId)
include hresolves

theorem relates_request (specifier : String) (analysis : Analysis) :
    Relates same Eq (request id specifier analysis) (request id specifier analysis) := by
  refine (hresolves specifier (some id)).bind (fun found found' hfound => ?_)
  obtain ⟨resolved, ref⟩ := found
  obtain ⟨resolved', ref'⟩ := found'
  obtain rfl : resolved' = resolved := hfound
  exact .pure rfl

theorem relates_addImports (analysis : Analysis) (declaration : ImportDeclaration) :
    Relates same Eq (addImports id analysis declaration) (addImports id analysis declaration) :=
  (relates_request hresolves id declaration.specifier analysis).bind_same (fun _ => .pure rfl)

theorem relates_addExports (analysis : Analysis) (declaration : ExportDeclaration) :
    Relates same Eq (addExports id analysis declaration) (addExports id analysis declaration) := by
  unfold addExports
  cases declaration.source? with
  | none => exact .ofExcept (.refl _)
  | some specifier =>
      exact (relates_request hresolves id specifier analysis).bind_same
        (fun _ => .ofExcept (.refl _))

theorem relates_analyzeModern (source : ModuleSource) :
    Relates same Eq (analyzeModern id source) (analyzeModern id source) :=
  (Relates.foldlM_same source.imports Analysis.empty
    (fun declaration _ analysis => relates_addImports hresolves id analysis declaration)).bind_same
    (fun analysis => Relates.foldlM_same source.exports analysis
      (fun declaration _ analysis => relates_addExports hresolves id analysis declaration))

end Attempt

end Linkage
