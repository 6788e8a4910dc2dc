import Linkage.Engine.Prefetch
import Linkage.Proofs.Store.Touch

/-!
# What attempts do

`Attempt.Meets` says of an attempt what holds when it gives a result and what holds when it fails,
and in both cases that it has only touched the store and has left the host alone.  The rules follow
the ways in which attempts are put together, so that a statement about an attempt is proved along
its text.
-/

namespace Linkage

namespace Engine

variable {α β : Type} {engine : Engine}

@[simp] theorem attempt_pure (value : α) :
    engine.attempt (pure value) = (.ok value, engine) := rfl

@[simp] theorem attempt_throw (error : ModuleError) :
    engine.attempt (throw error : Attempt α) = (.error error, engine) := rfl

@[simp] theorem attempt_get : engine.attempt get = (.ok engine, engine) := rfl

@[simp] theorem attempt_set (engine' : Engine) :
    engine.attempt (set engine') = (.ok ⟨⟩, engine') := rfl

/-- An attempt that fails leaves what follows it out. -/
theorem attempt_bind (action : Attempt α) (next : α → Attempt β) :
    engine.attempt (action >>= next) = match engine.attempt action with
      | (.ok value, engine) => engine.attempt (next value)
      | (.error error, engine) => (.error error, engine) := by
  unfold attempt
  rw [ExceptT.run_bind, StateT.run_bind]
  generalize action.run.run engine = ended
  obtain ⟨result, engine'⟩ := ended
  cases result with
  | ok value => rfl
  | error error => rfl

@[simp] theorem attempt_ofExcept (given : Except ModuleError α) :
    engine.attempt (MonadExcept.ofExcept given) = (given, engine) := by
  cases given <;> rfl

theorem attempt_eq_ok_of_toOption {action : Attempt α} {value : α}
    (hvalue : (engine.attempt action).1.toOption = some value) :
    engine.attempt action = (.ok value, (engine.attempt action).2) := by
  generalize engine.attempt action = ended at hvalue
  obtain ⟨result, engine'⟩ := ended
  cases result with
  | ok found => rw [Option.some.inj hvalue]
  | error error => cases hvalue

@[simp] theorem attempt_onStore (f : Store → α × Store) :
    engine.attempt (Attempt.onStore f) =
      (.ok (f engine.store).1, { engine with store := (f engine.store).2 }) := rfl

@[simp] theorem attempt_tryStore (f : Store → Except ModuleError α × Store) :
    engine.attempt (Attempt.tryStore f) =
      ((f engine.store).1, { engine with store := (f engine.store).2 }) := by
  unfold Attempt.tryStore
  rw [attempt_bind, attempt_onStore]
  dsimp only
  rw [attempt_ofExcept]

/-- Resolving a specifier only remembers the answer. -/
theorem attempt_resolve (specifier : String) (referrer? : Option ModuleId) :
    engine.attempt (Attempt.resolve specifier referrer?) =
      ((engine.resolver.resolve engine.config engine.host specifier referrer?).1,
        { engine with
          resolver := (engine.resolver.resolve engine.config engine.host specifier referrer?).2 }) := by
  unfold Attempt.resolve
  rw [attempt_bind, attempt_get]
  dsimp only
  rw [attempt_bind, attempt_set]
  dsimp only
  rw [attempt_ofExcept]

/-- Then the module it names is registered. -/
theorem attempt_resolveAndRegister (specifier : String) (referrer? : Option ModuleId) :
    engine.attempt (Attempt.resolveAndRegister specifier referrer?) =
      match engine.attempt (Attempt.resolve specifier referrer?) with
      | (.error error, engine) => (.error error, engine)
      | (.ok resolved, engine) =>
          (.ok (resolved, (engine.store.getOrCreate resolved.id resolved.format).1),
            { engine with store := (engine.store.getOrCreate resolved.id resolved.format).2 }) := by
  unfold Attempt.resolveAndRegister
  rw [attempt_bind]
  generalize engine.attempt (Attempt.resolve specifier referrer?) = ended
  obtain ⟨result, engine'⟩ := ended
  cases result with
  | error error => rfl
  | ok resolved => rfl

end Engine

/-- How an attempt has ended that began with this host and store. -/
structure Attempt.Ends {α : Type} (host : Host) (store : Store) (post : α → Store → Prop)
    (fails : ModuleError → Store → Prop) (ended : Except ModuleError α × Engine) : Prop where
  host : ended.2.host = host
  touches : store.Touches ended.2.store
  ok : ∀ value, ended.1 = .ok value → post value ended.2.store
  error : ∀ error, ended.1 = .error error → fails error ended.2.store

/-- An attempt only touches the store.  Begun in a store that fulfils `pre`, it gives values that
fulfil `post` together with the store then, and fails with errors that fulfil `fails`. -/
def Attempt.Meets {α : Type} (host : Host) (pre : Store → Prop) (action : Attempt α)
    (post : α → Store → Prop) (fails : ModuleError → Store → Prop) : Prop :=
  ∀ engine : Engine, engine.host = host → pre engine.store →
    Attempt.Ends host engine.store post fails (engine.attempt action)

/-- What holds of a store and goes on to hold however it is touched. -/
def Store.Lasting (fact : Store → Prop) : Prop :=
  ∀ store store' : Store, store.Touch store' → fact store → fact store'

theorem Store.Lasting.touches {fact : Store → Prop} (hlasting : Store.Lasting fact)
    {store store' : Store} (htouches : store.Touches store') (hfact : fact store) :
    fact store' := by
  induction htouches with
  | refl => exact hfact
  | tail _ htouch ih => exact hlasting _ _ htouch ih

namespace Attempt.Meets

variable {α β : Type} {host : Host} {pre : Store → Prop} {post : α → Store → Prop}
  {fails : ModuleError → Store → Prop}

theorem pure {value : α} (hpost : ∀ store, pre store → post value store) :
    Meets host pre (Pure.pure value) post fails := by
  intro engine hhost hpre
  refine ⟨hhost, .refl, ?_, ?_⟩
  · intro found hfound
    obtain rfl : value = found := by simpa using hfound
    exact hpost engine.store hpre
  · intro error herror
    simp at herror

theorem throw {error : ModuleError} (hfails : ∀ store, pre store → fails error store) :
    Meets host pre (MonadExcept.throw error : Attempt α) post fails := by
  intro engine hhost hpre
  refine ⟨hhost, .refl, ?_, ?_⟩
  · intro value hvalue
    exact absurd hvalue (by simp [Engine.attempt_throw])
  · intro found hfound
    obtain rfl : error = found := by simpa [Engine.attempt_throw] using hfound
    exact hfails engine.store hpre

theorem ofExcept {given : Except ModuleError α}
    (hpost : ∀ store value, pre store → given = .ok value → post value store)
    (hfails : ∀ store error, pre store → given = .error error → fails error store) :
    Meets host pre (MonadExcept.ofExcept given) post fails := by
  cases given with
  | ok value => exact .pure (fun store hpre => hpost store value hpre rfl)
  | error error => exact .throw (fun store hpre => hfails store error hpre rfl)

/-- What the first attempt gives is what the second begins with. -/
theorem bind {action : Attempt α} {next : α → Attempt β} {post' : β → Store → Prop}
    (hfirst : Meets host pre action post fails)
    (hnext : ∀ value, Meets host (post value) (next value) post' fails) :
    Meets host pre (action >>= next) post' fails := by
  intro engine hhost hpre
  have hended := hfirst engine hhost hpre
  rw [Engine.attempt_bind]
  generalize engine.attempt action = ended at hended
  obtain ⟨result, engine'⟩ := ended
  cases result with
  | ok value =>
      -- the second attempt begins where the first has ended, and touches add up
      have hrest := hnext value engine' hended.host (hended.ok value rfl)
      exact ⟨hrest.host, hended.touches.trans hrest.touches, hrest.ok, hrest.error⟩
  | error error =>
      refine ⟨hended.host, hended.touches, ?_, ?_⟩
      · intro value hvalue
        simp at hvalue
      · intro found hfound
        obtain rfl : error = found := by simpa using hfound
        exact hended.error error rfl

/-- Looking at the engine changes nothing. -/
theorem get_bind {next : Engine → Attempt β} {post' : β → Store → Prop}
    (hnext : ∀ engine : Engine, engine.host = host → pre engine.store →
      Meets host (fun store => store = engine.store) (next engine) post' fails) :
    Meets host pre (get >>= next) post' fails := by
  intro engine hhost hpre
  have hended := hnext engine hhost hpre engine hhost rfl
  rw [Engine.attempt_bind, Engine.attempt_get]
  exact hended

theorem onStore {f : Store → α × Store} (htouches : ∀ store, pre store → store.Touches (f store).2)
    (hpost : ∀ store, pre store → post (f store).1 (f store).2) :
    Meets host pre (Attempt.onStore f) post fails := by
  intro engine hhost hpre
  refine ⟨hhost, htouches engine.store hpre, ?_, ?_⟩
  · intro value hvalue
    obtain rfl : (f engine.store).1 = value := Except.ok.inj hvalue
    exact hpost engine.store hpre
  · intro error herror
    cases herror

theorem set {engine : Engine} {post : PUnit → Store → Prop} (hhost : engine.host = host)
    (htouches : ∀ store, pre store → store.Touches engine.store)
    (hpost : ∀ store, pre store → post ⟨⟩ engine.store) :
    Meets host pre (MonadStateOf.set engine) post fails := by
  intro engine' _ hpre
  refine ⟨hhost, htouches _ hpre, fun _ _ => hpost _ hpre, ?_⟩
  intro error herror
  cases herror

/-- Demanding less of the beginning or promising more of the end. -/
theorem imp {pre' : Store → Prop} {post' : α → Store → Prop}
    {fails' : ModuleError → Store → Prop} {action : Attempt α}
    (hmeets : Meets host pre' action post' fails') (hpre : ∀ store, pre store → pre' store)
    (hpost : ∀ value store, post' value store → post value store)
    (hfails : ∀ error store, fails' error store → fails error store) :
    Meets host pre action post fails := by
  intro engine hhost hstore
  have hended := hmeets engine hhost (hpre _ hstore)
  exact ⟨hended.host, hended.touches, fun value hvalue => hpost _ _ (hended.ok value hvalue),
    fun error herror => hfails _ _ (hended.error error herror)⟩

/-- What does not speak of the store may be taken out of the beginning. -/
theorem assuming {action : Attempt α} {fact : Prop}
    (hmeets : fact → Meets host pre action post fails) :
    Meets host (fun store => pre store ∧ fact) action post fails :=
  fun engine hhost hpre => hmeets hpre.2 engine hhost hpre.1

/-- A lasting fact holds at the end if it holds at the beginning. -/
theorem frame {action : Attempt α} {fact : Store → Prop} (hlasting : Store.Lasting fact)
    (hmeets : Meets host pre action post fails) :
    Meets host (fun store => pre store ∧ fact store) action
      (fun value store => post value store ∧ fact store) fails := by
  intro engine hhost hpre
  have hended := hmeets engine hhost hpre.1
  refine ⟨hended.host, hended.touches, ?_, hended.error⟩
  intro value hvalue
  exact ⟨hended.ok value hvalue, hlasting.touches hended.touches hpre.2⟩

/-- A fold keeps what each of its steps keeps. -/
theorem foldlM {γ : Type} {invariant : β → Store → Prop} {f : β → γ → Attempt β}
    (items : List γ) (start : β) (hstep : ∀ item ∈ items, ∀ value,
      Meets host (invariant value) (f value item) invariant fails) :
    Meets host (invariant start) (items.foldlM f start) invariant fails := by
  induction items generalizing start with
  | nil => exact .pure (fun _ hinvariant => hinvariant)
  | cons item rest ih =>
      rw [List.foldlM_cons]
      refine (hstep item (by simp) start).bind (fun value => ?_)
      exact ih value (fun other hother => hstep other (List.mem_cons_of_mem _ hother))

end Attempt.Meets

/-- An attempt of which nothing is said but that it only touches the store. -/
def Attempt.Quiet {α : Type} (action : Attempt α) : Prop :=
  ∀ host, Attempt.Meets host (fun _ => True) action (fun _ _ => True) (fun _ _ => True)

namespace Attempt.Quiet

variable {α β : Type}

theorem of_meets {action : Attempt α} (hmeets : ∀ host, ∃ post fails,
    Meets host (fun _ => True) action post fails) : action.Quiet := by
  intro host
  obtain ⟨post, fails, hmeets⟩ := hmeets host
  exact hmeets.imp (fun _ _ => trivial) (fun _ _ _ => trivial) (fun _ _ _ => trivial)

/-- A quiet attempt may stand where nothing but the end of something is known. -/
theorem meets {action : Attempt α} (hquiet : action.Quiet) (host : Host) (pre : Store → Prop) :
    Meets host pre action (fun _ _ => True) (fun _ _ => True) :=
  (hquiet host).imp (fun _ _ => trivial) (fun _ _ _ => trivial) (fun _ _ _ => trivial)

theorem touches {action : Attempt α} (hquiet : action.Quiet) (engine : Engine) :
    engine.store.Touches (engine.attempt action).2.store :=
  (hquiet engine.host engine rfl trivial).touches

theorem pure (value : α) : (Pure.pure value : Attempt α).Quiet :=
  fun _ => .pure (fun _ _ => trivial)

theorem throw (error : ModuleError) : (MonadExcept.throw error : Attempt α).Quiet :=
  fun _ => .throw (fun _ _ => trivial)

theorem ofExcept (given : Except ModuleError α) :
    (MonadExcept.ofExcept given : Attempt α).Quiet :=
  fun _ => .ofExcept (fun _ _ _ _ => trivial) (fun _ _ _ _ => trivial)

theorem bind {action : Attempt α} {next : α → Attempt β} (hfirst : action.Quiet)
    (hnext : ∀ value, (next value).Quiet) : (action >>= next).Quiet :=
  fun host => (hfirst host).bind (fun value => hnext value host)

theorem get_bind {next : Engine → Attempt β} (hnext : ∀ engine, (next engine).Quiet) :
    (get >>= next).Quiet :=
  fun host => .get_bind (fun engine _ _ => (hnext engine).meets host _)

theorem onStore {f : Store → α × Store}
    (htouches : ∀ store : Store, store.Touches (f store).2) :
    (Attempt.onStore f).Quiet :=
  fun _ => .onStore (fun store _ => htouches store) (fun _ _ => trivial)

theorem foldlM {γ : Type} {f : β → γ → Attempt β} (items : List γ) (start : β)
    (hstep : ∀ value item, (f value item).Quiet) : (items.foldlM f start).Quiet :=
  fun host => .foldlM items start (fun item _ value => hstep value item host)

theorem forM {γ : Type} {f : γ → Attempt PUnit} (items : List γ) (hstep : ∀ item, (f item).Quiet) :
    (items.forM f).Quiet := by
  induction items with
  | nil => exact .pure _
  | cons item rest ih =>
      show (f item >>= fun _ => rest.forM f).Quiet
      exact (hstep item).bind (fun _ => ih)

end Attempt.Quiet

end Linkage
