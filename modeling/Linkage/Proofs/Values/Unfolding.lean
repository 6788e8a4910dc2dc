import Linkage.Proofs.Table
import Linkage.Value.Heap
import Mathlib.Data.List.Basic
import Mathlib.Data.List.Nodup
import Mathlib.Data.List.Perm.Subperm

/-!
# What is shown of a value

Objects may lead to each other in any way, in circles too.  What is shown of a value is its unfolding:
each object that is met stands with all its properties, however often it is met, except below itself,
where a mark stands for it.  So what is shown at the end of a path is told by that path alone.

* `Heap.Unfolds` : what is shown of a value below given objects.
* `Value.unfolds_of_render` : what is shown is the unfolding, and the stack is put back.
* `Value.exists_render` : showing ends, since the objects on the stack are different.
* `Heap.follow?`, `Json.part?` : a path through objects, and through what is shown.
* `Heap.Unfolds.part_of_follow`, `Heap.Unfolds.follow_of_part` : the two agree.
* `Heap.Unfolds.congr` : objects that are not met below a value do not matter for it.
* `Value.rendering_is_unfolding` : all of it.
-/

namespace Linkage

/-! ## Steps that put back what they find -/

section Steps

variable {σ α β : Type} {R : α → β → Prop} {f : α → StateT σ Option β} {items : List α} {state : σ}

/-- Steps that succeed and put back the state do so one after the other. -/
theorem exists_run_mapM
    (hsteps : ∀ item ∈ items, ∃ made, (f item).run state = some (made, state) ∧ R item made) :
    ∃ results, (items.mapM f).run state = some (results, state) ∧ List.Forall₂ R items results := by
  induction items with
  | nil => exact ⟨[], rfl, .nil⟩
  | cons item rest ih =>
      obtain ⟨made, hmade, hhead⟩ := hsteps item List.mem_cons_self
      obtain ⟨results, hresults, hrest⟩ := ih (fun other hother => hsteps other (List.mem_cons_of_mem _ hother))
      refine ⟨made :: results, ?_, .cons hhead hrest⟩
      simp [List.mapM_cons, hmade, hresults]

/-- If all that succeeds puts back the state, so does all of it in a row. -/
theorem forall₂_of_run_mapM {results : List β} {after : σ}
    (hsteps : ∀ item ∈ items, ∀ made next, (f item).run state = some (made, next) →
      next = state ∧ R item made) (hrun : (items.mapM f).run state = some (results, after)) :
    after = state ∧ List.Forall₂ R items results := by
  induction items generalizing results after with
  | nil =>
      obtain ⟨rfl, rfl⟩ := Prod.mk.inj (Option.some.inj hrun)
      exact ⟨rfl, .nil⟩
  | cons item rest ih =>
      simp only [List.mapM_cons, StateT.run_bind, Option.bind_eq_bind, StateT.run_pure,
        Option.bind_eq_some_iff, Prod.exists] at hrun
      obtain ⟨made, next, hmade, more, last, hmore, hresults⟩ := hrun
      obtain ⟨rfl, rfl⟩ := Prod.mk.inj (Option.some.inj hresults)
      obtain ⟨rfl, hhead⟩ := hsteps item List.mem_cons_self made next hmade
      obtain ⟨rfl, hrest⟩ := ih (fun other hother => hsteps other (List.mem_cons_of_mem _ hother)) hmore
      exact ⟨rfl, .cons hhead hrest⟩

end Steps

/-! ## Unfolding -/

namespace Heap

variable {heap heap' : Heap} {above above' : List ObjectRef} {value reached : Value} {json : Json}
  {ref : ObjectRef} {path : List String}

/-- What is shown of a value below some objects: of an object that is one of them a mark, of any other
object all properties, each of them below this object too. -/
inductive Unfolds (heap : Heap) : List ObjectRef → Value → Json → Prop
  | undefined (above : List ObjectRef) : Unfolds heap above .undefined .null
  | null (above : List ObjectRef) : Unfolds heap above .null .null
  | boolean (above : List ObjectRef) (b : Bool) : Unfolds heap above (.boolean b) (.bool b)
  | finite (above : List ObjectRef) {x : Float} (hfinite : x.isFinite = true) :
      Unfolds heap above (.number x) (.float x)
  | infinite (above : List ObjectRef) {x : Float} (hinfinite : x.isFinite = false) :
      Unfolds heap above (.number x) .null
  | text (above : List ObjectRef) (s : String) : Unfolds heap above (.text s) (.str s)
  | space (above : List ObjectRef) (found : Namespace) :
      Unfolds heap above (.space found) (.str (Value.spaceText found))
  | circular {above : List ObjectRef} {ref : ObjectRef} (hmem : ref ∈ above) :
      Unfolds heap above (.object ref) (.str Value.circularMark)
  | full {above : List ObjectRef} {ref : ObjectRef} {members : List (String × Json)}
      (hnew : ref ∉ above) (hkeys : members.map (·.1) = (heap.properties ref).keys)
      (hmembers : ∀ key value json, heap.get? ref key = some value →
        lookupEntry key members = some json → Unfolds heap (ref :: above) value json) :
      Unfolds heap above (.object ref) (.obj members)

namespace Unfolds

theorem number (heap : Heap) (above : List ObjectRef) (x : Float) :
    heap.Unfolds above (.number x) (.ofFloat x) := by
  unfold Json.ofFloat
  split
  · rename_i hfinite
    exact .finite above hfinite
  · rename_i hinfinite
    exact .infinite above (Bool.not_eq_true _ ▸ hinfinite)

/-- There is one unfolding. -/
theorem unique {json' : Json} (hunfolds : heap.Unfolds above value json)
    (hunfolds' : heap.Unfolds above value json') : json = json' := by
  induction hunfolds generalizing json' with
  | undefined | null | boolean | text | space => cases hunfolds'; rfl
  | finite above hfinite =>
      cases hunfolds' with
      | finite => rfl
      | infinite _ hinfinite => cases hfinite.symm.trans hinfinite
  | infinite above hinfinite =>
      cases hunfolds' with
      | finite _ hfinite => cases hfinite.symm.trans hinfinite
      | infinite => rfl
  | circular hmem =>
      cases hunfolds' with
      | circular => rfl
      | full hnew => exact absurd hmem hnew
  | @full above ref members hnew hkeys hmembers ih =>
      cases hunfolds' with
      | circular hmem => exact absurd hmem hnew
      | @full _ _ members' _ hkeys' hmembers' =>
          refine congrArg Json.obj (eq_of_keys_of_lookupEntry (hkeys.trans hkeys'.symm) ?_ ?_)
          · rw [hkeys]
            exact (heap.properties ref).nodup_keys
          · intro key one other hone hother
            obtain ⟨value, hvalue⟩ := exists_lookupEntry_of_keys hkeys hone
            exact ih key value one hvalue hone (hmembers' key value other hvalue hother)

/-- What is shown of an object below some objects is the mark or all of it. -/
theorem of_object (hunfolds : heap.Unfolds above (.object ref) json) :
    (json = .str Value.circularMark ↔ ref ∈ above) ∧
    (ref ∉ above → ∃ members, json = .obj members ∧
      members.map (·.1) = (heap.properties ref).keys ∧ (members.map (·.1)).Pairwise (· < ·)) := by
  cases hunfolds with
  | circular hmem => exact ⟨iff_of_true rfl hmem, fun hnew => absurd hmem hnew⟩
  | full hnew hkeys hmembers =>
      refine ⟨iff_of_false nofun hnew, fun _ => ⟨_, rfl, hkeys, ?_⟩⟩
      rw [hkeys]
      exact (heap.properties ref).pairwise_keys

end Unfolds

end Heap

/-! ## Showing -/

namespace Value

variable {heap : Heap} {above after : List ObjectRef} {value : Value} {json : Json} {fuel : Nat}

theorem eq_object_of_toObject? {ref : ObjectRef} (hobject : value.toObject? = some ref) :
    value = object ref := by
  cases value with
  | object => exact congrArg object (Option.some.inj hobject)
  | _ => cases hobject

/-- A property is shown under its key. -/
def renderMember (heap : Heap) (fuel : Nat) (member : String × Value) :
    StateT (List ObjectRef) Option (String × Json) := do
  return (member.1, ← render heap fuel member.2)

theorem run_renderMember {entry : String × Value} {member : String × Json}
    (hrun : (renderMember heap fuel entry).run above = some (member, after)) :
    ∃ json, (render heap fuel entry.2).run above = some (json, after) ∧ member = (entry.1, json) := by
  obtain ⟨⟨json, last⟩, hjson, hmember⟩ := Option.bind_eq_some_iff.mp hrun
  obtain ⟨rfl, rfl⟩ := Prod.mk.inj (Option.some.inj hmember)
  exact ⟨json, hjson, rfl⟩

theorem run_render_circular {ref : ObjectRef} (hmem : ref ∈ above) :
    (render heap (fuel + 1) (object ref)).run above = some (.str circularMark, above) := by
  simp [render, hmem]

/-- An object that is not being shown is pushed, its properties are shown, and it is popped. -/
theorem run_render_object {ref : ObjectRef} (hnew : ref ∉ above) :
    (render heap (fuel + 1) (object ref)).run above =
      (((heap.properties ref).entries.mapM (renderMember heap fuel)).run (ref :: above)).map
        (fun shown => (.obj shown.1, shown.2.tail)) := by
  simp only [render, StateT.run_bind, StateT.run_get, Option.pure_def, Option.bind_eq_bind,
    Option.bind_some, if_neg hnew, StateT.run_modify]
  rw [Option.map_eq_bind]
  rfl

/-- What is no object is shown without a look at any. -/
theorem exists_plain (heap : Heap) (hplain : value.toObject? = none) :
    ∃ json, (∀ fuel above, (render heap fuel value).run above = some (json, above)) ∧
      ∀ above, heap.Unfolds above value json := by
  cases value with
  | object ref => cases hplain
  | undefined => exact ⟨_, fun fuel _ => by cases fuel <;> rfl, .undefined⟩
  | null => exact ⟨_, fun fuel _ => by cases fuel <;> rfl, .null⟩
  | boolean b => exact ⟨_, fun fuel _ => by cases fuel <;> rfl, fun above => .boolean above b⟩
  | number x => exact ⟨_, fun fuel _ => by cases fuel <;> rfl, fun above => .number heap above x⟩
  | text s => exact ⟨_, fun fuel _ => by cases fuel <;> rfl, fun above => .text above s⟩
  | space found => exact ⟨_, fun fuel _ => by cases fuel <;> rfl, fun above => .space above found⟩

/-- The properties of an object, each shown below it, are what is shown of the object. -/
theorem unfolds_of_members {ref : ObjectRef} {members : List (String × Json)} (hnew : ref ∉ above)
    (hmembers : List.Forall₂ (fun entry member => member.1 = entry.1 ∧
      heap.Unfolds (ref :: above) entry.2 member.2) (heap.properties ref).entries members) :
    heap.Unfolds above (object ref) (.obj members) :=
  .full hnew (forall₂_keys hmembers)
    (fun _ _ _ hvalue hmember => forall₂_lookupEntry hmembers hvalue hmember)

/-- What is shown is the unfolding, and the stack is as it was. -/
theorem unfolds_of_render (hrun : (render heap fuel value).run above = some (json, after)) :
    after = above ∧ heap.Unfolds above value json := by
  induction fuel generalizing value above after json with
  | zero =>
      cases hobject : value.toObject? with
      | none =>
          obtain ⟨shown, hshown, hunfolds⟩ := exists_plain heap hobject
          obtain ⟨rfl, rfl⟩ := Prod.mk.inj (Option.some.inj ((hshown 0 above).symm.trans hrun))
          exact ⟨rfl, hunfolds above⟩
      | some ref =>
          cases value with
          | object => cases hrun
          | _ => cases hobject
  | succ fuel ih =>
      cases hobject : value.toObject? with
      | none =>
          obtain ⟨shown, hshown, hunfolds⟩ := exists_plain heap hobject
          obtain ⟨rfl, rfl⟩ := Prod.mk.inj (Option.some.inj ((hshown _ above).symm.trans hrun))
          exact ⟨rfl, hunfolds above⟩
      | some ref =>
          obtain rfl := eq_object_of_toObject? hobject
          by_cases hmem : ref ∈ above
          · rw [run_render_circular hmem] at hrun
            obtain ⟨rfl, rfl⟩ := Prod.mk.inj (Option.some.inj hrun)
            exact ⟨rfl, .circular hmem⟩
          · rw [run_render_object hmem] at hrun
            obtain ⟨⟨members, last⟩, hmembers, hshown⟩ := Option.map_eq_some_iff.mp hrun
            obtain ⟨rfl, rfl⟩ := Prod.mk.inj hshown
            have hsteps : ∀ entry ∈ (heap.properties ref).entries, ∀ member next,
                (renderMember heap fuel entry).run (ref :: above) = some (member, next) →
                next = ref :: above ∧ member.1 = entry.1 ∧
                  heap.Unfolds (ref :: above) entry.2 member.2 := by
              intro entry _ member next hmember
              obtain ⟨shown, hshown, rfl⟩ := run_renderMember hmember
              obtain ⟨rfl, hunfolds⟩ := ih hshown
              exact ⟨rfl, rfl, hunfolds⟩
            obtain ⟨rfl, hall⟩ := forall₂_of_run_mapM hsteps hmembers
            exact ⟨rfl, unfolds_of_members hmem hall⟩

/-- The objects that are being shown are different, so there are not more of them than there are. -/
theorem length_le_size (hdistinct : above.Nodup) (hheld : ∀ ref ∈ above, ref.index < heap.size) :
    above.length ≤ heap.size := by
  have hindices : (above.map (·.index)).Nodup :=
    hdistinct.map (fun ref ref' hsame => by cases ref; cases ref'; exact congrArg _ hsame)
  have hsub : above.map (·.index) ⊆ List.range heap.size := by
    intro index hindex
    obtain ⟨ref, href, rfl⟩ := List.mem_map.mp hindex
    exact List.mem_range.mpr (hheld ref href)
  simpa using (hindices.subperm hsub).length_le

/-- An object that was never made has no properties. -/
theorem properties_of_size_le {ref : ObjectRef} (hindex : heap.size ≤ ref.index) :
    heap.properties ref = {} := by
  unfold Heap.properties
  rw [Array.getElem?_eq_none hindex]
  rfl

/-- **Showing ends.**  As long as objects that are not being shown can be nested, all of a value is
shown. -/
theorem exists_render (hdistinct : above.Nodup) (hheld : ∀ ref ∈ above, ref.index < heap.size)
    (hfuel : heap.size < fuel + above.length) :
    ∃ json, (render heap fuel value).run above = some (json, above) := by
  induction fuel generalizing value above with
  | zero =>
      rw [Nat.zero_add] at hfuel
      exact absurd (length_le_size hdistinct hheld) (Nat.not_le.mpr hfuel)
  | succ fuel ih =>
      cases hobject : value.toObject? with
      | none =>
          obtain ⟨json, hshown, -⟩ := exists_plain heap hobject
          exact ⟨json, hshown _ above⟩
      | some ref =>
          obtain rfl := eq_object_of_toObject? hobject
          by_cases hmem : ref ∈ above
          · exact ⟨_, run_render_circular hmem⟩
          · have hsteps : ∀ entry ∈ (heap.properties ref).entries, ∃ member,
                (renderMember heap fuel entry).run (ref :: above) = some (member, ref :: above) ∧
                  True := by
              intro entry hentry
              -- an object with properties has been made
              have hindex : ref.index < heap.size := by
                by_contra hnever
                rw [properties_of_size_le (Nat.not_lt.mp hnever)] at hentry
                cases hentry
              have hheld' : ∀ other ∈ ref :: above, other.index < heap.size :=
                List.forall_mem_cons.mpr ⟨hindex, hheld⟩
              obtain ⟨json, hjson⟩ := @ih (ref :: above) entry.2
                (List.nodup_cons.mpr ⟨hmem, hdistinct⟩) hheld' (by rw [List.length_cons]; omega)
              exact ⟨(entry.1, json), by simp [renderMember, hjson], trivial⟩
            obtain ⟨members, hmembers, -⟩ := exists_run_mapM hsteps
            exact ⟨_, by rw [run_render_object hmem, hmembers]; rfl⟩

/-- With more fuel than there are objects a value is shown as JSON. -/
theorem run_render_nil (hfuel : heap.size < fuel) :
    (render heap fuel value).run [] = some (value.toJson heap, []) := by
  have hends : ∀ {fuel : Nat}, heap.size < fuel → ∃ json,
      (render heap fuel value).run [] = some (json, []) ∧ heap.Unfolds [] value json := by
    intro fuel hfuel
    obtain ⟨json, hjson⟩ := @exists_render heap [] value fuel List.nodup_nil nofun hfuel
    exact ⟨json, hjson, (unfolds_of_render hjson).2⟩
  obtain ⟨json, hjson, hunfolds⟩ := hends hfuel
  obtain ⟨json', hjson', hunfolds'⟩ := hends (Nat.lt_succ_self heap.size)
  have hshown : value.toJson heap = json' := by
    unfold toJson
    rw [hjson']
    rfl
  rw [hjson, hshown, hunfolds.unique hunfolds']

theorem unfolds_toJson (heap : Heap) (value : Value) : heap.Unfolds [] value (value.toJson heap) :=
  (unfolds_of_render (run_render_nil (Nat.lt_succ_self heap.size))).2

theorem unfolds_iff : heap.Unfolds [] value json ↔ json = value.toJson heap := by
  constructor
  · exact fun hunfolds => hunfolds.unique (unfolds_toJson heap value)
  · rintro rfl
    exact unfolds_toJson heap value

end Value

/-! ## Paths -/

/-- What stands in a JSON value at the end of a path of keys. -/
def Json.part? : Json → List String → Option Json
  | json, [] => some json
  | .obj members, key :: rest => (lookupEntry key members).bind (fun json => json.part? rest)
  | _, _ :: _ => none

namespace Heap

variable {heap heap' : Heap} {above above' : List ObjectRef} {value reached : Value}
  {json shown : Json} {path : List String}

/-- Follow a path of keys: the value that is reached, and the objects that the path leads through, the
last one first, in front of those above the value it begins with. -/
def follow? (heap : Heap) : List ObjectRef → Value → List String → Option (List ObjectRef × Value)
  | above, value, [] => some (above, value)
  | above, .object ref, key :: rest =>
      (heap.get? ref key).bind (fun value => heap.follow? (ref :: above) value rest)
  | _, _, _ :: _ => none

/-- A path goes on behind an object only. -/
theorem follow?_cons_eq_some_iff {key : String} {found : List ObjectRef × Value} :
    heap.follow? above value (key :: path) = some found ↔ ∃ ref next, value = .object ref ∧
      heap.get? ref key = some next ∧ heap.follow? (ref :: above) next path = some found := by
  cases value with
  | object ref =>
      rw [follow?, Option.bind_eq_some_iff]
      constructor
      · rintro ⟨next, hnext, hfound⟩
        exact ⟨ref, next, rfl, hnext, hfound⟩
      · rintro ⟨_, next, hsame, hnext, hfound⟩
        obtain rfl := Value.object.inj hsame
        exact ⟨next, hnext, hfound⟩
  | _ => exact iff_of_false nofun (by rintro ⟨_, _, hobject, -⟩; cases hobject)

/-- The objects above the value that a path begins with stay above what it reaches. -/
theorem suffix_of_follow (hfollow : heap.follow? above value path = some (above', reached)) :
    above <:+ above' := by
  induction path generalizing above value with
  | nil =>
      obtain ⟨rfl, -⟩ := Prod.mk.inj (Option.some.inj hfollow)
      exact List.suffix_refl _
  | cons key rest ih =>
      obtain ⟨ref, next, -, -, hrest⟩ := follow?_cons_eq_some_iff.mp hfollow
      exact (List.suffix_cons ref above).trans (ih hrest)

namespace Unfolds

/-- What a path reaches without coming back to an object is shown there. -/
theorem part_of_follow (hunfolds : heap.Unfolds above value json)
    (hfollow : heap.follow? above value path = some (above', reached)) (hdistinct : above'.Nodup) :
    ∃ shown, json.part? path = some shown ∧ heap.Unfolds above' reached shown := by
  induction path generalizing above value json with
  | nil =>
      obtain ⟨rfl, rfl⟩ := Prod.mk.inj (Option.some.inj hfollow)
      exact ⟨json, by cases json <;> rfl, hunfolds⟩
  | cons key rest ih =>
      obtain ⟨ref, next, rfl, hnext, hrest⟩ := follow?_cons_eq_some_iff.mp hfollow
      have hbelow : (ref :: above).Nodup := hdistinct.sublist (suffix_of_follow hrest).sublist
      cases hunfolds with
      | circular hmem => exact absurd hmem (List.nodup_cons.mp hbelow).1
      | full _ hkeys hmembers =>
          obtain ⟨member, hmember⟩ := exists_lookupEntry_of_keys hkeys.symm hnext
          obtain ⟨shown, hshown, hpart⟩ := ih (hmembers key next member hnext hmember) hrest
          exact ⟨shown, by rw [Json.part?, hmember]; exact hshown, hpart⟩

/-- What is shown at the end of a path is what the path reaches, and it does not come back to an
object. -/
theorem follow_of_part (hunfolds : heap.Unfolds above value json) (hdistinct : above.Nodup)
    (hpart : json.part? path = some shown) :
    ∃ above' reached, heap.follow? above value path = some (above', reached) ∧ above'.Nodup := by
  induction path generalizing above value json with
  | nil => exact ⟨above, value, by cases value <;> rfl, hdistinct⟩
  | cons key rest ih =>
      cases hunfolds with
      | @full above ref members hnew hkeys hmembers =>
          obtain ⟨member, hmember, hrest⟩ := Option.bind_eq_some_iff.mp hpart
          obtain ⟨next, hnext⟩ := exists_lookupEntry_of_keys hkeys hmember
          obtain ⟨above', reached, hfollow, hdistinct'⟩ :=
            ih (hmembers key next member hnext hmember) (List.nodup_cons.mpr ⟨hnew, hdistinct⟩) hrest
          exact ⟨above', reached, follow?_cons_eq_some_iff.mpr ⟨ref, next, rfl, hnext, hfollow⟩,
            hdistinct'⟩
      | _ => cases hpart

/-- **What is shown of a value depends only on the objects that are shown in it.** -/
theorem congr (hunfolds : heap.Unfolds above value json) (hdistinct : above.Nodup)
    (hsame : ∀ way passed ref, heap.follow? above value way = some (passed, .object ref) →
      (ref :: passed).Nodup → heap'.properties ref = heap.properties ref) :
    heap'.Unfolds above value json := by
  induction hunfolds with
  | undefined => exact .undefined _
  | null => exact .null _
  | boolean => exact .boolean _ _
  | finite _ hfinite => exact .finite _ hfinite
  | infinite _ hinfinite => exact .infinite _ hinfinite
  | text => exact .text _ _
  | space => exact .space _ _
  | circular hmem => exact .circular hmem
  | @full above ref members hnew hkeys hmembers ih =>
      have hbelow : (ref :: above).Nodup := List.nodup_cons.mpr ⟨hnew, hdistinct⟩
      have hproperties : heap'.properties ref = heap.properties ref :=
        hsame [] above ref rfl hbelow
      refine .full hnew (by rw [hproperties]; exact hkeys) (fun key next member hnext hmember => ?_)
      have hnext' : heap.get? ref key = some next := by
        unfold get? at hnext ⊢
        rwa [hproperties] at hnext
      refine ih key next member hnext' hmember hbelow (fun way passed other hway => ?_)
      exact hsame (key :: way) passed other
        (follow?_cons_eq_some_iff.mpr ⟨ref, next, rfl, hnext', hway⟩)

end Unfolds

end Heap

namespace Value

/-- **A value is shown as its unfolding.**  Whatever objects lead to each other: showing ends and leaves
the stack as it was; the result is the one unfolding of the value; something stands at the end of a path
exactly when the path leads through no object twice, and there it is the unfolding of what the path
reaches below the objects it leads through, so that an object is the mark exactly when it is one of them
and all its properties in key order otherwise; and it is the same for any other objects, as long as
those shown in it have the same properties. -/
theorem rendering_is_unfolding (heap : Heap) (value : Value) :
    (∀ fuel, heap.size < fuel → (value.render heap fuel).run [] = some (value.toJson heap, [])) ∧
    (∀ json, heap.Unfolds [] value json ↔ json = value.toJson heap) ∧
    (∀ path, ((value.toJson heap).part? path).isSome ↔ ∃ above reached,
      heap.follow? [] value path = some (above, reached) ∧ above.Nodup) ∧
    (∀ path above reached shown, heap.follow? [] value path = some (above, reached) →
      (value.toJson heap).part? path = some shown → heap.Unfolds above reached shown ∧
      ∀ ref, reached = .object ref → (shown = .str circularMark ↔ ref ∈ above) ∧
        (ref ∉ above → ∃ members, shown = .obj members ∧
          members.map (·.1) = (heap.properties ref).keys ∧ (members.map (·.1)).Pairwise (· < ·))) ∧
    (∀ heap' path above reached, heap.follow? [] value path = some (above, reached) →
      heap'.follow? [] value path = some (above, reached) →
      (∀ way passed ref, heap.follow? above reached way = some (passed, .object ref) →
        (ref :: passed).Nodup → heap'.properties ref = heap.properties ref) →
      (value.toJson heap').part? path = (value.toJson heap).part? path) := by
  have hwhole := unfolds_toJson heap value
  have hreaches : ∀ {heap : Heap} {path above reached shown},
      heap.follow? [] value path = some (above, reached) →
      (value.toJson heap).part? path = some shown → above.Nodup ∧ heap.Unfolds above reached shown := by
    intro heap path above reached shown hfollow hpart
    have hwhole := unfolds_toJson heap value
    obtain ⟨_, _, hfollow', hdistinct⟩ := hwhole.follow_of_part List.nodup_nil hpart
    obtain ⟨rfl, rfl⟩ := Prod.mk.inj (Option.some.inj (hfollow.symm.trans hfollow'))
    obtain ⟨_, hpart', hunfolds⟩ := hwhole.part_of_follow hfollow hdistinct
    obtain rfl := Option.some.inj (hpart.symm.trans hpart')
    exact ⟨hdistinct, hunfolds⟩
  refine ⟨fun fuel hfuel => run_render_nil hfuel, fun json => unfolds_iff, fun path => ?_, ?_, ?_⟩
  · constructor
    · intro hsome
      obtain ⟨shown, hpart⟩ := Option.isSome_iff_exists.mp hsome
      exact hwhole.follow_of_part List.nodup_nil hpart
    · rintro ⟨above, reached, hfollow, hdistinct⟩
      obtain ⟨shown, hpart, -⟩ := hwhole.part_of_follow hfollow hdistinct
      exact Option.isSome_iff_exists.mpr ⟨shown, hpart⟩
  · intro path above reached shown hfollow hpart
    obtain ⟨-, hunfolds⟩ := hreaches hfollow hpart
    refine ⟨hunfolds, ?_⟩
    rintro ref rfl
    exact hunfolds.of_object
  · intro heap' path above reached hfollow hfollow' hsame
    by_cases hdistinct : above.Nodup
    · obtain ⟨shown, hpart, hunfolds⟩ := hwhole.part_of_follow hfollow hdistinct
      obtain ⟨shown', hpart', hunfolds'⟩ :=
        (unfolds_toJson heap' value).part_of_follow hfollow' hdistinct
      rw [hpart, hpart', hunfolds'.unique (hunfolds.congr hdistinct hsame)]
    · -- the path comes back to an object, so nothing stands at its end in either
      have hnone : ∀ {heap : Heap}, heap.follow? [] value path = some (above, reached) →
          (value.toJson heap).part? path = none := by
        intro heap hfollow
        cases hpart : (value.toJson heap).part? path with
        | none => rfl
        | some shown => exact absurd (hreaches hfollow hpart).1 hdistinct
      rw [hnone hfollow, hnone hfollow']

end Value

end Linkage
