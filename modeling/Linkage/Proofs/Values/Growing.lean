import Linkage.Proofs.Store.Grounded
import Linkage.Proofs.Values.Dynamic
import Linkage.Proofs.Values.Unfolding

/-!
# Objects made of JSON values

A JSON value that is brought into the heap becomes a tree: its objects are made for it, and each of
them is reached from the value by one path.  So it is shown in full, and what is shown is the value
without arrays.

* `Heap.reach?` : the value at the end of a path.
* `Heap.Grows`, `Heap.GrowsAll` : a value, or all values of a table, with the objects between two
  numbers as their own.
* `Heap.GrowsAll.insert`, `Heap.GrowsAll.grows` : one more value in the table, and the table as the
  properties of an object.
* `Value.grows_ofJson` : a JSON value grows where the heap ended.
* `Value.ofJson_builds_tree` : all of it.
-/

namespace Linkage

namespace Heap

variable {heap heap' : Heap} {lo mid hi : Nat} {value : Value} {shown : Json} {key : String}
  {path : List String} {ref : ObjectRef} {table : Table Value} {members : List (String × Json)}

/-- The value at the end of a path of keys. -/
def reach? (heap : Heap) (value : Value) (path : List String) : Option Value :=
  (heap.follow? [] value path).map (·.2)

theorem reach?_nil : heap.reach? value [] = some value := by
  cases value <;> rfl

/-- What a path reaches does not depend on what stands above it. -/
theorem map_follow? (above : List ObjectRef) :
    (heap.follow? above value path).map (·.2) = heap.reach? value path := by
  induction path generalizing above value with
  | nil => cases value <;> rfl
  | cons key rest ih =>
      cases value with
      | object ref =>
          rw [reach?, follow?, follow?, Option.map_bind, Option.map_bind]
          exact Option.bind_congr (fun next _ => (ih (ref :: above)).trans (ih [ref]).symm)
      | _ => rfl

/-- The value at the end of a path that begins with a key of a table. -/
def reachIn? (heap : Heap) (table : Table Value) (key : String) (path : List String) : Option Value :=
  (table.find? key).bind (fun value => heap.reach? value path)

theorem reach?_cons (heap : Heap) (ref : ObjectRef) (key : String) (path : List String) :
    heap.reach? (.object ref) (key :: path) = heap.reachIn? (heap.properties ref) key path := by
  rw [reach?, follow?, Option.map_bind]
  exact Option.bind_congr (fun next _ => map_follow? [ref])

theorem reachIn?_insert (heap : Heap) (table : Table Value) (key other : String) (value : Value)
    (path : List String) : heap.reachIn? (table.insert key value) other path =
      if other = key then heap.reach? value path else heap.reachIn? table other path := by
  unfold reachIn?
  rw [Table.find?_insert]
  split <;> rfl

/-- No path leads on from a value that is no object. -/
theorem reach?_plain (hplain : value.toObject? = none) :
    heap.reach? value path ≠ some (.object ref) := by
  intro hreach
  cases path with
  | nil =>
      rw [reach?_nil] at hreach
      cases hreach
      cases hplain
  | cons key rest =>
      cases value with
      | object => cases hplain
      | _ => cases hreach

/-- A value has the objects from one number up to another as its own: it is shown without a mark, its
paths lead to no other objects, and to each of these leads one path. -/
structure Grows (heap : Heap) (lo hi : Nat) (value : Value) (shown : Json) : Prop where
  unfolds : ∀ above : List ObjectRef, (∀ ref ∈ above, hi ≤ ref.index) → heap.Unfolds above value shown
  inside : ∀ path ref, heap.reach? value path = some (.object ref) → lo ≤ ref.index ∧ ref.index < hi
  once : ∀ index, lo ≤ index → index < hi → ∃! path, heap.reach? value path = some (.object ⟨index⟩)

/-- The values of a table have the objects from one number up to another as their own. -/
structure GrowsAll (heap : Heap) (lo hi : Nat) (table : Table Value) (members : List (String × Json)) :
    Prop where
  keys : ∀ key, (table.find? key).isSome ↔ key ∈ members.map (·.1)
  unfolds : ∀ key value shown, table.find? key = some value → (key, shown) ∈ members →
    ∀ above : List ObjectRef, (∀ ref ∈ above, hi ≤ ref.index) → heap.Unfolds above value shown
  inside : ∀ key path ref, heap.reachIn? table key path = some (.object ref) →
    lo ≤ ref.index ∧ ref.index < hi
  once : ∀ index, lo ≤ index → index < hi → ∃! way : String × List String,
    heap.reachIn? table way.1 way.2 = some (.object ⟨index⟩)

/-- What is no object has no objects of its own. -/
theorem grows_plain (hplain : value.toObject? = none)
    (hshown : ∀ above, heap.Unfolds above value shown) : heap.Grows lo lo value shown where
  unfolds above _ := hshown above
  inside _ _ hreach := absurd hreach (reach?_plain hplain)
  once _ hlow hhigh := absurd hhigh (Nat.not_lt.mpr hlow)

theorem growsAll_empty : heap.GrowsAll lo lo {} [] where
  keys _ := iff_of_false nofun List.not_mem_nil
  unfolds _ _ _ hfind := nomatch hfind
  inside _ _ _ hreach := nomatch hreach
  once _ hlow hhigh := absurd hhigh (Nat.not_lt.mpr hlow)

/-- One more value, with the objects behind those of the others as its own. -/
theorem GrowsAll.insert (hall : heap.GrowsAll lo mid table members)
    (hgrows : heap.Grows mid hi value shown) (hlow : lo ≤ mid) (hhigh : mid ≤ hi)
    (hnew : key ∉ members.map (·.1)) :
    heap.GrowsAll lo hi (table.insert key value) (members ++ [(key, shown)]) where
  keys other := by
    rw [Table.find?_insert, List.map_append, List.mem_append]
    split
    · rename_i hkey
      exact iff_of_true rfl (.inr (List.mem_singleton.mpr hkey))
    · rename_i hkey
      rw [hall.keys other]
      exact (or_iff_left (fun hmem => hkey (List.mem_singleton.mp hmem))).symm
  unfolds other found json hfind hmem above habove := by
    rw [Table.find?_insert] at hfind
    split at hfind
    · rename_i hkey
      obtain rfl := Option.some.inj hfind
      rcases List.mem_append.mp hmem with hmem | hmem
      · exact absurd (hkey ▸ List.mem_map_of_mem (f := (·.1)) hmem) hnew
      · obtain ⟨-, rfl⟩ := Prod.mk.inj (List.mem_singleton.mp hmem)
        exact hgrows.unfolds above habove
    · rename_i hkey
      rcases List.mem_append.mp hmem with hmem | hmem
      · exact hall.unfolds other found json hfind hmem above
          (fun ref href => Nat.le_trans hhigh (habove ref href))
      · exact absurd (Prod.mk.inj (List.mem_singleton.mp hmem)).1 hkey
  inside other path ref hreach := by
    rw [reachIn?_insert] at hreach
    split at hreach
    · obtain ⟨hover, hunder⟩ := hgrows.inside path ref hreach
      exact ⟨Nat.le_trans hlow hover, hunder⟩
    · obtain ⟨hover, hunder⟩ := hall.inside other path ref hreach
      exact ⟨hover, Nat.lt_of_lt_of_le hunder hhigh⟩
  once index hover hunder := by
    -- the object is one of the others, or one of the new value
    rcases Nat.lt_or_ge index mid with hside | hside
    · obtain ⟨way, hway, hunique⟩ := hall.once index hover hside
      have hkey : way.1 ≠ key := by
        rintro hkey
        have hnone : table.find? key = none :=
          Option.not_isSome_iff_eq_none.mp (fun hsome => hnew ((hall.keys key).mp hsome))
        rw [hkey, reachIn?, hnone] at hway
        cases hway
      refine ⟨way, ?_, ?_⟩
      · dsimp only
        rw [reachIn?_insert, if_neg hkey, hway]
      · rintro ⟨other, path⟩ hother
        rw [reachIn?_insert] at hother
        split at hother
        · exact absurd (hgrows.inside _ _ hother).1 (Nat.not_le.mpr hside)
        · exact hunique (other, path) hother
    · obtain ⟨path, hpath, hunique⟩ := hgrows.once index hside hunder
      refine ⟨(key, path), ?_, ?_⟩
      · dsimp only
        rw [reachIn?_insert, if_pos rfl, hpath]
      · rintro ⟨other, way⟩ hother
        rw [reachIn?_insert] at hother
        split at hother
        · rename_i hkey
          exact Prod.ext hkey (hunique way hother)
        · exact absurd (hall.inside _ _ _ hother).2 (Nat.not_lt.mpr hside)

/-- An object made behind those of its properties is the one more of the value it is. -/
theorem GrowsAll.grows (hall : heap.GrowsAll lo hi (heap.properties ⟨hi⟩) members) (hlow : lo ≤ hi)
    (hdistinct : (members.map (·.1)).Nodup) :
    heap.Grows lo (hi + 1) (.object ⟨hi⟩) (.obj (Json.sortMembers members)) where
  unfolds above habove := by
    have hperm := Json.perm_sortMembers members
    have hnew : (⟨hi⟩ : ObjectRef) ∉ above := fun hmem => Nat.not_succ_le_self hi (habove _ hmem)
    refine .full hnew ?_ (fun key value shown hvalue hshown => ?_)
    · refine (Json.keysIncrease_sortMembers hdistinct).keys_eq (heap.properties ⟨hi⟩).ordered
        (fun key => ?_)
      rw [(hperm.map Prod.fst).mem_iff, ← hall.keys]
      exact Table.mem_keys_iff.symm
    · refine hall.unfolds key value shown hvalue (hperm.mem_iff.mp (mem_of_lookupEntry hshown)) _ ?_
      exact List.forall_mem_cons.mpr ⟨Nat.le_refl hi, fun ref href => Nat.le_of_succ_le (habove ref href)⟩
  inside path ref hreach := by
    cases path with
    | nil =>
        rw [reach?_nil] at hreach
        cases hreach
        exact ⟨hlow, Nat.lt_succ_self hi⟩
    | cons key rest =>
        rw [reach?_cons] at hreach
        obtain ⟨hover, hunder⟩ := hall.inside key rest ref hreach
        exact ⟨hover, Nat.lt_succ_of_lt hunder⟩
  once index hover hunder := by
    rcases Nat.lt_or_ge index hi with hside | hside
    · obtain ⟨way, hway, hunique⟩ := hall.once index hover hside
      refine ⟨way.1 :: way.2, (reach?_cons heap _ _ _).trans hway, fun path hpath => ?_⟩
      cases path with
      | nil =>
          rw [reach?_nil] at hpath
          cases hpath
          exact absurd hside (Nat.lt_irrefl _)
      | cons key rest =>
          rw [reach?_cons] at hpath
          rw [← hunique (key, rest) hpath]
    · obtain rfl := Nat.le_antisymm (Nat.le_of_lt_succ hunder) hside
      refine ⟨[], reach?_nil, fun path hpath => ?_⟩
      cases path with
      | nil => rfl
      | cons key rest =>
          rw [reach?_cons] at hpath
          exact absurd (hall.inside key rest _ hpath).2 (Nat.lt_irrefl _)

end Heap

/-! ## JSON values in the heap -/

theorem Heap.properties_alloc (heap : Heap) (properties : Table Value) :
    (heap.alloc properties).2.properties ⟨heap.size⟩ = properties := by
  show ((heap.objects.push properties)[heap.objects.size]?).getD {} = properties
  rw [Array.getElem?_push_size]
  rfl

namespace Value

variable {heap later : Heap} {json : Json} {items : List Json} {members done : List (String × Json)}
  {table : Table Value}

theorem ofMembers_append (members others : List (String × Json)) (table : Table Value) (heap : Heap) :
    ofMembers (members ++ others) table heap =
      ofMembers others (ofMembers members table heap).1 (ofMembers members table heap).2 := by
  induction members generalizing table heap with
  | nil => rfl
  | cons member rest ih => exact ih _ _

/-- The items of an array come into the heap as members under their positions. -/
theorem ofItems_eq (items : List Json) (position : Nat) (table : Table Value) (heap : Heap) :
    ofItems items position table heap = ofMembers (Json.numbered position items) table heap := by
  induction items generalizing position table heap with
  | nil => rfl
  | cons item rest ih => exact ih _ _ _

/-- An array comes into the heap as the object that stands for it. -/
theorem ofJson_arr (items : List Json) (heap : Heap) :
    ofJson (.arr items) heap = ofJson (.obj (Json.arrayMembers items)) heap := by
  rw [ofJson, ofJson, Json.arrayMembers, ofMembers_append, ofItems_eq]
  rfl

/-- A value grows where the heap ends, whatever is made later. -/
abbrev GrowsAtEnd (json : Json) : Prop :=
  ∀ heap later : Heap, (ofJson json heap).2.Extends (fun _ => True) later →
    later.Grows heap.size (ofJson json heap).2.size (ofJson json heap).1 json.withoutArrays

/-- Members that grow, grow one after the other. -/
theorem growsAll_ofMembers (hmembers : ∀ member ∈ members, GrowsAtEnd member.2) {lo : Nat}
    (hlow : lo ≤ heap.size) (hdone : later.GrowsAll lo heap.size table done)
    (hdistinct : ((done ++ members).map (·.1)).Nodup)
    (htable : table.Grounded heap.size (fun _ => True))
    (hlater : (ofMembers members table heap).2.Extends (fun _ => True) later) :
    later.GrowsAll lo (ofMembers members table heap).2.size (ofMembers members table heap).1
      (done ++ members.map (fun member => (member.1, member.2.withoutArrays))) := by
  induction members generalizing heap table done with
  | nil =>
      rw [List.map_nil, List.append_nil]
      exact hdone
  | cons member rest ih =>
      obtain ⟨key, json⟩ := member
      obtain ⟨hextends, hvalue, -⟩ := @extends_ofJson (fun _ => True) json heap
      have htable' := (htable.mono hextends.size (fun _ hshown => hshown)).insert key hvalue
      obtain ⟨hrest, -⟩ := extends_ofMembers rest _ _ htable'
      have hnew : key ∉ done.map (·.1) := by
        rw [List.map_append, List.map_cons] at hdistinct
        exact fun hmem => (List.nodup_append.mp hdistinct).2.2 key hmem key List.mem_cons_self rfl
      have hgrows := hmembers (key, json) List.mem_cons_self heap later (hrest.trans hlater)
      have hmore := ih (fun member hmem => hmembers member (List.mem_cons_of_mem _ hmem))
        (Nat.le_trans hlow hextends.size) (hdone.insert hgrows hlow hextends.size hnew) ?_ htable' hlater
      · rw [List.map_cons, List.append_cons]
        exact hmore
      · rw [List.append_cons] at hdistinct
        rw [List.map_append, List.map_append] at hdistinct ⊢
        exact hdistinct

/-- Members with different keys that grow make an object that does. -/
theorem grows_obj (hmembers : ∀ member ∈ members, GrowsAtEnd member.2)
    (hdistinct : (members.map (·.1)).Nodup) (heap later : Heap)
    (hlater : (ofJson (.obj members) heap).2.Extends (fun _ => True) later) :
    later.Grows heap.size (ofJson (.obj members) heap).2.size (ofJson (.obj members) heap).1
      (.obj (Json.sortMembers (members.map (fun member => (member.1, member.2.withoutArrays))))) := by
  obtain ⟨hextends, hproperties⟩ := @extends_ofMembers (fun _ => True) members {} heap .empty
  have halloc := Heap.extends_alloc _ hproperties
  have hall := growsAll_ofMembers hmembers (Nat.le_refl heap.size)
    Heap.growsAll_empty hdistinct .empty (halloc.trans hlater)
  have hsize := Heap.size_alloc (ofMembers members {} heap).2 (ofMembers members {} heap).1
  -- the object that is made last has the properties
  have hmade : later.properties ⟨(ofMembers members {} heap).2.size⟩ = (ofMembers members {} heap).1 :=
    have hlast : (ofMembers members {} heap).2.size < (ofJson (.obj members) heap).2.size :=
      Nat.lt_of_lt_of_eq (Nat.lt_succ_self _) hsize.symm
    (hlater.properties hlast).trans (Heap.properties_alloc _ _)
  rw [List.nil_append] at hall
  have hgrows := Heap.GrowsAll.grows (hmade ▸ hall) hextends.size (by rwa [List.map_map])
  rw [← hsize] at hgrows
  exact hgrows

/-- **A dynamic value grows where the heap ends.** -/
theorem grows_ofJson (hdynamic : json.IsDynamic) : GrowsAtEnd json := by
  induction hdynamic with
  | null => exact fun heap later _ => Heap.grows_plain rfl .null
  | bool b => exact fun heap later _ => Heap.grows_plain rfl (fun above => .boolean above b)
  | int hlow hhigh =>
      exact fun heap later _ => Heap.grows_plain rfl
        (fun above => .finite above (Double.isFinite_ofInt hlow hhigh))
  | float hfinite => exact fun heap later _ => Heap.grows_plain rfl (fun above => .finite above hfinite)
  | str s => exact fun heap later _ => Heap.grows_plain rfl (fun above => .text above s)
  | @arr items hlength _ ih =>
      intro heap later hlater
      rw [ofJson_arr] at hlater ⊢
      rw [Json.withoutArrays_arr]
      refine grows_obj (fun member hmem => ?_) (Json.nodup_keys_arrayMembers items) heap later hlater
      rcases Json.mem_arrayMembers hmem with hitem | hcount
      · exact ih _ hitem
      · rw [hcount]
        exact fun heap later _ => Heap.grows_plain rfl
          (fun above => .finite above (Double.isFinite_ofNat hlength))
  | @obj members hordered _ ih =>
      intro heap later hlater
      have hgrows := grows_obj ih hordered.nodup_keys heap later hlater
      rwa [Json.sortMembers_eq (hordered.map _), ← Json.withoutArrays_obj] at hgrows

/-- What is shown of a JSON value that was brought into a heap. -/
def rebuilt (heap : Heap) (json : Json) : Json :=
  (ofJson json heap).1.toJson (ofJson json heap).2

theorem rebuilt_eq (hdynamic : json.IsDynamic) (heap : Heap) : rebuilt heap json = json.withoutArrays :=
  (unfolds_iff.mp ((grows_ofJson hdynamic heap _ (.refl _)).unfolds [] nofun)).symm

/-- **A JSON value becomes a tree of its own, and is shown without arrays.**  Whatever is in the heap:
what is there stays as it is; the value leads to the objects that are made for it and to no others, and
to each of them by one path; what is shown of it is the value with each array as an object with the
items under their positions and their number under `length`, and each number as a double.  So showing it
and bringing that into a heap once more shows the same, and a value without arrays whose numbers are
doubles is shown as it is. -/
theorem ofJson_builds_tree (hdynamic : json.IsDynamic) (heap : Heap) :
    (∀ ref : ObjectRef, ref.index < heap.size →
      (ofJson json heap).2.properties ref = heap.properties ref) ∧
    (∀ path ref, (ofJson json heap).2.reach? (ofJson json heap).1 path = some (.object ref) →
      heap.size ≤ ref.index ∧ ref.index < (ofJson json heap).2.size) ∧
    (∀ index, heap.size ≤ index → index < (ofJson json heap).2.size →
      ∃! path, (ofJson json heap).2.reach? (ofJson json heap).1 path = some (.object ⟨index⟩)) ∧
    rebuilt heap json = json.withoutArrays ∧
    (∀ again, rebuilt again (rebuilt heap json) = rebuilt heap json) ∧
    (json.IsPlain → rebuilt heap json = json) := by
  obtain ⟨hextends, -, -⟩ := @extends_ofJson (fun _ => True) json heap
  have hgrows := grows_ofJson hdynamic heap _ (.refl _)
  have hshown := rebuilt_eq hdynamic heap
  refine ⟨fun ref href => hextends.properties href, hgrows.inside, hgrows.once, hshown, ?_, ?_⟩
  · intro again
    rw [hshown, rebuilt_eq hdynamic.withoutArrays]
    exact (Json.isPlain_withoutArrays json).withoutArrays_eq
  · exact fun hplain => hshown.trans hplain.withoutArrays_eq

theorem ofJson_builds_tree_of_array :
    rebuilt .empty (.arr [.obj [("a", .null), ("b", .int 7)], .str "c"]) =
      .obj [("0", .obj [("a", .null), ("b", .float (Float.ofInt 7))]), ("1", .str "c"),
        ("length", .float (Float.ofNat 2))] := by
  have hitem : Json.IsDynamic (.obj [("a", .null), ("b", .int 7)]) :=
    .obj (by unfold KeysIncrease; decide)
      (List.forall_mem_cons.mpr ⟨.null, List.forall_mem_singleton.mpr (.int (by decide) (by decide))⟩)
  have hdynamic : Json.IsDynamic (.arr [.obj [("a", .null), ("b", .int 7)], .str "c"]) :=
    .arr (by decide) (List.forall_mem_cons.mpr ⟨hitem, List.forall_mem_singleton.mpr (.str "c")⟩)
  have hordered : KeysIncrease [("0", Json.obj [("a", .null), ("b", .float (Float.ofInt 7))]),
      ("1", .str "c"), ("length", .float (Float.ofNat 2))] := by
    unfold KeysIncrease
    decide
  exact (ofJson_builds_tree hdynamic .empty).2.2.2.1.trans
    (congrArg Json.obj (Json.sortMembers_eq hordered))

end Value

end Linkage
