import Linkage.Json.Basic
import Linkage.Proofs.Table
import Linkage.Proofs.Values.Rounding
import Mathlib.Data.List.Nodup
import Mathlib.Data.Nat.Digits.Defs

/-!
# Dynamic JSON values

A dynamic value is what a reader makes when it is asked for any value: its numbers fit, and the members
of an object stand in key order.  A script has no arrays and only doubles, so what a dynamic value
becomes in a script is the value without arrays.

* `Json.IsDynamic`, `Json.IsDynamic.normal_eq` : dynamic values, which are in normal form.
* `Json.withoutArrays` : arrays as objects, numbers as doubles.
* `Json.isPlain_withoutArrays`, `Json.IsPlain.withoutArrays_eq` : neither is left, and where there is
  neither, nothing is changed.
* `Json.IsDynamic.withoutArrays` : the result is a dynamic value.
-/

namespace Linkage

namespace Json

variable {json : Json} {items : List Json} {members : List (String × Json)}

/-- A value without parts. -/
def IsAtom : Json → Prop
  | .arr _ | .obj _ => False
  | _ => True

theorem isAtom_or (json : Json) :
    json.IsAtom ∨ (∃ items, json = .arr items) ∨ ∃ members, json = .obj members := by
  cases json with
  | arr items => exact .inr (.inl ⟨items, rfl⟩)
  | obj members => exact .inr (.inr ⟨members, rfl⟩)
  | _ => exact .inl trivial

/-- What holds of values without parts, and of a value if it holds of its items or of the values of its
members, holds of every value. -/
theorem induction {motive : Json → Prop} (hatom : ∀ json, json.IsAtom → motive json)
    (harr : ∀ items, (∀ item ∈ items, motive item) → motive (.arr items))
    (hobj : ∀ members, (∀ member ∈ members, motive member.2) → motive (.obj members)) :
    ∀ json, motive json
  | .null | .bool _ | .int _ | .float _ | .str _ => hatom _ trivial
  | .arr items => harr items (fun item _ => induction hatom harr hobj item)
  | .obj members => hobj members (fun member _ => induction hatom harr hobj member.2)
termination_by json => sizeOf json
decreasing_by
  · have := List.sizeOf_lt_of_mem ‹_›
    simp only [arr.sizeOf_spec]
    omega
  · have := List.sizeOf_lt_of_mem ‹_›
    obtain ⟨key, value⟩ := member
    simp only [Prod.mk.sizeOf_spec] at this
    simp only [obj.sizeOf_spec]
    omega

/-! ## Members in order -/

/-- Bring members with different keys into key order. -/
def sortMembers (members : List (String × Json)) : List (String × Json) :=
  members.mergeSort (fun one other => decide (one.1 ≤ other.1))

theorem perm_sortMembers (members : List (String × Json)) : (sortMembers members).Perm members :=
  List.mergeSort_perm members _

theorem keysIncrease_sortMembers (hdistinct : (members.map (·.1)).Nodup) :
    KeysIncrease (sortMembers members) := by
  have hsorted : (sortMembers members).Pairwise (fun one other => one.1 ≤ other.1) := by
    refine (List.pairwise_mergeSort ?_ ?_ members).imp of_decide_eq_true
    · intro one other third hfirst hsecond
      exact decide_eq_true (String.le_trans (of_decide_eq_true hfirst) (of_decide_eq_true hsecond))
    · intro one other
      rw [Bool.or_eq_true, decide_eq_true_eq, decide_eq_true_eq]
      exact String.le_total _ _
  have hdifferent : (sortMembers members).Pairwise (fun one other => one.1 ≠ other.1) :=
    List.pairwise_map.mp (((perm_sortMembers members).map Prod.fst).nodup_iff.mpr hdistinct)
  exact (hsorted.and hdifferent).imp (fun hboth => Std.lt_of_le_of_ne hboth.1 hboth.2)

theorem sortMembers_eq (hordered : KeysIncrease members) : sortMembers members = members :=
  List.mergeSort_of_pairwise (hordered.imp (fun hlt => decide_eq_true (Std.le_of_lt hlt)))

/-- Members whose values do not change do not change. -/
theorem map_members_eq {f : Json → Json} (hsame : ∀ member ∈ members, f member.2 = member.2) :
    members.map (fun member => (member.1, f member.2)) = members := by
  have hid : ∀ member ∈ members, (member.1, f member.2) = id member :=
    fun member hmem => Prod.ext rfl (hsame member hmem)
  rw [List.map_congr_left hid, List.map_id]

theorem IsAtom.normal_eq (hatom : json.IsAtom) : json.normal = json := by
  cases json with
  | arr | obj => cases hatom
  | _ => rw [normal] <;> (intro _ hnested; cases hnested)

theorem normal_arr (items : List Json) : (arr items).normal = .arr (items.map normal) := by
  rw [normal, List.map_attach_eq_pmap, List.pmap_eq_map]

theorem normal_obj (members : List (String × Json)) : (obj members).normal =
    .obj (orderMembers (members.map (fun member => (member.1, member.2.normal)))) := by
  rw [normal, List.map_attach_eq_pmap, List.pmap_eq_map]

/-! ## Dynamic values -/

/-- A dynamic value: an integer has at most 64 bits, another number is finite, an array is no longer
than a machine can count, and the members of an object stand in key order. -/
inductive IsDynamic : Json → Prop
  | null : IsDynamic .null
  | bool (b : Bool) : IsDynamic (.bool b)
  | int {n : Int} (hlow : -2 ^ 63 ≤ n) (hhigh : n < 2 ^ 64) : IsDynamic (.int n)
  | float {x : Float} (hfinite : x.isFinite = true) : IsDynamic (.float x)
  | str (s : String) : IsDynamic (.str s)
  | arr {items : List Json} (hlength : items.length < 2 ^ 64) (hitems : ∀ item ∈ items, item.IsDynamic) :
      IsDynamic (.arr items)
  | obj {members : List (String × Json)} (hordered : KeysIncrease members)
      (hmembers : ∀ member ∈ members, member.2.IsDynamic) : IsDynamic (.obj members)

/-- A dynamic value is in normal form. -/
theorem IsDynamic.normal_eq (hdynamic : json.IsDynamic) : json.normal = json := by
  induction hdynamic with
  | null | bool | int | float | str => exact IsAtom.normal_eq trivial
  | arr _ _ ih => rw [normal_arr, List.map_congr_left ih, List.map_id']
  | obj hordered _ ih => rw [normal_obj, map_members_eq ih, orderMembers, Table.entries_ofList hordered]

/-! ## Values without arrays -/

/-- Items under their positions, counted from a number on. -/
def numbered : Nat → List Json → List (String × Json)
  | _, [] => []
  | position, item :: rest => (toString position, item) :: numbered (position + 1) rest

mutual

/-- A value with each number as a double, and each array as an object with the items under their
positions and their number under `length`. -/
def withoutArrays : Json → Json
  | .int n => .float (Float.ofInt n)
  | .arr items =>
      .obj (sortMembers
        (numbered 0 (itemsWithoutArrays items) ++ [("length", .float (Float.ofNat items.length))]))
  | .obj members => .obj (membersWithoutArrays members)
  | other => other

/-- The items of an array, each without arrays. -/
def itemsWithoutArrays : List Json → List Json
  | [] => []
  | item :: rest => item.withoutArrays :: itemsWithoutArrays rest

/-- The members of an object, each without arrays. -/
def membersWithoutArrays : List (String × Json) → List (String × Json)
  | [] => []
  | (key, json) :: rest => (key, json.withoutArrays) :: membersWithoutArrays rest

end

theorem itemsWithoutArrays_eq (items : List Json) :
    itemsWithoutArrays items = items.map withoutArrays := by
  induction items with
  | nil => rfl
  | cons item rest ih => rw [itemsWithoutArrays, ih, List.map_cons]

theorem membersWithoutArrays_eq (members : List (String × Json)) :
    membersWithoutArrays members = members.map (fun member => (member.1, member.2.withoutArrays)) := by
  induction members with
  | nil => rfl
  | cons member rest ih => rw [membersWithoutArrays, ih, List.map_cons]

/-- The members of the object that stands for an array. -/
def arrayMembers (items : List Json) : List (String × Json) :=
  numbered 0 items ++ [("length", .float (Float.ofNat items.length))]

theorem numbered_map {f : Json → Json} (position : Nat) (items : List Json) :
    numbered position (items.map f) =
      (numbered position items).map (fun member => (member.1, f member.2)) := by
  induction items generalizing position with
  | nil => rfl
  | cons item rest ih => rw [List.map_cons, numbered, ih, numbered, List.map_cons]

theorem exists_of_mem_numbered {member : String × Json} {position : Nat}
    (hmem : member ∈ numbered position items) :
    member.2 ∈ items ∧ ∃ place, position ≤ place ∧ member.1 = toString place := by
  induction items generalizing position with
  | nil => cases hmem
  | cons item rest ih =>
      rcases List.mem_cons.mp hmem with rfl | hrest
      · exact ⟨List.mem_cons_self, position, Nat.le_refl _, rfl⟩
      · obtain ⟨hitem, place, hplace, hkey⟩ := ih hrest
        exact ⟨List.mem_cons_of_mem _ hitem, place, Nat.le_of_succ_le hplace, hkey⟩

theorem toString_inj {one other : Nat} (hsame : toString one = toString other) : one = other := by
  have hdigits := congrArg (fun text => Nat.ofDigitChars 10 text.toList 0) hsame
  simpa [Nat.toString_eq_ofList_toDigits, Nat.ofDigitChars_ten_toDigits] using hdigits

/-- No position is written as the key of the length. -/
theorem toString_ne_length (position : Nat) : toString position ≠ "length" := by
  intro hsame
  have hmem : 'l' ∈ Nat.toDigits 10 position := by
    rw [Nat.toString_eq_ofList_toDigits] at hsame
    rw [← String.toList_ofList (l := Nat.toDigits 10 position), hsame]
    decide
  exact absurd (Nat.isDigit_of_mem_toDigits (by decide) (by decide) hmem) (by decide)

theorem nodup_keys_numbered (position : Nat) (items : List Json) :
    ((numbered position items).map (·.1)).Nodup := by
  induction items generalizing position with
  | nil => exact List.nodup_nil
  | cons item rest ih =>
      refine List.nodup_cons.mpr ⟨?_, ih (position + 1)⟩
      intro hmem
      obtain ⟨member, hmember, hkey⟩ := List.mem_map.mp hmem
      obtain ⟨-, place, hplace, hkey'⟩ := exists_of_mem_numbered hmember
      have := toString_inj (hkey'.symm.trans hkey)
      omega

/-- The items and the length of an array stand under different keys. -/
theorem nodup_keys_arrayMembers (items : List Json) : ((arrayMembers items).map (·.1)).Nodup := by
  rw [arrayMembers, List.map_append]
  refine List.nodup_append.mpr ⟨nodup_keys_numbered 0 items, List.nodup_singleton _, ?_⟩
  intro key hkey other hother hsame
  obtain ⟨member, hmember, rfl⟩ := List.mem_map.mp hkey
  obtain ⟨-, place, -, hplace⟩ := exists_of_mem_numbered hmember
  obtain rfl := List.mem_singleton.mp hother
  exact toString_ne_length place (hplace.symm.trans hsame)

/-- The object that stands for an array has the items and their number. -/
theorem mem_arrayMembers {member : String × Json} (hmem : member ∈ arrayMembers items) :
    member.2 ∈ items ∨ member.2 = .float (Float.ofNat items.length) := by
  rcases List.mem_append.mp hmem with hnumbered | hlength
  · exact .inl (exists_of_mem_numbered hnumbered).1
  · exact .inr (congrArg Prod.snd (List.mem_singleton.mp hlength))

theorem withoutArrays_obj (members : List (String × Json)) : (obj members).withoutArrays =
    .obj (members.map (fun member => (member.1, member.2.withoutArrays))) := by
  rw [withoutArrays, membersWithoutArrays_eq]

theorem withoutArrays_arr (items : List Json) : (arr items).withoutArrays =
    .obj (sortMembers ((arrayMembers items).map (fun member => (member.1, member.2.withoutArrays)))) := by
  rw [withoutArrays, itemsWithoutArrays_eq, numbered_map, arrayMembers, List.map_append]
  rfl

/-- A value without arrays whose numbers are doubles. -/
inductive IsPlain : Json → Prop
  | null : IsPlain .null
  | bool (b : Bool) : IsPlain (.bool b)
  | float (x : Float) : IsPlain (.float x)
  | str (s : String) : IsPlain (.str s)
  | obj {members : List (String × Json)} (hmembers : ∀ member ∈ members, member.2.IsPlain) :
      IsPlain (.obj members)

theorem IsPlain.withoutArrays_eq (hplain : json.IsPlain) : json.withoutArrays = json := by
  induction hplain with
  | null | bool | float | str => rfl
  | obj _ ih => rw [withoutArrays_obj, map_members_eq ih]

/-- No array is left, and each number is a double. -/
theorem isPlain_withoutArrays (json : Json) : json.withoutArrays.IsPlain := by
  induction json using induction with
  | hatom json hatom =>
      cases json with
      | arr | obj => cases hatom
      | null => exact .null
      | bool b => exact .bool b
      | int n => exact .float _
      | float x => exact .float x
      | str s => exact .str s
  | harr items ih =>
      rw [withoutArrays_arr]
      refine .obj (fun member hmem => ?_)
      obtain ⟨before, hbefore, rfl⟩ := List.mem_map.mp ((perm_sortMembers _).mem_iff.mp hmem)
      rcases mem_arrayMembers hbefore with hitem | hlength
      · exact ih _ hitem
      · exact hlength ▸ .float _
  | hobj members ih =>
      rw [withoutArrays_obj]
      refine .obj (fun member hmem => ?_)
      obtain ⟨before, hbefore, rfl⟩ := List.mem_map.mp hmem
      exact ih before hbefore

/-- A dynamic value without arrays is a dynamic value. -/
theorem IsDynamic.withoutArrays (hdynamic : json.IsDynamic) : json.withoutArrays.IsDynamic := by
  induction hdynamic with
  | null => exact .null
  | bool b => exact .bool b
  | int hlow hhigh => exact .float (Double.isFinite_ofInt hlow hhigh)
  | float hfinite => exact .float hfinite
  | str s => exact .str s
  | @arr items hlength _ ih =>
      rw [withoutArrays_arr]
      refine .obj (keysIncrease_sortMembers ?_) (fun member hmem => ?_)
      · rw [List.map_map]
        exact nodup_keys_arrayMembers items
      · obtain ⟨before, hbefore, rfl⟩ := List.mem_map.mp ((perm_sortMembers _).mem_iff.mp hmem)
        rcases mem_arrayMembers hbefore with hitem | hcount
        · exact ih _ hitem
        · exact hcount ▸ .float (Double.isFinite_ofNat hlength)
  | obj hordered _ ih =>
      rw [withoutArrays_obj]
      refine .obj (hordered.map _) ?_
      intro member hmem
      obtain ⟨before, hbefore, rfl⟩ := List.mem_map.mp hmem
      exact ih before hbefore

end Json

end Linkage
