import Linkage.Json.Shape
import Linkage.Proofs.Fallible
import Linkage.Proofs.Values.Dynamic

/-!
# What is written is read back

A writer and a reader fit when the reader gives back the value for each spelling of what is written:
members may stand in any order.  That a reader gives only values of some kind is asked of every text
whose numbers fit, however much of it is left out or not known.  Both are passed on from the parts of
a value to the whole.

* `Json.Spells`, `Json.spells_normal` : one JSON value in the place of another.
* `Json.Presents` : the members of a record that spell its fields.
* `Json.ReadsBack` : a reader fits a writer, with a lemma for each way to put values together.
* `Json.Written.IsProper`, `Json.Yields` : a reader gives only values of some kind.
-/

namespace Linkage.Json

variable {json value : Json} {items others : List Json} {members fields : List (String × Json)}

/-! ## Spellings -/

/-- No object has two members with one key. -/
inductive Unrepeated : Json → Prop
  | atom {json : Json} (hatom : json.IsAtom) : Unrepeated json
  | arr {items : List Json} (hitems : ∀ item ∈ items, item.Unrepeated) : Unrepeated (.arr items)
  | obj {members : List (String × Json)} (hdistinct : (members.map (·.1)).Nodup)
      (hmembers : ∀ member ∈ members, member.2.Unrepeated) : Unrepeated (.obj members)

/-- One value spells another: no key stands twice, and but for the order of members it is the same. -/
structure Spells (json value : Json) : Prop where
  unrepeated : json.Unrepeated
  normal : json.normal = value.normal

@[simp] theorem unrepeated_null : Unrepeated .null :=
  .atom trivial

@[simp] theorem unrepeated_str (text : String) : Unrepeated (.str text) :=
  .atom trivial

@[simp] theorem unrepeated_ofFloat (x : Float) : (ofFloat x).Unrepeated := by
  unfold ofFloat
  split <;> exact .atom trivial

section Unrepeated

variable {α : Type} {write : α → Json}

theorem unrepeated_ofOption {found? : Option α} (hwrite : ∀ found, (write found).Unrepeated) :
    (ofOption write found?).Unrepeated := by
  cases found? with
  | none => exact unrepeated_null
  | some found => exact hwrite found

theorem unrepeated_ofList {values : List α} (hwrite : ∀ found ∈ values, (write found).Unrepeated) :
    (ofList write values).Unrepeated := by
  refine .arr (fun item hmem => ?_)
  obtain ⟨found, hfound, rfl⟩ := List.mem_map.mp hmem
  exact hwrite found hfound

theorem unrepeated_ofTable {table : Table α}
    (hwrite : ∀ key found, table.find? key = some found → (write found).Unrepeated) :
    (ofTable write table).Unrepeated := by
  refine .obj (by rw [List.map_map]; exact table.nodup_keys) (fun member hmem => ?_)
  obtain ⟨entry, hentry, rfl⟩ := List.mem_map.mp hmem
  exact hwrite entry.1 entry.2 (lookupEntry_eq_some table.nodup_keys hentry)

end Unrepeated

theorem keysIncrease_orderMembers (members : List (String × Json)) : KeysIncrease (orderMembers members) :=
  (Table.ofList members).ordered

theorem exists_of_mem_orderMembers {f : Json → Json} {member : String × Json}
    (hmem : member ∈ orderMembers (members.map (fun member => (member.1, f member.2)))) :
    ∃ before ∈ members, member = (before.1, f before.2) := by
  obtain ⟨before, hbefore, rfl⟩ := List.mem_map.mp (Table.mem_of_mem_entries_ofList hmem)
  exact ⟨before, hbefore, rfl⟩

theorem normal_normal (json : Json) : json.normal.normal = json.normal := by
  induction json using induction with
  | hatom json hatom => rw [hatom.normal_eq, hatom.normal_eq]
  | harr items ih =>
      rw [normal_arr, normal_arr, List.map_map]
      exact congrArg arr (List.map_congr_left ih)
  | hobj members ih =>
      have hsame : ∀ member ∈ orderMembers (members.map (fun member => (member.1, member.2.normal))),
          member.2.normal = member.2 := by
        intro member hmem
        obtain ⟨before, hbefore, rfl⟩ := exists_of_mem_orderMembers hmem
        exact ih before hbefore
      rw [normal_obj, normal_obj, map_members_eq hsame]
      exact congrArg obj (Table.entries_ofList (keysIncrease_orderMembers _))

theorem unrepeated_normal (json : Json) : json.normal.Unrepeated := by
  induction json using induction with
  | hatom json hatom => exact hatom.normal_eq.symm ▸ .atom hatom
  | harr items ih =>
      rw [normal_arr]
      refine .arr (fun item hmem => ?_)
      obtain ⟨before, hbefore, rfl⟩ := List.mem_map.mp hmem
      exact ih before hbefore
  | hobj members ih =>
      rw [normal_obj]
      refine .obj (keysIncrease_orderMembers _).nodup_keys (fun member hmem => ?_)
      obtain ⟨before, hbefore, rfl⟩ := exists_of_mem_orderMembers hmem
      exact ih before hbefore

theorem IsDynamic.unrepeated (hdynamic : json.IsDynamic) : json.Unrepeated :=
  hdynamic.normal_eq ▸ unrepeated_normal json

/-- A value is spelled by its normal form. -/
theorem spells_normal (json : Json) : json.normal.Spells json :=
  ⟨unrepeated_normal json, normal_normal json⟩

/-- The members of an object that spell the fields of a record: what stands under each key does. -/
structure Presents (members fields : List (String × Json)) : Prop where
  distinct : (members.map (·.1)).Nodup
  under : ∀ key, Option.Rel Spells (lookupEntry key members) (lookupEntry key fields)

namespace Spells

/-- A value without parts is spelled in one way. -/
theorem eq_of_isAtom (hspells : json.Spells value) (hatom : value.IsAtom) : json = value := by
  have hnormal := hspells.normal.trans hatom.normal_eq
  rcases json.isAtom_or with hatom' | ⟨items, rfl⟩ | ⟨members, rfl⟩
  · exact hatom'.normal_eq.symm.trans hnormal
  · rw [normal_arr] at hnormal
    subst hnormal
    cases hatom
  · rw [normal_obj] at hnormal
    subst hnormal
    cases hatom

/-- An array is spelled item by item. -/
theorem exists_arr (hspells : json.Spells (.arr items)) :
    ∃ others, json = .arr others ∧ List.Forall₂ Spells others items := by
  obtain ⟨hunrepeated, hnormal⟩ := hspells
  rw [normal_arr] at hnormal
  rcases json.isAtom_or with hatom | ⟨others, rfl⟩ | ⟨members, rfl⟩
  · rw [hatom.normal_eq] at hnormal
    subst hnormal
    cases hatom
  · rw [normal_arr] at hnormal
    cases hunrepeated with
    | atom hatom => cases hatom
    | arr hitems =>
        have hsame : List.Forall₂ (fun one other => one.normal = other.normal) others items :=
          List.forall₂_map_left_iff.mp (List.forall₂_map_right_iff.mp
            (List.forall₂_eq_eq_eq ▸ arr.inj hnormal))
        exact ⟨others, rfl, ((List.forall₂_and_left _ _).mpr ⟨hitems, hsame⟩).imp
          (fun _ _ hboth => ⟨hboth.1, hboth.2⟩)⟩
  · rw [normal_obj] at hnormal
    cases hnormal

/-- An object with different keys is spelled by one whose members spell its own. -/
theorem exists_obj (hspells : json.Spells (.obj fields)) (hdistinct : (fields.map (·.1)).Nodup) :
    ∃ members, json = .obj members ∧ Presents members fields := by
  obtain ⟨hunrepeated, hnormal⟩ := hspells
  rw [normal_obj] at hnormal
  rcases json.isAtom_or with hatom | ⟨items, rfl⟩ | ⟨members, rfl⟩
  · rw [hatom.normal_eq] at hnormal
    subst hnormal
    cases hatom
  · rw [normal_arr] at hnormal
    cases hnormal
  · rw [normal_obj] at hnormal
    cases hunrepeated with
    | atom hatom => cases hatom
    | obj hdistinct' hmembers =>
        have htable := Table.ext_entries (obj.inj hnormal)
        refine ⟨members, rfl, hdistinct', fun key => ?_⟩
        have hfind : (Table.ofList _).find? key = (Table.ofList _).find? key :=
          congrArg (fun table => table.find? key) htable
        rw [Table.find?_ofList (by rwa [List.map_map]), Table.find?_ofList (by rwa [List.map_map]),
          Table.lookupEntry_map, Table.lookupEntry_map] at hfind
        cases hmember : lookupEntry key members with
        | none => 
            rw [hmember, eq_comm, Option.map_none, Option.map_eq_none_iff] at hfind
            rw [hfind]
            exact .none
        | some found => 
            rw [hmember, eq_comm, Option.map_some, Option.map_eq_some_iff] at hfind
            obtain ⟨field, hfield, hsame⟩ := hfind
            rw [hfield]
            exact .some ⟨hmembers _ (mem_of_lookupEntry hmember), hsame.symm⟩

end Spells

/-! ## Members as they are read -/

/-- The members of an object as they are written. -/
def written (members : List (String × Json)) : Members :=
  members.map (fun member => (member.1, .ofJson member.2))

theorem written_cons (member : String × Json) (rest : List (String × Json)) :
    written (member :: rest) = (member.1, .ofJson member.2) :: written rest :=
  rfl

theorem Written.ofItems_eq (items : List Json) : Written.ofItems items = items.map .ofJson := by
  induction items with
  | nil => rfl
  | cons item rest ih => rw [ofItems, ih, List.map_cons]

theorem asMembers_obj (members : List (String × Json)) :
    asMembers (.ofJson (.obj members)) = .ok (written members) := by
  rw [Written.ofJson, asMembers]
  induction members with
  | nil => rfl
  | cons member rest ih =>
      rw [Written.ofMembers, List.mapM_cons, ih]
      rfl

theorem asRecord_obj (names : List String) (members : List (String × Json)) :
    asRecord names (.ofJson (.obj members)) = .ok (written members) := by
  rw [← asMembers_obj, Written.ofJson]
  rfl

/-- Of members with different keys, those under one key are the one that is found. -/
theorem filter_written (hdistinct : (members.map (·.1)).Nodup) (field : String) :
    (written members).filter (·.1 = field) =
      ((lookupEntry field members).map (fun json => (field, .ofJson json))).toList := by
  induction members with
  | nil => rfl
  | cons member rest ih =>
      obtain ⟨hnot, hdistinct⟩ := List.nodup_cons.mp hdistinct
      rw [written_cons, List.filter_cons, lookupEntry, ih hdistinct]
      by_cases hkey : member.1 = field
      · subst hkey
        simp [lookupEntry_eq_none_iff.mpr hnot]
      · simp [hkey]

theorem member?_written (hdistinct : (members.map (·.1)).Nodup) (field : String) :
    member? (written members) field = .ok ((lookupEntry field members).map .ofJson) := by
  rw [member?, filter_written hdistinct]
  cases lookupEntry field members <;> rfl

/-! ## Readers that fit writers -/

/-- A reader gives back a value for each spelling of what is written for it. -/
def ReadsBack {α : Type} (shape : Shape α) (write : α → Json) (value : α) : Prop :=
  ∀ json : Json, json.Spells (write value) → shape (.ofJson json) = .ok value

section ReadsBack

variable {α : Type} {shape : Shape α} {write : α → Json} {found : α}

theorem readsBack_asText (text : String) : ReadsBack asText .str text := by
  intro json hspells
  rw [hspells.eq_of_isAtom trivial]
  rfl

/-- A finite number is read back; others are not written as numbers. -/
theorem readsBack_asNumber {x : Float} (hfinite : x.isFinite = true) : ReadsBack asNumber .ofFloat x := by
  intro json hspells
  rw [ofFloat, if_pos hfinite] at hspells
  rw [hspells.eq_of_isAtom trivial]
  rfl

theorem readsBack_asAny (hdynamic : value.IsDynamic) : ReadsBack asAny id value := by
  intro json hspells
  rw [asAny, Written.meaning?_ofJson]
  exact congrArg Except.ok (hspells.normal.trans hdynamic.normal_eq)

/-- Only null is written as null. -/
theorem eq_null_of_ofJson (hatom : Written.ofJson json = .atom .null) : json = .null := by
  cases json <;> cases hatom
  rfl

/-- Readings that succeed, succeed one after the other. -/
theorem mapM_eq_ok {ε β γ : Type} {read : β → Except ε γ} {items : List β} {results : List γ}
    (hall : List.Forall₂ (fun item result => read item = .ok result) items results) :
    items.mapM read = .ok results := by
  induction hall with
  | nil => rfl
  | cons hhead _ ih => 
      rw [List.mapM_cons, hhead, ih]
      rfl

namespace ReadsBack

/-- A value that may be absent, if nothing that is written for one is taken for its absence. -/
theorem asOption {value? : Option α} (hreads : ∀ found, value? = some found → ReadsBack shape write found)
    (hnull : ∀ found, value? = some found → ¬ Json.Spells .null (write found)) :
    ReadsBack (asOption shape) (ofOption write) value? := by
  intro json hspells
  cases value? with
  | none =>
      rw [hspells.eq_of_isAtom trivial]
      rfl
  | some found =>
      have hread := hreads found rfl json hspells
      unfold Json.asOption
      split
      · rename_i hatom
        obtain rfl := eq_null_of_ofJson hatom
        exact absurd hspells (hnull found rfl)
      · rw [hread]
        rfl

theorem asList {values : List α} (hreads : ∀ found ∈ values, ReadsBack shape write found) :
    ReadsBack (asList shape) (ofList write) values := by
  intro json hspells
  obtain ⟨items, rfl, hitems⟩ := hspells.exists_arr
  rw [Written.ofJson, Written.ofItems_eq]
  have hspelled : List.Forall₂ (fun found item => item.Spells (write found)) values items :=
    (List.forall₂_map_right_iff.mp hitems).flip
  have hread := ((List.forall₂_and_left _ _).mpr ⟨hreads, hspelled⟩).imp
    (fun found item hboth => hboth.1 item hboth.2)
  exact mapM_eq_ok (List.forall₂_map_left_iff.mpr hread.flip)

/-- A member is read under its key. -/
def readMember (shape : Shape α) (member : String × Written) : Except Fault (String × α) := do
  return (member.1, ← shape member.2)

/-- Members that spell entries of a table are read as entries of it. -/
theorem mapM_readMember {table : Table α} (hmembers : ∀ member ∈ members, ∃ found,
    table.find? member.1 = some found ∧ shape (.ofJson member.2) = .ok found) :
    ∃ results, (written members).mapM (readMember shape) = .ok results ∧
      results.map (·.1) = members.map (·.1) ∧ ∀ entry ∈ results, table.find? entry.1 = some entry.2 := by
  induction members with
  | nil => exact ⟨[], rfl, rfl, nofun⟩
  | cons member rest ih =>
      obtain ⟨found, hfound, hread⟩ := hmembers member List.mem_cons_self
      obtain ⟨results, hresults, hkeys, hentries⟩ :=
        ih (fun other hother => hmembers other (List.mem_cons_of_mem _ hother))
      refine ⟨(member.1, found) :: results, ?_, ?_, List.forall_mem_cons.mpr ⟨hfound, hentries⟩⟩
      · rw [written_cons, List.mapM_cons, hresults, readMember, hread]
        rfl
      · rw [List.map_cons, List.map_cons, hkeys]

theorem asTable {table : Table α} (hreads : ∀ key found, table.find? key = some found →
    ReadsBack shape write found) : ReadsBack (asTable shape) (ofTable write) table := by
  intro json hspells
  obtain ⟨members, rfl, hpresents⟩ := hspells.exists_obj (by rw [List.map_map]; exact table.nodup_keys)
  have hunder : ∀ key, Option.Rel Spells (lookupEntry key members) ((table.find? key).map write) :=
    fun key => Table.lookupEntry_map write key table.entries ▸ hpresents.under key
  have hmembers : ∀ member ∈ members, ∃ found, table.find? member.1 = some found ∧
      shape (.ofJson member.2) = .ok found := by
    intro member hmem
    have hrel := hunder member.1
    rw [lookupEntry_eq_some hpresents.distinct hmem] at hrel
    cases hfind : table.find? member.1 with
    | none =>
        rw [hfind] at hrel
        cases hrel
    | some found =>
        rw [hfind] at hrel
        cases hrel with
        | some hspells => exact ⟨found, rfl, hreads _ found hfind _ hspells⟩
  obtain ⟨results, hresults, hkeys, hentries⟩ := mapM_readMember hmembers
  have htable : Table.ofList results = table := by
    refine Table.ext_find? (fun key => ?_)
    rw [Table.find?_ofList (hkeys ▸ hpresents.distinct)]
    cases hresult : lookupEntry key results with
    | some found => exact (hentries _ (mem_of_lookupEntry hresult)).symm
    | none =>
        rw [lookupEntry_eq_none_iff, hkeys, ← lookupEntry_eq_none_iff] at hresult
        have hrel := hunder key
        rw [hresult] at hrel
        cases hfind : table.find? key with
        | none => rfl
        | some found =>
            rw [hfind] at hrel
            cases hrel
  rw [Json.asTable, asMembers_obj]
  change (written members).mapM (readMember shape) >>= _ = _
  rw [hresults]
  exact congrArg Except.ok htable

end ReadsBack

/-! ## Records -/

namespace Presents

variable (hpresents : Presents members fields)
include hpresents

/-- A field is read from the member that spells it. -/
theorem member? {field : String} (hfield : lookupEntry field fields = some value) :
    ∃ json, json.Spells value ∧ Json.member? (written members) field = .ok (some (.ofJson json)) := by
  have hunder := hpresents.under field
  rw [hfield] at hunder
  rw [member?_written hpresents.distinct]
  cases hmember : lookupEntry field members with
  | none => 
      rw [hmember] at hunder
      cases hunder
  | some json => 
      rw [hmember] at hunder
      cases hunder with
      | some hspells => exact ⟨json, hspells, rfl⟩

theorem required (field : String) (hreads : ReadsBack shape write found)
    (hfield : lookupEntry field fields = some (write found)) :
    required (written members) field shape = .ok found := by
  obtain ⟨json, hspells, hmember⟩ := hpresents.member? hfield
  rw [Json.required, hmember]
  exact hreads json hspells

theorem defaulted (field : String) (hreads : ReadsBack shape write found)
    (hfield : lookupEntry field fields = some (write found)) (default_ : α) :
    defaulted (written members) field shape default_ = .ok found := by
  obtain ⟨json, hspells, hmember⟩ := hpresents.member? hfield
  rw [Json.defaulted, hmember]
  exact hreads json hspells

/-- The kind of a tagged record is read from its member. -/
theorem asTagged (tag : String) {kind : String} (htag : lookupEntry tag fields = some (.str kind)) :
    asTagged tag (.ofJson (.obj members)) = .ok (kind, .ofJson (.obj members)) := by
  have hkind := hpresents.required tag (readsBack_asText kind) htag
  have hmembers := asMembers_obj members
  unfold Json.asTagged
  rw [asAny, Written.meaning?_ofJson]
  rw [Written.ofJson] at hmembers ⊢
  dsimp only
  rw [hmembers]
  show (do return (← Json.required (written members) tag asText, _)) = _
  rw [hkind]
  rfl

end Presents

end ReadsBack

/-! ## What is read -/

theorem exists_of_forall₂ {β γ : Type} {R : β → γ → Prop} {sources : List β} {results : List γ}
    (hall : List.Forall₂ R sources results) {result : γ} (hmem : result ∈ results) :
    ∃ source ∈ sources, R source result := by
  induction hall with
  | nil => cases hmem
  | cons hhead _ ih =>
      rcases List.mem_cons.mp hmem with rfl | hrest
      · exact ⟨_, List.mem_cons_self, hhead⟩
      · obtain ⟨source, hsource, hrel⟩ := ih hrest
        exact ⟨source, List.mem_cons_of_mem _ hsource, hrel⟩

/-- What is written is proper if its numbers fit and its arrays are no longer than a machine can
count. -/
inductive Written.IsProper : Written → Prop
  | atom {json : Json} (hdynamic : json.IsDynamic) : IsProper (.atom json)
  | meaningless : IsProper .meaningless
  | arr {items : List Written} (hlength : items.length < 2 ^ 64) (hitems : ∀ item ∈ items, item.IsProper) :
      IsProper (.arr items)
  | obj {members : List (Option String × Written)} (hmembers : ∀ member ∈ members, member.2.IsProper) :
      IsProper (.obj members)

namespace Written

variable {written : Written}

theorem ofMembers_eq (members : List (String × Json)) :
    ofMembers members = members.map (fun member => (some member.1, ofJson member.2)) := by
  induction members with
  | nil => rfl
  | cons member rest ih => rw [ofMembers, ih, List.map_cons]

/-- A dynamic value is written properly. -/
theorem isProper_ofJson (hdynamic : json.IsDynamic) : (ofJson json).IsProper := by
  induction hdynamic with
  | null => exact .atom .null
  | bool b => exact .atom (.bool b)
  | int hlow hhigh => exact .atom (.int hlow hhigh)
  | float hfinite => exact .atom (.float hfinite)
  | str s => exact .atom (.str s)
  | arr hlength _ ih =>
      rw [ofJson, ofItems_eq]
      refine .arr (by rwa [List.length_map]) (fun item hmem => ?_)
      obtain ⟨before, hbefore, rfl⟩ := List.mem_map.mp hmem
      exact ih before hbefore
  | obj _ _ ih =>
      rw [ofJson, ofMembers_eq]
      refine .obj (fun member hmem => ?_)
      obtain ⟨before, hbefore, rfl⟩ := List.mem_map.mp hmem
      exact ih before hbefore

theorem forall₂_of_itemMeanings? {items : List Written} {values : List Json}
    (hmeanings : itemMeanings? items = some values) :
    List.Forall₂ (fun item value => item.meaning? = some value) items values := by
  induction items generalizing values with
  | nil =>
      obtain rfl := Option.some.inj hmeanings
      exact .nil
  | cons item rest ih =>
      simp only [itemMeanings?, Option.bind_eq_bind, Option.bind_eq_some_iff, Option.pure_def] at hmeanings
      obtain ⟨value, hvalue, more, hmore, hvalues⟩ := hmeanings
      obtain rfl := Option.some.inj hvalues
      exact .cons hvalue (ih hmore)

theorem forall₂_of_memberMeanings? {members : List (Option String × Written)}
    {values : List (String × Json)} (hmeanings : memberMeanings? members = some values) :
    List.Forall₂ (fun member value => member.2.meaning? = some value.2) members values := by
  induction members generalizing values with
  | nil =>
      obtain rfl := Option.some.inj hmeanings
      exact .nil
  | cons member rest ih =>
      simp only [memberMeanings?, Option.bind_eq_bind, Option.bind_eq_some_iff, Option.pure_def] at hmeanings
      obtain ⟨key, hkey, value, hvalue, more, hmore, hvalues⟩ := hmeanings
      obtain rfl := Option.some.inj hvalues
      exact .cons hvalue (ih hmore)

/-- What is properly written means a dynamic value, once its members stand in order. -/
theorem IsProper.isDynamic (hproper : written.IsProper) (hmeaning : written.meaning? = some json) :
    json.normal.IsDynamic := by
  induction hproper generalizing json with
  | atom hdynamic =>
      obtain rfl := Option.some.inj hmeaning
      rwa [hdynamic.normal_eq]
  | meaningless => cases hmeaning
  | @arr items hlength _ ih =>
      obtain ⟨values, hvalues, hjson⟩ := Option.bind_eq_some_iff.mp hmeaning
      obtain rfl := Option.some.inj hjson
      have hmeanings := forall₂_of_itemMeanings? hvalues
      rw [normal_arr]
      refine .arr ?_ ?_
      · rwa [List.length_map, ← hmeanings.length_eq]
      · intro item hmem
        obtain ⟨value, hvalue, rfl⟩ := List.mem_map.mp hmem
        obtain ⟨source, hsource, hmeaning⟩ := exists_of_forall₂ hmeanings hvalue
        exact ih source hsource hmeaning
  | @obj members _ ih =>
      obtain ⟨values, hvalues, hjson⟩ := Option.bind_eq_some_iff.mp hmeaning
      obtain rfl := Option.some.inj hjson
      have hmeanings := forall₂_of_memberMeanings? hvalues
      rw [normal_obj]
      refine .obj (keysIncrease_orderMembers _) (fun member hmem => ?_)
      obtain ⟨value, hvalue, rfl⟩ := exists_of_mem_orderMembers hmem
      obtain ⟨source, hsource, hmeaning⟩ := exists_of_forall₂ hmeanings hvalue
      exact ih source hsource hmeaning

end Written

/-- A reader gives only values of some kind for what is properly written. -/
def Yields {α : Type} (shape : Shape α) (sound : α → Prop) : Prop :=
  ∀ written value, written.IsProper → shape written = .ok value → sound value

/-- All members are properly written. -/
def AllProper (members : Members) : Prop :=
  ∀ member ∈ members, member.2.IsProper

section Yields

variable {α : Type} {shape : Shape α} {sound : α → Prop} {written : Written} {read : Members}

theorem yields_asAny : Yields asAny IsDynamic := by
  intro written value hproper hread
  unfold asAny at hread
  split at hread
  · rename_i meant hmeaning
    obtain rfl := Except.ok.inj hread
    exact hproper.isDynamic hmeaning
  · cases hread

theorem yields_asNumber : Yields asNumber (fun x => x.isFinite = true) := by
  intro written value hproper hread
  cases hproper with
  | @atom json hdynamic =>
      cases hdynamic with
      | int hlow hhigh =>
          obtain rfl := Except.ok.inj hread
          exact Double.isFinite_ofInt hlow hhigh
      | float hfinite =>
          obtain rfl := Except.ok.inj hread
          exact hfinite
      | _ => cases hread
  | _ => cases hread

/-- What is read in a row is read one by one. -/
theorem forall₂_of_mapM {ε β γ : Type} {f : β → Except ε γ} {sources : List β} {results : List γ}
    (hread : sources.mapM f = .ok results) :
    List.Forall₂ (fun source result => f source = .ok result) sources results := by
  induction sources generalizing results with
  | nil =>
      obtain rfl := Except.ok.inj hread
      exact .nil
  | cons source rest ih =>
      rw [List.mapM_cons] at hread
      obtain ⟨result, hresult, hrest⟩ := bind_eq_ok_iff.mp hread
      obtain ⟨more, hmore, hresults⟩ := bind_eq_ok_iff.mp hrest
      obtain rfl := Except.ok.inj hresults
      exact .cons hresult (ih hmore)

theorem Yields.asList (hyields : Yields shape sound) :
    Yields (asList shape) (fun values => ∀ value ∈ values, sound value) := by
  intro written values hproper hread value hmem
  cases hproper with
  | arr _ hitems =>
      obtain ⟨source, hsource, hvalue⟩ := exists_of_forall₂ (forall₂_of_mapM hread) hmem
      exact hyields source value (hitems source hsource) hvalue
  | _ => cases hread

theorem allProper_asMembers (hproper : written.IsProper) (hread : asMembers written = .ok read) :
    AllProper read := by
  intro member hmem
  cases hproper with
  | obj hmembers =>
      obtain ⟨source, hsource, hmember⟩ := exists_of_forall₂ (forall₂_of_mapM hread) hmem
      split at hmember
      · obtain rfl := Except.ok.inj hmember
        exact hmembers source hsource
      · cases hmember
  | _ => cases hread

theorem allProper_asRecord {names : List String} (hproper : written.IsProper)
    (hread : asRecord names written = .ok read) : AllProper read := by
  unfold asRecord at hread
  split at hread
  · split at hread
    · obtain rfl := Except.ok.inj hread
      cases hproper with
      | arr _ hitems => exact fun member hmem => hitems member.2 (List.of_mem_zip hmem).2
    · cases hread
  · exact allProper_asMembers hproper hread

/-- A member that is found is properly written. -/
theorem AllProper.member? (hproper : AllProper read) {field : String}
    (hfound : member? read field = .ok (some written)) : written.IsProper := by
  unfold Json.member? at hfound
  split at hfound
  · cases hfound
  · rename_i found honly
    obtain rfl := Option.some.inj (Except.ok.inj hfound)
    have hmem : found ∈ read.filter (·.1 = field) := honly ▸ List.mem_singleton_self found
    exact hproper found (List.mem_filter.mp hmem).1
  · cases hfound

theorem AllProper.required (hproper : AllProper read) (hyields : Yields shape sound) {field : String}
    {value : α} (hread : required read field shape = .ok value) : sound value := by
  obtain ⟨found, hfound, hvalue⟩ := bind_eq_ok_iff.mp hread
  cases found with
  | none => cases hvalue
  | some written => exact hyields written value (hproper.member? hfound) hvalue

theorem AllProper.defaulted (hproper : AllProper read) (hyields : Yields shape sound) {field : String}
    {value default_ : α} (hdefault : sound default_)
    (hread : defaulted read field shape default_ = .ok value) : sound value := by
  obtain ⟨found, hfound, hvalue⟩ := bind_eq_ok_iff.mp hread
  cases found with
  | none =>
      obtain rfl := Except.ok.inj hvalue
      exact hdefault
  | some written => exact hyields written value (hproper.member? hfound) hvalue

/-- What belongs to a kind is properly written if all is. -/
theorem isProper_asTagged {tag kind : String} {content : Written} (hproper : written.IsProper)
    (hread : asTagged tag written = .ok (kind, content)) : content.IsProper := by
  obtain ⟨_, -, hcontent⟩ := bind_eq_ok_iff.mp hread
  split at hcontent
  · obtain ⟨_, -, hkind⟩ := bind_eq_ok_iff.mp hcontent
    cases hkind
    cases hproper with
    | arr hlength hitems =>
        exact .arr (Nat.lt_of_succ_lt hlength) (fun item hmem => hitems item (List.mem_cons_of_mem _ hmem))
  · cases hcontent
  · obtain ⟨_, -, hcontent⟩ := bind_eq_ok_iff.mp hcontent
    obtain ⟨_, -, hkind⟩ := bind_eq_ok_iff.mp hcontent
    cases hkind
    exact hproper

theorem Yields.asTable (hyields : Yields shape sound) :
    Yields (asTable shape) (fun table => ∀ key value, table.find? key = some value → sound value) := by
  intro written table hproper hread key value hfind
  obtain ⟨members, hmembers, hread⟩ := bind_eq_ok_iff.mp hread
  obtain ⟨results, hresults, htable⟩ := bind_eq_ok_iff.mp hread
  obtain rfl := Except.ok.inj htable
  have hmem : (key, value) ∈ results := Table.mem_of_mem_entries_ofList (mem_of_lookupEntry hfind)
  obtain ⟨member, hmember, hresult⟩ := exists_of_forall₂ (forall₂_of_mapM hresults) hmem
  obtain ⟨found, hfound, hentry⟩ := bind_eq_ok_iff.mp hresult
  obtain ⟨-, rfl⟩ := Prod.mk.inj (Except.ok.inj hentry)
  exact hyields member.2 _ (allProper_asMembers hproper hmembers member hmember) hfound

end Yields

end Linkage.Json
