import Linkage.Config
import Linkage.Proofs.Documents.Descriptors

/-!
# Merging a file into a configuration

A file is laid over the members of a configuration entry by entry, and the whole is read again before
anything is changed.  What a setting becomes depends on the entries for this setting alone: on the last
of them in key order, if there is one.  So a merge is done in full or not at all, and doing it again
changes nothing.

* `Config.Spells` : the keys under which a file may give a setting.
* `Config.Takes`, `Config.Merges` : what a file makes of one setting, and of a configuration.
* `Config.overlay_eq_ok` : laying entries over members, as a whole.
* `Config.mergeText_eq_ok_iff` : when a text can be merged, and into what.
* `Config.merging_is_all_or_nothing` : all of it, for a change in place.
-/

namespace Linkage

open Json (Shape ReadsBack asText asAny asList asTable)

/-- To say an error in another way changes nothing for what succeeds. -/
theorem mapError_eq_ok_iff {ε ε' α : Type} {say : ε → ε'} {result : Except ε α} {value : α} :
    result.mapError say = .ok value ↔ result = .ok value := by
  cases result with
  | ok found => exact ⟨fun hsame => congrArg Except.ok (Except.ok.inj hsame),
      fun hsame => congrArg Except.ok (Except.ok.inj hsame)⟩
  | error error => exact iff_of_false nofun nofun

/-! ## Members replaced -/

namespace Config

variable {key field : String} {value : Json} {entries members members' : List (String × Json)}

theorem overrideMember?_eq_none_iff :
    overrideMember? key value members = none ↔ key ∉ members.map (·.1) := by
  induction members with
  | nil => simp [overrideMember?]
  | cons member rest ih =>
      rw [overrideMember?, List.map_cons, List.mem_cons, not_or]
      split
      · rename_i hkey
        simp [hkey]
      · rename_i hkey
        rw [Option.map_eq_none_iff, ih]
        exact (and_iff_right (Ne.symm hkey)).symm

/-- The keys of the members stay as they are. -/
theorem keys_overrideMember? (hoverride : overrideMember? key value members = some members') :
    members'.map (·.1) = members.map (·.1) := by
  induction members generalizing members' with
  | nil => cases hoverride
  | cons member rest ih =>
      rw [overrideMember?] at hoverride
      split at hoverride
      · rename_i hkey
        obtain rfl := Option.some.inj hoverride
        rw [List.map_cons, List.map_cons, hkey]
      · obtain ⟨rest', hrest, rfl⟩ := Option.map_eq_some_iff.mp hoverride
        rw [List.map_cons, List.map_cons, ih hrest]

theorem lookupEntry_overrideMember? (hoverride : overrideMember? key value members = some members')
    (field : String) :
    lookupEntry field members' = if key = field then some value else lookupEntry field members := by
  induction members generalizing members' with
  | nil => cases hoverride
  | cons member rest ih =>
      rw [overrideMember?] at hoverride
      split at hoverride
      · rename_i hkey
        obtain rfl := Option.some.inj hoverride
        rw [lookupEntry, lookupEntry, hkey]
        split <;> rfl
      · rename_i hkey
        obtain ⟨rest', hrest, rfl⟩ := Option.map_eq_some_iff.mp hoverride
        rw [lookupEntry, lookupEntry, ih hrest]
        by_cases hfield : member.1 = field
        · rw [if_pos hfield, if_pos hfield, if_neg (fun hsame => hkey (hfield.trans hsame.symm))]
        · rw [if_neg hfield, if_neg hfield]

/-! ## Entries laid over members -/

/-- The name of the setting that an entry is for. -/
def nameOf (entry : String × Json) : String := Text.substitute '-' '_' entry.1

/-- What the last of the entries for a setting gives. -/
def lastFor? (field : String) (entries : List (String × Json)) : Option Json :=
  (entries.filter (nameOf · = field)).getLast?.map (·.2)

theorem lastFor?_cons (field : String) (entry : String × Json) (entries : List (String × Json)) :
    lastFor? field (entry :: entries) =
      (lastFor? field entries).or (if nameOf entry = field then some entry.2 else none) := by
  unfold lastFor?
  rw [List.filter_cons]
  by_cases hname : nameOf entry = field
  · rw [if_pos (decide_eq_true hname), if_pos hname, List.getLast?_cons]
    cases (entries.filter (nameOf · = field)).getLast? <;> rfl
  · rw [if_neg (by simpa using hname), if_neg hname, Option.or_none]

theorem overlayEntry_eq_ok_iff {entry : String × Json} :
    overlayEntry members entry = .ok members' ↔
      overrideMember? (nameOf entry) entry.2 members = some members' := by
  unfold overlayEntry nameOf
  dsimp only
  cases overrideMember? (Text.substitute '-' '_' entry.1) entry.2 members with
  | none => exact iff_of_false nofun nofun
  | some found => exact ⟨fun hok => congrArg some (Except.ok.inj hok),
      fun hfound => congrArg Except.ok (Option.some.inj hfound)⟩

/-- An entry cannot be laid over members when there is none of its name. -/
theorem fails_overlayEntry_iff {entry : String × Json} :
    Fails (overlayEntry members entry) ↔ nameOf entry ∉ members.map (·.1) := by
  rw [← @overrideMember?_eq_none_iff (nameOf entry) entry.2 members]
  cases hfound : overrideMember? (nameOf entry) entry.2 members with
  | none =>
      refine iff_of_true ?_ rfl
      cases hended : overlayEntry members entry with
      | error error => exact ⟨error, rfl⟩
      | ok found => cases hfound.symm.trans (overlayEntry_eq_ok_iff.mp hended)
  | some found =>
      rw [overlayEntry_eq_ok_iff.mpr hfound]
      exact iff_of_false (not_fails_ok found) nofun

/-- Entries of names that are there can be laid over members, and others cannot. -/
theorem fails_overlay_iff :
    Fails (entries.foldlM overlayEntry members) ↔
      ∃ entry ∈ entries, nameOf entry ∉ members.map (·.1) := by
  refine fails_foldlM_iff (fun laid => laid.map (·.1) = members.map (·.1)) _ rfl ?_ ?_
  · intro entry _ laid hkeys
    rw [fails_overlayEntry_iff, hkeys]
  · intro entry _ laid laid' hkeys hstep
    exact (keys_overrideMember? (overlayEntry_eq_ok_iff.mp hstep)).trans hkeys

/-- Once entries have been laid over members, the last one for each name stands under it. -/
theorem overlay_eq_ok (hoverlay : entries.foldlM overlayEntry members = .ok members') :
    members'.map (·.1) = members.map (·.1) ∧
      ∀ field, lookupEntry field members' = (lastFor? field entries).or (lookupEntry field members) := by
  induction entries generalizing members with
  | nil =>
      obtain rfl := Except.ok.inj hoverlay
      exact ⟨rfl, fun _ => rfl⟩
  | cons entry rest ih =>
      rw [List.foldlM_cons] at hoverlay
      obtain ⟨laid, hentry, hrest⟩ := bind_eq_ok_iff.mp hoverlay
      rw [overlayEntry_eq_ok_iff] at hentry
      obtain ⟨hkeys, hlookup⟩ := ih hrest
      refine ⟨hkeys.trans (keys_overrideMember? hentry), fun field => ?_⟩
      rw [hlookup, lookupEntry_overrideMember? hentry, lastFor?_cons, Option.or_assoc]
      split <;> rfl

/-! ## What a file says -/

/-- A key stands for a setting when it is its name, but for hyphens in the place of underscores. -/
def Spells (key field : String) : Prop :=
  List.Forall₂ (fun c d => c = d ∨ c = '-' ∧ d = '_') key.toList field.toList

/-- What a file makes of a setting: what the last entry for it in key order is read as, or what it has
been if there is no entry for it. -/
inductive Takes {α : Type} (entries : List (String × Json)) (field : String) (shape : Shape α)
    (before : α) : α → Prop
  | given {key : String} {value : Json} {after : α} (hentry : (key, value) ∈ entries)
      (hspells : Spells key field)
      (hlast : ∀ entry ∈ entries, Spells entry.1 field → entry.1 ≤ key)
      (hread : shape (.ofJson value) = .ok after) : Takes entries field shape before after
  | kept (hnone : ∀ entry ∈ entries, ¬ Spells entry.1 field) :
      Takes entries field shape before before

/-- What a file makes of a configuration, setting by setting. -/
structure Overlaid (entries : List (String × Json)) (before after : Config) : Prop where
  baseDir : Takes entries "base_dir" asText before.baseDir after.baseDir
  extensions : Takes entries "extensions" (asList asText) before.extensions after.extensions
  indexName : Takes entries "index_name" asText before.indexName after.indexName
  formatByExtension : Takes entries "format_by_extension" (asTable Format.ofJson)
    before.formatByExtension after.formatByExtension
  defaultFormat : Takes entries "default_format" Format.ofJson before.defaultFormat after.defaultFormat

/-- A file that can be merged, and what it makes of a configuration: it can be read, holds a JSON
object, and each of its keys stands for a setting. -/
inductive Merges (content : Except ModuleError String) (before after : Config) : Prop
  | intro {text : String} {entries : List (String × Json)} (hcontent : content = .ok text)
      (hobject : Json.readAs asAny text = .ok (.obj entries))
      (hknown : ∀ entry ∈ entries, ∃ field ∈ fields, Spells entry.1 field)
      (hoverlaid : Overlaid entries before after)

/-- A name without hyphens is spelled by the keys that become it when hyphens become underscores. -/
theorem spells_iff (hfield : '-' ∉ field.toList) :
    Spells key field ↔ Text.substitute '-' '_' key = field := by
  unfold Spells Text.substitute
  rw [← String.toList_inj, String.toList_ofList]
  generalize field.toList = ds at hfield
  induction key.toList generalizing ds with
  | nil => cases ds <;> simp
  | cons c rest ih =>
      cases ds with
      | nil => simp
      | cons d more =>
          rw [List.mem_cons, not_or] at hfield
          rw [List.forall₂_cons, ih more hfield.2, List.map_cons, List.cons.injEq]
          refine and_congr_left' ?_
          split
          · rename_i hhyphen
            subst hhyphen
            exact ⟨fun hsame => hsame.elim (fun heq => absurd heq hfield.1) (fun hboth => hboth.2.symm),
              fun heq => .inr ⟨rfl, heq.symm⟩⟩
          · rename_i hother
            exact or_iff_left (fun hboth => hother hboth.1)

/-- In key order, the last entry for a setting is the one whose key comes last. -/
theorem takes_iff {α : Type} {shape : Shape α} {before after : α} (hordered : KeysIncrease entries)
    (hfield : '-' ∉ field.toList) :
    Takes entries field shape before after ↔
      match lastFor? field entries with
      | none => after = before
      | some value => shape (.ofJson value) = .ok after := by
  have hspelled : ∀ entry : String × Json,
      entry ∈ entries.filter (nameOf · = field) ↔ entry ∈ entries ∧ Spells entry.1 field := fun entry => by
    rw [List.mem_filter, decide_eq_true_iff, spells_iff hfield]
    rfl
  have hmost := hordered.filter (nameOf · = field)
  unfold lastFor?
  rcases (entries.filter (nameOf · = field)).eq_nil_or_concat' with hnil | ⟨front, last, hconcat⟩
  · rw [hnil] at hspelled ⊢
    have hnone : ∀ entry ∈ entries, ¬ Spells entry.1 field := fun entry hentry hspells =>
      List.not_mem_nil ((hspelled entry).mpr ⟨hentry, hspells⟩)
    constructor
    · intro htakes
      cases htakes with
      | given hentry hspells => exact absurd hspells (hnone _ hentry)
      | kept => rfl
    · rintro rfl
      exact .kept hnone
  · rw [hconcat] at hspelled hmost ⊢
    rw [List.getLast?_concat]
    obtain ⟨hlastmem, hlastspells⟩ := (hspelled last).mp (by simp)
    have hbelow : ∀ entry ∈ front, entry.1 < last.1 := fun entry hentry =>
      (List.pairwise_append.mp hmost).2.2 entry hentry last (List.mem_singleton_self last)
    have hlast : ∀ entry ∈ entries, Spells entry.1 field → entry.1 ≤ last.1 := by
      intro entry hentry hspells
      rcases List.mem_append.mp ((hspelled entry).mpr ⟨hentry, hspells⟩) with hfront | hself
      · exact Std.le_of_lt (hbelow entry hfront)
      · exact List.mem_singleton.mp hself ▸ Std.le_refl last.1
    constructor
    · intro htakes
      cases htakes with
      | @given key value _ hentry hspells hmax hread =>
          rcases List.mem_append.mp ((hspelled _).mpr ⟨hentry, hspells⟩) with hfront | hself
          · exact absurd (hbelow _ hfront) (Std.not_lt.mpr (hmax last hlastmem hlastspells))
          · exact List.mem_singleton.mp hself ▸ hread
      | kept hnone => exact absurd hlastspells (hnone last hlastmem)
    · exact fun hread => .given hlastmem hlastspells hlast hread

/-! ## The merged configuration -/

variable {config after : Config} {content : Except ModuleError String} {text : String}

/-- A setting is read from the members on which a file has been laid as the file says. -/
theorem defaulted_iff_takes {α : Type} {shape : Shape α} {write : α → Json} {before after default_ : α}
    (hdistinct : (members.map (·.1)).Nodup) (hordered : KeysIncrease entries)
    (hfield : '-' ∉ field.toList) (hreads : ReadsBack shape write before)
    (hwritten : (write before).Unrepeated)
    (hlookup : lookupEntry field members = (lastFor? field entries).or (some (write before))) :
    Json.defaulted (Json.written members) field shape default_ = .ok after ↔
      Takes entries field shape before after := by
  rw [takes_iff hordered hfield, Json.defaulted, Json.member?_written hdistinct, hlookup]
  cases lastFor? field entries with
  | some value => rfl
  | none =>
      have hback : shape (.ofJson (write before)) = .ok before := hreads _ ⟨hwritten, rfl⟩
      change shape (.ofJson (write before)) = .ok after ↔ after = before
      rw [hback]
      exact ⟨fun hsame => (Except.ok.inj hsame).symm, fun hsame => congrArg Except.ok hsame.symm⟩

theorem nodup_keys_members (config : Config) : (config.members.map (·.1)).Nodup := by
  simp [Config.members]

/-- The members on which a file has been laid are read as the configuration that the file makes. -/
theorem ofJson_iff_overlaid (hordered : KeysIncrease entries)
    (hoverlay : entries.foldlM overlayEntry config.members = .ok members) :
    ofJson (.ofJson (.obj members)) = .ok after ↔ Overlaid entries config after := by
  obtain ⟨hkeys, hlookup⟩ := overlay_eq_ok hoverlay
  have hdistinct : (members.map (·.1)).Nodup := hkeys ▸ config.nodup_keys_members
  have htexts : ∀ texts : List String, ReadsBack (asList asText) (Json.ofList .str) texts :=
    fun texts => .asList (fun text _ => Json.readsBack_asText text)
  have hformats : ∀ table : Table Format,
      ReadsBack (asTable Format.ofJson) (Json.ofTable Format.toJson) table :=
    fun table => .asTable (fun _ format _ => format.readsBack)
  -- one equivalence for each setting, in the order in which they are read
  have hbaseDir : ∀ found,
      Json.defaulted (Json.written members) "base_dir" asText standard.baseDir = .ok found ↔
        Takes entries "base_dir" asText config.baseDir found := fun _ =>
    defaulted_iff_takes hdistinct hordered (by decide) (Json.readsBack_asText config.baseDir)
      (Json.unrepeated_str _) (hlookup "base_dir")
  have hextensions : ∀ found,
      Json.defaulted (Json.written members) "extensions" (asList asText) standard.extensions = .ok found ↔
        Takes entries "extensions" (asList asText) config.extensions found := fun _ =>
    defaulted_iff_takes hdistinct hordered (by decide) (htexts config.extensions)
      (Json.unrepeated_ofList (fun text _ => Json.unrepeated_str text)) (hlookup "extensions")
  have hindexName : ∀ found,
      Json.defaulted (Json.written members) "index_name" asText standard.indexName = .ok found ↔
        Takes entries "index_name" asText config.indexName found := fun _ =>
    defaulted_iff_takes hdistinct hordered (by decide) (Json.readsBack_asText config.indexName)
      (Json.unrepeated_str _) (hlookup "index_name")
  have hformatByExtension : ∀ found,
      Json.defaulted (Json.written members) "format_by_extension" (asTable Format.ofJson)
          standard.formatByExtension = .ok found ↔
        Takes entries "format_by_extension" (asTable Format.ofJson) config.formatByExtension found :=
    fun _ => defaulted_iff_takes hdistinct hordered (by decide) (hformats config.formatByExtension)
      (Json.unrepeated_ofTable (fun _ format _ => Json.unrepeated_str format.name))
      (hlookup "format_by_extension")
  have hdefaultFormat : ∀ found,
      Json.defaulted (Json.written members) "default_format" Format.ofJson standard.defaultFormat =
          .ok found ↔
        Takes entries "default_format" Format.ofJson config.defaultFormat found := fun _ =>
    defaulted_iff_takes hdistinct hordered (by decide) config.defaultFormat.readsBack
      (Json.unrepeated_str _) (hlookup "default_format")
  constructor
  · intro hread
    obtain ⟨found, hfound, hread⟩ := bind_eq_ok_iff.mp hread
    rw [Json.asRecord_obj] at hfound
    obtain rfl := Except.ok.inj hfound
    obtain ⟨baseDir, hbase, hread⟩ := bind_eq_ok_iff.mp hread
    obtain ⟨extensions, hext, hread⟩ := bind_eq_ok_iff.mp hread
    obtain ⟨indexName, hindex, hread⟩ := bind_eq_ok_iff.mp hread
    obtain ⟨formatByExtension, hformat, hread⟩ := bind_eq_ok_iff.mp hread
    obtain ⟨defaultFormat, hdefault, hread⟩ := bind_eq_ok_iff.mp hread
    obtain rfl := Except.ok.inj hread
    exact ⟨(hbaseDir _).mp hbase, (hextensions _).mp hext, (hindexName _).mp hindex,
      (hformatByExtension _).mp hformat, (hdefaultFormat _).mp hdefault⟩
  · rintro ⟨hbase, hext, hindex, hformat, hdefault⟩
    refine bind_eq_ok (Json.asRecord_obj _ members) (bind_eq_ok ((hbaseDir _).mpr hbase) ?_)
    refine bind_eq_ok ((hextensions _).mpr hext) (bind_eq_ok ((hindexName _).mpr hindex) ?_)
    exact bind_eq_ok ((hformatByExtension _).mpr hformat) (bind_eq_ok ((hdefaultFormat _).mpr hdefault) rfl)

theorem entriesOfText_eq_ok_iff :
    entriesOfText text = .ok entries ↔ Json.readAs asAny text = .ok (.obj entries) := by
  unfold entriesOfText
  split
  · rename_i found hread
    rw [hread]
    exact ⟨fun hok => congrArg (Except.ok ∘ Json.obj) (Except.ok.inj hok),
      fun hok => congrArg Except.ok (Json.obj.inj (Except.ok.inj hok))⟩
  · rename_i hother hread
    rw [hread]
    exact iff_of_false nofun (fun hok => hother _ (Except.ok.inj hok))
  · rename_i hread
    rw [hread]
    exact iff_of_false nofun nofun

/-- The entries of a text stand in key order. -/
theorem keysIncrease_of_readAs (hobject : Json.readAs asAny text = .ok (.obj entries)) :
    KeysIncrease entries := by
  obtain ⟨written, -, hread⟩ := bind_eq_ok_iff.mp hobject
  split at hread
  · rename_i json hany
    obtain rfl := Except.ok.inj hread
    unfold asAny at hany
    split at hany
    · rename_i meant _
      have hnormal : meant.normal = .obj entries := Except.ok.inj hany
      rcases meant.isAtom_or with hatom | ⟨items, rfl⟩ | ⟨found, rfl⟩
      · rw [hatom.normal_eq] at hnormal
        subst hnormal
        cases hatom
      · rw [Json.normal_arr] at hnormal
        cases hnormal
      · rw [Json.normal_obj] at hnormal
        exact Json.obj.inj hnormal ▸ Json.keysIncrease_orderMembers _
    · cases hany
  · cases hread

/-- The keys of entries stand for settings when their names are those of members. -/
theorem exists_spells_iff {entry : String × Json} :
    (∃ field ∈ fields, Spells entry.1 field) ↔ nameOf entry ∈ config.members.map (·.1) := by
  have hfields : config.members.map (·.1) = fields := rfl
  have hhyphens : ∀ field ∈ fields, '-' ∉ field.toList := by decide
  rw [hfields]
  constructor
  · rintro ⟨field, hfield, hspells⟩
    rw [spells_iff (hhyphens field hfield)] at hspells
    show Text.substitute '-' '_' entry.1 ∈ fields
    rwa [hspells]
  · intro hname
    exact ⟨nameOf entry, hname, (spells_iff (hhyphens _ hname)).mpr rfl⟩

/-- A text is merged into what a file with this text makes of the configuration, if it can be. -/
theorem mergeText_eq_ok_iff : config.mergeText text = .ok after ↔ Merges (.ok text) config after := by
  constructor
  · intro hmerge
    obtain ⟨entries, hentries, hmerge⟩ := bind_eq_ok_iff.mp hmerge
    obtain ⟨members, hoverlay, hmerge⟩ := bind_eq_ok_iff.mp hmerge
    have hobject := entriesOfText_eq_ok_iff.mp hentries
    refine .intro rfl hobject (fun entry hentry => ?_)
      ((ofJson_iff_overlaid (keysIncrease_of_readAs hobject) hoverlay).mp (mapError_eq_ok_iff.mp hmerge))
    by_contra hunknown
    have hfails : Fails (entries.foldlM overlayEntry config.members) :=
      fails_overlay_iff.mpr ⟨entry, hentry, fun hname => hunknown (exists_spells_iff.mpr hname)⟩
    exact not_fails_ok members (hoverlay ▸ hfails)
  · rintro ⟨hcontent, hobject, hknown, hoverlaid⟩
    rename_i entries
    obtain rfl := Except.ok.inj hcontent
    cases hoverlay : entries.foldlM overlayEntry config.members with
    | error error =>
        obtain ⟨entry, hentry, hunknown⟩ := fails_overlay_iff.mp ⟨error, hoverlay⟩
        exact absurd (exists_spells_iff.mp (hknown entry hentry)) hunknown
    | ok members =>
        have hread := (ofJson_iff_overlaid (keysIncrease_of_readAs hobject) hoverlay).mpr hoverlaid
        exact bind_eq_ok (entriesOfText_eq_ok_iff.mpr hobject)
          (bind_eq_ok hoverlay (mapError_eq_ok_iff.mpr hread))

/-! ## Merging in place -/

/-- A merge in place: nothing is changed before the merged configuration has been read. -/
theorem mergeFile_eq (content : Except ModuleError String) (config : Config) :
    mergeFile content config = match content >>= config.mergeText with
      | .ok merged => (.ok (), merged)
      | .error error => (.error error, config) := by
  cases content with
  | error error => rfl
  | ok text =>
      have hrun : mergeFile (.ok text) config = ((do
          let merged ← (liftM (config.mergeText text) : Change Config)
          modify (fun _ => merged)) : Change Unit) config := rfl
      have hbind : (Except.ok text >>= config.mergeText) = config.mergeText text := rfl
      rw [hrun, hbind]
      cases config.mergeText text <;> rfl

theorem mergeFile_eq_ok_iff :
    mergeFile content config = (.ok (), after) ↔ Merges content config after := by
  have hmerges : content >>= config.mergeText = .ok after ↔ Merges content config after := by
    rw [bind_eq_ok_iff]
    constructor
    · rintro ⟨text, rfl, hmerge⟩
      exact mergeText_eq_ok_iff.mp hmerge
    · rintro ⟨rfl, hobject, hknown, hoverlaid⟩
      exact ⟨_, rfl, mergeText_eq_ok_iff.mpr (.intro rfl hobject hknown hoverlaid)⟩
  rw [mergeFile_eq, ← hmerges]
  cases content >>= config.mergeText with
  | ok merged => exact ⟨fun hsame => congrArg Except.ok (Prod.mk.inj hsame).2,
      fun hsame => congrArg (Prod.mk (Except.ok ())) (Except.ok.inj hsame)⟩
  | error error => exact iff_of_false nofun nofun

/-- A setting that a file gives, or leaves as it is, is not changed when the file is merged again. -/
theorem Takes.again {α : Type} {shape : Shape α} {before after : α}
    (htakes : Takes entries field shape before after) : Takes entries field shape after after := by
  cases htakes with
  | given hentry hspells hlast hread => exact .given hentry hspells hlast hread
  | kept hnone => exact .kept hnone

theorem Merges.again (hmerges : Merges content config after) : Merges content after after := by
  obtain ⟨hcontent, hobject, hknown, hoverlaid⟩ := hmerges
  exact .intro hcontent hobject hknown ⟨hoverlaid.baseDir.again, hoverlaid.extensions.again,
    hoverlaid.indexName.again, hoverlaid.formatByExtension.again, hoverlaid.defaultFormat.again⟩

/-- **A merge is done in full or not at all.**  A file is merged exactly when it can be read, holds a
JSON object, has keys for settings only, and gives each setting a value that can be read; then each
setting is what the last entry for it gives, and is as it was if there is none, and merging the file
again changes nothing.  Otherwise the configuration stays as it was. -/
theorem merging_is_all_or_nothing (config : Config) (content : Except ModuleError String) :
    (∀ after, mergeFile content config = (.ok (), after) ↔ Merges content config after) ∧
    (∀ error after, mergeFile content config = (.error error, after) →
      after = config ∧ ∀ merged, ¬ Merges content config merged) ∧
    ∀ after, Merges content config after → mergeFile content after = (.ok (), after) := by
  refine ⟨fun after => mergeFile_eq_ok_iff, fun error after hfailed => ⟨?_, fun merged hmerges => ?_⟩,
    fun after hmerges => mergeFile_eq_ok_iff.mpr hmerges.again⟩
  · rw [mergeFile_eq] at hfailed
    cases hended : content >>= config.mergeText with
    | ok merged =>
        rw [hended] at hfailed
        cases hfailed
    | error found =>
        rw [hended] at hfailed
        exact (Prod.mk.inj hfailed).2.symm
  · cases hfailed.symm.trans (mergeFile_eq_ok_iff.mpr hmerges)

end Config

end Linkage
