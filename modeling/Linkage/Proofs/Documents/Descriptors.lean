import Linkage.Proofs.Documents.Shapes
import Linkage.Source.Document

/-!
# Documents are read back

What is written for a source, or for a manifest, is read as what it was written for, in whatever order
the members stand; and what is read can be written.  So a document of any other form, with fields left
out, fields that are not known, another name for a format or a record as an array, is read as the
source that its written form is read as.

* `Statement.readsBack`, `Descriptor.readsBack`, `Manifest.readsBack` and their like : reading what is
  written.
* `Statement.yields`, `Descriptor.yields`, `Manifest.yields` : values that are carried are dynamic
  values, and amounts are finite, in all that is read.
* `Descriptor.unrepeated`, `Manifest.unrepeated` : no key is written twice.
* `documents_read_back` : all of it.
-/

namespace Linkage

open Json (ReadsBack Yields AllProper)

theorem readsBack_optionalText (text? : Option String) :
    ReadsBack (Json.asOption Json.asText) (Json.ofOption .str) text? :=
  .asOption (fun text _ => Json.readsBack_asText text)
    (fun _ _ hspells => by cases hspells.eq_of_isAtom trivial)

/-! ## Declarations -/

theorem Format.readsBack (format : Format) : ReadsBack ofJson toJson format := by
  intro json hspells
  rw [hspells.eq_of_isAtom trivial]
  cases format <;> rfl

theorem ImportItem.readsBack (item : ImportItem) : ReadsBack ofJson toJson item := by
  intro json hspells
  cases item with
  | default name | star name =>
      obtain ⟨members, rfl, hpresents⟩ := hspells.exists_obj (by simp)
      refine bind_eq_ok (hpresents.asTagged "kind" rfl) (bind_eq_ok (Json.asRecord_obj _ members) ?_)
      exact bind_eq_ok (hpresents.required "local" (Json.readsBack_asText name) rfl) rfl
  | named imported alias? =>
      obtain ⟨members, rfl, hpresents⟩ := hspells.exists_obj (by simp)
      refine bind_eq_ok (hpresents.asTagged "kind" rfl) (bind_eq_ok (Json.asRecord_obj _ members) ?_)
      exact bind_eq_ok (hpresents.required "imported" (Json.readsBack_asText imported) rfl)
        (bind_eq_ok (hpresents.defaulted "local" (readsBack_optionalText alias?) rfl none) rfl)

theorem ExportItem.readsBack (item : ExportItem) : ReadsBack ofJson toJson item := by
  intro json hspells
  cases item with
  | default | star =>
      obtain ⟨members, rfl, hpresents⟩ := hspells.exists_obj (by simp)
      exact bind_eq_ok (hpresents.asTagged "kind" rfl) (bind_eq_ok (Json.asRecord_obj _ members) rfl)
  | named name alias? =>
      obtain ⟨members, rfl, hpresents⟩ := hspells.exists_obj (by simp)
      refine bind_eq_ok (hpresents.asTagged "kind" rfl) (bind_eq_ok (Json.asRecord_obj _ members) ?_)
      exact bind_eq_ok (hpresents.required "local" (Json.readsBack_asText name) rfl)
        (bind_eq_ok (hpresents.defaulted "exported" (readsBack_optionalText alias?) rfl none) rfl)
  | starAs name =>
      obtain ⟨members, rfl, hpresents⟩ := hspells.exists_obj (by simp)
      refine bind_eq_ok (hpresents.asTagged "kind" rfl) (bind_eq_ok (Json.asRecord_obj _ members) ?_)
      exact bind_eq_ok (hpresents.required "exported" (Json.readsBack_asText name) rfl) rfl

theorem ImportDeclaration.readsBack (declaration : ImportDeclaration) :
    ReadsBack ofJson toJson declaration := by
  intro json hspells
  obtain ⟨members, rfl, hpresents⟩ := hspells.exists_obj (by simp)
  refine bind_eq_ok (Json.asRecord_obj _ members) ?_
  refine bind_eq_ok (hpresents.required "specifier" (Json.readsBack_asText declaration.specifier) rfl) ?_
  exact bind_eq_ok (hpresents.defaulted "imports" (.asList fun item _ => item.readsBack) rfl []) rfl

theorem ExportDeclaration.readsBack (declaration : ExportDeclaration) :
    ReadsBack ofJson toJson declaration := by
  intro json hspells
  obtain ⟨members, rfl, hpresents⟩ := hspells.exists_obj (by simp)
  refine bind_eq_ok (Json.asRecord_obj _ members) ?_
  refine bind_eq_ok (hpresents.required "exports" (.asList fun item _ => item.readsBack) rfl) ?_
  exact bind_eq_ok (hpresents.defaulted "from" (readsBack_optionalText declaration.source?) rfl none) rfl

/-! ## Statements -/

/-- A value that a statement carries is a dynamic value, and an amount is finite. -/
def Statement.IsSound : Statement → Prop
  | set _ value | setDefault value | exportValue _ value | setExports value => value.IsDynamic
  | add _ amount => amount.isFinite = true
  | _ => True

theorem Statement.readsBack {statement : Statement} (hsound : statement.IsSound) :
    ReadsBack ofJson toJson statement := by
  have htext := Json.readsBack_asText
  intro json hspells
  cases statement with
  | set name value =>
      obtain ⟨members, rfl, hpresents⟩ := hspells.exists_obj (by simp)
      refine bind_eq_ok (hpresents.asTagged "op" rfl) (bind_eq_ok (Json.asRecord_obj _ members) ?_)
      exact bind_eq_ok (hpresents.required "name" (htext name) rfl)
        (bind_eq_ok (hpresents.required "value" (Json.readsBack_asAny hsound) rfl) rfl)
  | copy source target =>
      obtain ⟨members, rfl, hpresents⟩ := hspells.exists_obj (by simp)
      refine bind_eq_ok (hpresents.asTagged "op" rfl) (bind_eq_ok (Json.asRecord_obj _ members) ?_)
      exact bind_eq_ok (hpresents.required "from" (htext source) rfl)
        (bind_eq_ok (hpresents.required "to" (htext target) rfl) rfl)
  | get object property target =>
      obtain ⟨members, rfl, hpresents⟩ := hspells.exists_obj (by simp)
      refine bind_eq_ok (hpresents.asTagged "op" rfl) (bind_eq_ok (Json.asRecord_obj _ members) ?_)
      exact bind_eq_ok (hpresents.required "object" (htext object) rfl)
        (bind_eq_ok (hpresents.required "property" (htext property) rfl)
          (bind_eq_ok (hpresents.required "to" (htext target) rfl) rfl))
  | add name amount =>
      obtain ⟨members, rfl, hpresents⟩ := hspells.exists_obj (by simp)
      refine bind_eq_ok (hpresents.asTagged "op" rfl) (bind_eq_ok (Json.asRecord_obj _ members) ?_)
      exact bind_eq_ok (hpresents.required "name" (htext name) rfl)
        (bind_eq_ok (hpresents.required "by" (Json.readsBack_asNumber hsound) rfl) rfl)
  | setDefault value | setExports value =>
      obtain ⟨members, rfl, hpresents⟩ := hspells.exists_obj (by simp)
      refine bind_eq_ok (hpresents.asTagged "op" rfl) (bind_eq_ok (Json.asRecord_obj _ members) ?_)
      exact bind_eq_ok (hpresents.required "value" (Json.readsBack_asAny hsound) rfl) rfl
  | require specifier target? =>
      obtain ⟨members, rfl, hpresents⟩ := hspells.exists_obj (by simp)
      refine bind_eq_ok (hpresents.asTagged "op" rfl) (bind_eq_ok (Json.asRecord_obj _ members) ?_)
      exact bind_eq_ok (hpresents.required "specifier" (htext specifier) rfl)
        (bind_eq_ok (hpresents.defaulted "to" (readsBack_optionalText target?) rfl none) rfl)
  | exportValue name value =>
      obtain ⟨members, rfl, hpresents⟩ := hspells.exists_obj (by simp)
      refine bind_eq_ok (hpresents.asTagged "op" rfl) (bind_eq_ok (Json.asRecord_obj _ members) ?_)
      exact bind_eq_ok (hpresents.required "name" (htext name) rfl)
        (bind_eq_ok (hpresents.required "value" (Json.readsBack_asAny hsound) rfl) rfl)
  | exportBinding name source =>
      obtain ⟨members, rfl, hpresents⟩ := hspells.exists_obj (by simp)
      refine bind_eq_ok (hpresents.asTagged "op" rfl) (bind_eq_ok (Json.asRecord_obj _ members) ?_)
      exact bind_eq_ok (hpresents.required "name" (htext name) rfl)
        (bind_eq_ok (hpresents.required "from" (htext source) rfl) rfl)
  | throw text =>
      obtain ⟨members, rfl, hpresents⟩ := hspells.exists_obj (by simp)
      refine bind_eq_ok (hpresents.asTagged "op" rfl) (bind_eq_ok (Json.asRecord_obj _ members) ?_)
      exact bind_eq_ok (hpresents.required "message" (htext text) rfl) rfl
  | log name =>
      obtain ⟨members, rfl, hpresents⟩ := hspells.exists_obj (by simp)
      refine bind_eq_ok (hpresents.asTagged "op" rfl) (bind_eq_ok (Json.asRecord_obj _ members) ?_)
      exact bind_eq_ok (hpresents.required "name" (htext name) rfl) rfl

/-- Every statement that is read is sound. -/
theorem Statement.yields : Yields ofJson IsSound := by
  intro written statement hproper hread
  obtain ⟨⟨operation, content⟩, htag, hread⟩ := bind_eq_ok_iff.mp hread
  have hcontent := Json.isProper_asTagged hproper htag
  dsimp only at hread
  split at hread
  · obtain ⟨members, hmembers, hread⟩ := bind_eq_ok_iff.mp hread
    have hall := Json.allProper_asRecord hcontent hmembers
    have hcarried : ∀ {field : String} {value : Json},
        Json.required members field Json.asAny = .ok value → value.IsDynamic :=
      fun hvalue => hall.required Json.yields_asAny hvalue
    -- by the operation, in the order in which the reader takes them
    split at hread
    · obtain ⟨name, -, hread⟩ := bind_eq_ok_iff.mp hread
      obtain ⟨value, hvalue, hread⟩ := bind_eq_ok_iff.mp hread
      obtain rfl := Except.ok.inj hread
      exact hcarried hvalue
    · obtain ⟨source, -, hread⟩ := bind_eq_ok_iff.mp hread
      obtain ⟨target, -, hread⟩ := bind_eq_ok_iff.mp hread
      obtain rfl := Except.ok.inj hread
      trivial
    · obtain ⟨object, -, hread⟩ := bind_eq_ok_iff.mp hread
      obtain ⟨property, -, hread⟩ := bind_eq_ok_iff.mp hread
      obtain ⟨target, -, hread⟩ := bind_eq_ok_iff.mp hread
      obtain rfl := Except.ok.inj hread
      trivial
    · obtain ⟨name, -, hread⟩ := bind_eq_ok_iff.mp hread
      obtain ⟨amount, hamount, hread⟩ := bind_eq_ok_iff.mp hread
      obtain rfl := Except.ok.inj hread
      exact hall.required Json.yields_asNumber hamount
    · obtain ⟨value, hvalue, hread⟩ := bind_eq_ok_iff.mp hread
      obtain rfl := Except.ok.inj hread
      exact hcarried hvalue
    · obtain ⟨specifier, -, hread⟩ := bind_eq_ok_iff.mp hread
      obtain ⟨target?, -, hread⟩ := bind_eq_ok_iff.mp hread
      obtain rfl := Except.ok.inj hread
      trivial
    · obtain ⟨name, -, hread⟩ := bind_eq_ok_iff.mp hread
      obtain ⟨value, hvalue, hread⟩ := bind_eq_ok_iff.mp hread
      obtain rfl := Except.ok.inj hread
      exact hcarried hvalue
    · obtain ⟨name, -, hread⟩ := bind_eq_ok_iff.mp hread
      obtain ⟨source, -, hread⟩ := bind_eq_ok_iff.mp hread
      obtain rfl := Except.ok.inj hread
      trivial
    · obtain ⟨value, hvalue, hread⟩ := bind_eq_ok_iff.mp hread
      obtain rfl := Except.ok.inj hread
      exact hcarried hvalue
    · obtain ⟨text, -, hread⟩ := bind_eq_ok_iff.mp hread
      obtain rfl := Except.ok.inj hread
      trivial
    · obtain ⟨name, -, hread⟩ := bind_eq_ok_iff.mp hread
      obtain rfl := Except.ok.inj hread
      trivial
    · cases hread
  · cases hread

/-! ## Sources and manifests -/

/-- All statements of a source are sound. -/
def Descriptor.IsSound (source : Descriptor) : Prop :=
  ∀ statement ∈ source.body, statement.IsSound

theorem Descriptor.readsBack {source : Descriptor} (hsound : source.IsSound) :
    ReadsBack ofJsonValue toJson source := by
  have hformat : ReadsBack (Json.asOption Format.ofJson) (Json.ofOption Format.toJson) source.format? :=
    .asOption (fun format _ => format.readsBack) (fun _ _ hspells => by cases hspells.eq_of_isAtom trivial)
  intro json hspells
  obtain ⟨members, rfl, hpresents⟩ := hspells.exists_obj (by simp)
  refine bind_eq_ok (Json.asRecord_obj _ members) (bind_eq_ok (hpresents.defaulted "format" hformat rfl none) ?_)
  refine bind_eq_ok (hpresents.defaulted "imports" (.asList fun item _ => item.readsBack) rfl []) ?_
  refine bind_eq_ok (hpresents.defaulted "exports" (.asList fun item _ => item.readsBack) rfl []) ?_
  exact bind_eq_ok (hpresents.defaulted "body"
    (.asList fun statement hmem => Statement.readsBack (hsound statement hmem)) rfl []) rfl

/-- Every source that is read is sound. -/
theorem Descriptor.yields : Yields ofJsonValue IsSound := by
  intro written source hproper hread
  obtain ⟨members, hmembers, hread⟩ := bind_eq_ok_iff.mp hread
  obtain ⟨format?, -, hread⟩ := bind_eq_ok_iff.mp hread
  obtain ⟨imports, -, hread⟩ := bind_eq_ok_iff.mp hread
  obtain ⟨exports, -, hread⟩ := bind_eq_ok_iff.mp hread
  obtain ⟨body, hbody, hread⟩ := bind_eq_ok_iff.mp hread
  obtain rfl := Except.ok.inj hread
  exact (Json.allProper_asRecord hproper hmembers).defaulted Statement.yields.asList
    (fun _ hmem => absurd hmem List.not_mem_nil) hbody

/-- All sources of a manifest are sound. -/
def Manifest.IsSound (manifest : Manifest) : Prop :=
  ∀ path source, manifest.modules.find? path = some source → source.IsSound

theorem Manifest.readsBack {manifest : Manifest} (hsound : manifest.IsSound) :
    ReadsBack ofJson toJson manifest := by
  intro json hspells
  obtain ⟨members, rfl, hpresents⟩ := hspells.exists_obj (by simp)
  refine bind_eq_ok (Json.asRecord_obj _ members) ?_
  refine bind_eq_ok (hpresents.defaulted "entry" (readsBack_optionalText manifest.start?) rfl none) ?_
  refine bind_eq_ok (hpresents.defaulted "aliases"
    (.asTable fun _ text _ => Json.readsBack_asText text) rfl {}) ?_
  exact bind_eq_ok (hpresents.defaulted "modules"
    (.asTable fun path source hfind => Descriptor.readsBack (hsound path source hfind)) rfl {}) rfl

/-- Every manifest that is read is sound. -/
theorem Manifest.yields : Yields ofJson IsSound := by
  intro written manifest hproper hread
  obtain ⟨members, hmembers, hread⟩ := bind_eq_ok_iff.mp hread
  obtain ⟨start?, -, hread⟩ := bind_eq_ok_iff.mp hread
  obtain ⟨aliases, -, hread⟩ := bind_eq_ok_iff.mp hread
  obtain ⟨modules, hmodules, hread⟩ := bind_eq_ok_iff.mp hread
  obtain rfl := Except.ok.inj hread
  exact (Json.allProper_asRecord hproper hmembers).defaulted Descriptor.yields.asTable
    (fun _ _ hfind => by cases hfind) hmodules

/-! ## What is written repeats no key -/

theorem unrepeated_optionalText (text? : Option String) : (Json.ofOption .str text?).Unrepeated :=
  Json.unrepeated_ofOption Json.unrepeated_str

theorem ImportItem.unrepeated (item : ImportItem) : item.toJson.Unrepeated := by
  cases item with
  | default | star => exact .obj (by simp) (by simp)
  | named imported alias? => exact .obj (by simp) (by simp [unrepeated_optionalText alias?])

theorem ExportItem.unrepeated (item : ExportItem) : item.toJson.Unrepeated := by
  cases item with
  | default | star | starAs => exact .obj (by simp) (by simp)
  | named name alias? => exact .obj (by simp) (by simp [unrepeated_optionalText alias?])

theorem ImportDeclaration.unrepeated (declaration : ImportDeclaration) :
    declaration.toJson.Unrepeated :=
  .obj (by simp) (by simpa using Json.unrepeated_ofList (fun item _ => ImportItem.unrepeated item))

theorem ExportDeclaration.unrepeated (declaration : ExportDeclaration) :
    declaration.toJson.Unrepeated :=
  .obj (by simp) (by simpa using ⟨Json.unrepeated_ofList (fun item _ => ExportItem.unrepeated item),
    unrepeated_optionalText declaration.source?⟩)

theorem Statement.unrepeated {statement : Statement} (hsound : statement.IsSound) :
    statement.toJson.Unrepeated := by
  cases statement with
  | set _ value | setDefault value | exportValue _ value | setExports value =>
      exact .obj (by simp) (by simp [Json.IsDynamic.unrepeated hsound])
  | require specifier target? => exact .obj (by simp) (by simp [unrepeated_optionalText target?])
  | _ => exact .obj (by simp) (by simp)

theorem Descriptor.unrepeated {source : Descriptor} (hsound : source.IsSound) :
    source.toJson.Unrepeated := by
  have hformat : (Json.ofOption Format.toJson source.format?).Unrepeated :=
    Json.unrepeated_ofOption (fun format => Json.unrepeated_str format.name)
  have himports := Json.unrepeated_ofList (fun declaration (_ : declaration ∈ source.imports) =>
    ImportDeclaration.unrepeated declaration)
  have hexports := Json.unrepeated_ofList (fun declaration (_ : declaration ∈ source.exports) =>
    ExportDeclaration.unrepeated declaration)
  have hbody := Json.unrepeated_ofList (fun statement hmem => Statement.unrepeated (hsound statement hmem))
  exact .obj (by simp) (by simpa using ⟨hformat, himports, hexports, hbody⟩)

theorem Manifest.unrepeated {manifest : Manifest} (hsound : manifest.IsSound) :
    manifest.toJson.Unrepeated := by
  have haliases : (Json.ofTable .str manifest.aliases).Unrepeated :=
    Json.unrepeated_ofTable (fun _ text _ => Json.unrepeated_str text)
  have hmodules := Json.unrepeated_ofTable
    (fun path source hfind => Descriptor.unrepeated (hsound path source hfind))
  exact .obj (by simp)
    (by simpa using ⟨unrepeated_optionalText manifest.start?, haliases, hmodules⟩)

/-- **What is written is read back.**  A source whose values are dynamic values and whose amounts are
finite is read from what is written for it, in the order in which it is written or in any other, such as
that of a dynamic value; and whatever is properly written, such as a dynamic value, is read as such a
source if it is read at all, and that is read again from what is written for it.  So is a manifest. -/
theorem documents_read_back :
    (∀ source : Descriptor, source.IsSound → source.toJson.Spells source.toJson ∧
      source.toJson.normal.Spells source.toJson ∧
      ∀ json : Json, json.Spells source.toJson → Descriptor.ofJsonValue (.ofJson json) = .ok source) ∧
    (∀ written source, written.IsProper → Descriptor.ofJsonValue written = .ok source →
      source.IsSound ∧
      ∀ json : Json, json.Spells source.toJson → Descriptor.ofJsonValue (.ofJson json) = .ok source) ∧
    (∀ manifest : Manifest, manifest.IsSound → manifest.toJson.Spells manifest.toJson ∧
      manifest.toJson.normal.Spells manifest.toJson ∧
      ∀ json : Json, json.Spells manifest.toJson → Manifest.ofJson (.ofJson json) = .ok manifest) ∧
    (∀ written manifest, written.IsProper → Manifest.ofJson written = .ok manifest →
      manifest.IsSound ∧
      ∀ json : Json, json.Spells manifest.toJson → Manifest.ofJson (.ofJson json) = .ok manifest) ∧
    ∀ json : Json, json.IsDynamic → (Json.Written.ofJson json).IsProper := by
  refine ⟨fun source hsound => ?_, fun written source hproper hread => ?_,
    fun manifest hsound => ?_, fun written manifest hproper hread => ?_, ?_⟩
  · exact ⟨⟨Descriptor.unrepeated hsound, rfl⟩, Json.spells_normal _, Descriptor.readsBack hsound⟩
  · have hsound := Descriptor.yields written source hproper hread
    exact ⟨hsound, Descriptor.readsBack hsound⟩
  · exact ⟨⟨Manifest.unrepeated hsound, rfl⟩, Json.spells_normal _, Manifest.readsBack hsound⟩
  · have hsound := Manifest.yields written manifest hproper hread
    exact ⟨hsound, Manifest.readsBack hsound⟩
  · exact fun json hdynamic => Json.Written.isProper_ofJson hdynamic

theorem documents_read_back_of_counter :
    Descriptor.ofJsonValue (.ofJson (Descriptor.toJson ⟨some .modern, [⟨"./start", [.named "n" none]⟩],
      [⟨[.default], none⟩], [.set "list" (.arr [.int 1]), .add "n" 0.5]⟩).normal) =
      .ok ⟨some .modern, [⟨"./start", [.named "n" none]⟩], [⟨[.default], none⟩],
        [.set "list" (.arr [.int 1]), .add "n" 0.5]⟩ := by
  have hsound : Descriptor.IsSound ⟨some .modern, [⟨"./start", [.named "n" none]⟩],
      [⟨[.default], none⟩], [.set "list" (.arr [.int 1]), .add "n" 0.5]⟩ := by
    refine List.forall_mem_cons.mpr ⟨?_, List.forall_mem_singleton.mpr ?_⟩
    · exact .arr (by decide) (List.forall_mem_singleton.mpr (.int (by decide) (by decide)))
    · show (0.5 : Float).isFinite = true
      decide
  obtain ⟨-, hnormal, hread⟩ := documents_read_back.1 _ hsound
  exact hread _ hnormal

end Linkage
