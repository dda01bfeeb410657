import FileVault.Lib.Xml
import FileVault.Logic.Plist
import FileVault.Logic.Primitives

/-!
# Names in the property list

A name of the logical volume, its identifier and the conversion status are read from the XML text
as they stand there. A text with markup characters stands there escaped, and nothing undoes the
escaping: what is read is the text that was written exactly if it has no such character.
-/

namespace FileVault

open Lib

/-- The fields that hold a text of the property list. -/
inductive TextField
  | name
  | lvIdentifier
  | conversionStatus
  deriving DecidableEq, Repr

/-- The key a field is read from. -/
def TextField.key : TextField → String
  | .name => "com.apple.corestorage.lv.name"
  | .lvIdentifier => "com.apple.corestorage.lv.uuid"
  | .conversionStatus => "ConversionStatus"

/-- What is extracted as the value of a field. -/
inductive Extracted (crates : Crates) (metadata : Bytes) : TextField → Option String → Prop
  | name {lv : LogicalVolumeInfo} : LogicalVolumeInfo.extract metadata = .ok lv →
      Extracted crates metadata .name lv.name
  | lvIdentifier {lv : LogicalVolumeInfo} : LogicalVolumeInfo.extract metadata = .ok lv →
      Extracted crates metadata .lvIdentifier lv.lvIdentifier
  | conversionStatus {context : EncryptionContext} :
      EncryptionContext.extract crates metadata = .ok context →
      Extracted crates metadata .conversionStatus context.conversionStatus

/-- `<key>K</key><string ID=..>escape(s)</string>`. -/
def stringElement (keyName : String) (attributes : Bytes) (s : String) : Bytes :=
  tagged keyName (asBytes "<string ID=") attributes (asBytes (escape s)) (asBytes "</string>")

/-- The text is rendered under the key, which is not in the metadata before. -/
structure RenderedUnder (keyName s : String) (metadata : Bytes) : Prop where
  rendered : ∃ before attributes rest,
    metadata = before ++ (stringElement keyName attributes s ++ rest) ∧
      ¬ keyElement keyName <:+: before ∧ 0x3e ∉ attributes
  size : metadata.length < usizeSize

section

variable {crates : Crates} {metadata : Bytes} {field : TextField} {value : Option String}
  {keyName s : String}

theorem TextField.lt_notMem_key (field : TextField) : '<' ∉ field.key.toList := by
  cases field <;> decide

/-- The logical volume's texts are the strings under their keys. -/
theorem LogicalVolumeInfo.extract_texts {lv : LogicalVolumeInfo}
    (h : LogicalVolumeInfo.extract metadata = .ok lv) :
    lv.name = extractString metadata "com.apple.corestorage.lv.name" ∧
      lv.lvIdentifier = extractString metadata "com.apple.corestorage.lv.uuid" := by
  unfold LogicalVolumeInfo.extract at h
  obtain ⟨familyUuid, -, h⟩ := bind_eq_ok.mp h
  obtain rfl := Except.ok.inj h
  exact ⟨rfl, rfl⟩

/-- The conversion status is the string under its key. -/
theorem EncryptionContext.extract_status {context : EncryptionContext}
    (h : EncryptionContext.extract crates metadata = .ok context) :
    context.conversionStatus = extractString metadata "ConversionStatus" := by
  unfold EncryptionContext.extract at h
  simp only [bind_eq_ok, pure_run, Except.ok.injEq] at h
  obtain ⟨_, -, _, -, _, -, _, -, _, -, _, -, rfl⟩ := h
  rfl

theorem Extracted.eq_extractString (h : Extracted crates metadata field value) :
    value = extractString metadata field.key := by
  cases h with
  | name hlv => exact (LogicalVolumeInfo.extract_texts hlv).1
  | lvIdentifier hlv => exact (LogicalVolumeInfo.extract_texts hlv).2
  | conversionStatus hcontext => exact EncryptionContext.extract_status hcontext

/-- The string under a key is what stands there. -/
theorem RenderedUnder.extractString (h : RenderedUnder keyName s metadata)
    (hkey : '<' ∉ keyName.toList) : extractString metadata keyName = some (escape s) := by
  obtain ⟨⟨before, attributes, rest, rfl, absent, hattributes⟩, hsize⟩ := h
  refine extractString_first ?_ hattributes (lt_notMem_escape s) hsize
  rw [tagged, List.append_assoc]
  exact avoidsBefore_keyElement keyName hkey absent

end

/-- A field that is rendered with escapes is the escaped text, which is the text itself exactly if
that has no markup characters. -/
theorem field_eq_text_iff (crates : Crates) {metadata : Bytes} {field : TextField} {s : String}
    {value : Option String} (rendered : RenderedUnder field.key s metadata)
    (extracted : Extracted crates metadata field value) :
    value = some (escape s) ∧
      (value = some s ↔ ∀ c ∈ s.toList, c ≠ '&' ∧ c ≠ '<' ∧ c ≠ '>') := by
  have heq : value = some (escape s) :=
    extracted.eq_extractString.trans (rendered.extractString field.lt_notMem_key)
  refine ⟨heq, ?_⟩
  rw [heq, Option.some.injEq, escape_eq_self_iff]
  simp only [isMarkup, Bool.or_eq_false_iff, beq_eq_false_iff_ne, and_assoc]

/-! ## A volume with a name -/

/-- The record of a logical volume of this name. -/
def namedVolume (name : String) : Bytes :=
  asBytes ("<dict ID=\"0\"><key>com.apple.corestorage.lv.familyUUID</key>" ++
    "<string ID=\"1\">1F01CA34-5F6C-4123-AC0C-B0A256889DB2</string>") ++
  (stringElement "com.apple.corestorage.lv.name" (asBytes "\"6\"") name ++ asBytes "</dict>")

/-- What is extracted of the record of a logical volume of this name. -/
def namedVolumeInfo (name : String) : LogicalVolumeInfo where
  size := 0
  familyUuid := "1F01CA34-5F6C-4123-AC0C-B0A256889DB2"
  lvIdentifier := none
  name := some name

theorem renderedUnder_namedVolume {name : String}
    (hsize : (namedVolume name).length < usizeSize) :
    RenderedUnder "com.apple.corestorage.lv.name" name (namedVolume name) :=
  ⟨⟨_, _, _, rfl, by decide +kernel, by decide⟩, hsize⟩

theorem field_eq_text_plain :
    some "TestLV" = some (escape "TestLV") ∧
      (some "TestLV" = some "TestLV" ↔ ∀ c ∈ "TestLV".toList, c ≠ '&' ∧ c ≠ '<' ∧ c ≠ '>') := by
  have rendered : RenderedUnder TextField.name.key "TestLV" (namedVolume "TestLV") :=
    renderedUnder_namedVolume (by decide +kernel)
  have extracted : LogicalVolumeInfo.extract (namedVolume "TestLV") =
      .ok (namedVolumeInfo "TestLV") := by decide +kernel
  exact field_eq_text_iff standardCrates rendered (.name extracted)

/-- The name "A&B" is extracted as it is escaped. -/
theorem name_not_unescaped :
    RenderedUnder "com.apple.corestorage.lv.name" "A&B" (namedVolume "A&B") ∧
      LogicalVolumeInfo.extract (namedVolume "A&B") = .ok (namedVolumeInfo "A&amp;B") ∧
      some "A&amp;B" ≠ some "A&B" :=
  ⟨renderedUnder_namedVolume (by decide +kernel), by decide +kernel, by decide⟩

end FileVault
