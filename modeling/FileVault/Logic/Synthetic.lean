import FileVault.Logic.FixtureImage
import FileVault.Logic.Primitives
import FileVault.Logic.Unlocked

/-!
# The synthetic image

What a run over a built image decodes, and one such image: the parameters that the
tests of the crate build their image from, with the metadata padded to whole
8192-byte units and the descriptor behind the field that points to it, over the
primitives themselves.
-/

namespace FileVault

open Lib

namespace Fixture

/-- Unlocking a built image is a successful run, and what it decodes is what the image
was built from. -/
theorem unlocked_buildImage {crates : Crates} {p : Fixture} (lawful : crates.Lawful)
    (fits : p.Fits crates) (placed : p.Placed) (hiterations : 1 ≤ p.iterations.toNat)
    (hsize : p.lvSize ≠ 0) :
    ∃ vol, ∃ run : Unlocked crates (.cursor (p.buildImage crates)) p.password vol,
      run.segments = [p.segment] ∧ run.blockSize = p.blockSize.toNat ∧
        run.header.bytesPerSector = p.bytesPerSector ∧ run.size = p.lvSize.toNat ∧
        run.keys = p.keys crates := by
  have healthy := Reader.healthy_cursor (p.buildImage crates)
  obtain ⟨hblock, hsector, -, -⟩ := ofFields_buildImage fits placed
  obtain ⟨reader', -, hunlock⟩ := unlock_buildImage lawful fits placed hiterations hsize healthy rfl
  obtain ⟨run⟩ := unlocked_of_ok hunlock
  obtain ⟨reader₁, -, hload⟩ := loadVolume_healthy crates healthy
  have loaded := run.load
  rw [hload, show (Reader.cursor (p.buildImage crates)).data = p.buildImage crates from rfl,
    loadMetadata_buildImage lawful fits placed, ok_bind] at loaded
  simp only [Except.ok.injEq, Prod.mk.injEq] at loaded
  obtain ⟨hheader, hmetadata, -⟩ := loaded
  have hlv := run.extract_lv
  rw [← hmetadata, extract_logicalVolume lawful fits] at hlv
  have hfamily := run.parse_family
  rw [← Except.ok.inj hlv, show parseUuidBytes crates (p.logicalVolume crates).familyUuid =
    some p.family from lawful.parse_hyphenated p.family, Option.some.injEq] at hfamily
  have hcontext := run.extract_context
  rw [← hmetadata, extract_context lawful fits] at hcontext
  have hkeys := run.derive_keys
  rw [← Except.ok.inj hcontext, ← hfamily, deriveVolumeKeys_fixture lawful hiterations] at hkeys
  have hsegments := run.segments_eq
  have hblockSize : run.blockSize = p.blockSize.toNat := by
    rw [Unlocked.blockSize, ← hheader, hblock]
  rw [← hmetadata, hblockSize, segmentsOf_fixture fits] at hsegments
  refine ⟨_, run, hsegments, hblockSize, by rw [← hheader, hsector], ?_, (Except.ok.inj hkeys).symm⟩
  have nonzero : (p.logicalVolume crates).size ≠ 0 := hsize
  unfold Unlocked.size extentOf
  rw [hsegments, ← Except.ok.inj hlv, List.head?_cons]
  simp only [if_pos nonzero]
  rfl

/-- The constants of the test image. The logical volume is the byte ramp. -/
def synthetic : Fixture where
  password := "synthetic-pass"
  salt := ByteArr.fill 16 0xab
  iterations := 1000
  kek := ByteArr.fill 16 0x10
  vmk := ByteArr.fill 16 0x20
  key1 := ByteArr.fill 16 0x30
  pvId := ByteArr.fill 16 0x40
  family := ⟨[0x01, 0x02, 0x03, 0x04, 0x05, 0x06, 0x07, 0x08, 0x09, 0x0a, 0x0b, 0x0c, 0x0d, 0x0e,
    0x0f, 0x10], rfl⟩
  lvName := "SynthLV"
  lvIdentifier := "00000000-0000-0000-0000-000000000001"
  status := "Complete"
  lvSize := 0x4000
  blockSize := 4096
  bytesPerSector := 512
  regionBlock := 1
  regionSize := 4096
  descriptorOffset := 224
  metadataBlock := 8
  metadataBlocks := 4
  logicalBlock := 0
  lvBlocks := 4
  lvPhysicalBlock := 0x0099000000000010
  lvPlain := (List.range 16384).map .ofNat
  total := 81920

/-- The context plist has the length of its text, whatever the keys are. -/
theorem synthetic_contextPlist_length {crates : Crates} (lawful : crates.Lawful) :
    (synthetic.contextPlist crates).length = 1101 := by
  simp only [contextPlist, passphraseField, userTypeField, algorithmField, kekField, statusField,
    tagged, keyElement, List.length_append, lawful.encode_length,
    passphraseStruct_length, kekWrappedStruct_length]
  decide +kernel

theorem synthetic_lvPlist_length {crates : Crates}
    (huuid : crates.uuidHyphenated = standardCrates.uuidHyphenated) :
    (synthetic.lvPlist crates).length = 379 := by
  have same : synthetic.lvPlist crates = synthetic.lvPlist standardCrates := by
    simp only [lvPlist, familyField, familyText, huuid]
  rw [same]
  decide +kernel

theorem synthetic_fits_of {crates : Crates} (lawful : crates.Lawful)
    (huuid : crates.uuidHyphenated = standardCrates.uuidHyphenated) : synthetic.Fits crates where
  context_fits := by
    rw [synthetic_contextPlist_length lawful]
    decide
  lv_fits := by
    rw [synthetic_lvPlist_length huuid]
    decide
  segment_fits := by decide
  status_clean := by decide
  name_clean := by decide
  identifier_clean := by decide
  blocks_min := by decide
  blocks_max := by decide

theorem synthetic_fits : synthetic.Fits standardCrates :=
  synthetic_fits_of standardCrates_lawful rfl

theorem synthetic_placed : synthetic.Placed where
  total_lt := by decide
  header_inside := by decide
  region_inside := by decide
  region_header := by decide
  region_cap := by decide
  descriptor_low := by decide
  descriptor_inside := by decide
  metadata_inside := by decide
  metadata_header := by decide
  metadata_region := by decide
  metadata_units := by decide
  lv_apart := .inr (by
    have hlen : synthetic.lvPlain.length = 16384 := by simp [synthetic]
    rw [hlen]
    decide)

end Fixture

end FileVault
