import FileVault.Logic.Layout
import FileVault.Logic.Primitives
import FileVault.Logic.TestSupport

/-!
# Panics of the password-free parse

Everything `parse_info` does over an in-memory image is free of panics but one
call: the metadata decryption works in units of 8192 bytes, and the length of the
region, a block count times the block size, need not be a multiple of that. A
remainder of 1 to 15 bytes is a sector too short for the cipher.
-/

namespace FileVault

open Lib

/-- The encrypted metadata of the image is found, and ends in a piece of a unit
that is shorter than one cipher block. -/
def RaggedMetadata (image : Bytes) : Prop :=
  Accepted image (layoutOf image) ∧
    0 < (layoutOf image).length % metadataUnitSize ∧
    (layoutOf image).length % metadataUnitSize < 16

/-- Nothing in the extraction of the key material panics. -/
theorem EncryptionContext.extract_ne_panicked (crates : Crates) (metadata : Bytes) :
    EncryptionContext.extract crates metadata ≠ panicked := by
  unfold EncryptionContext.extract
  refine bind_ne_panicked (okOr_ne_panicked _ _) ?_
  intro pw _
  refine bind_ne_panicked (okOr_ne_panicked _ _) ?_
  intro salt _
  refine bind_ne_panicked (okOr_ne_panicked _ _) ?_
  intro wrappedKek _
  refine bind_ne_panicked (okOr_ne_panicked _ _) ?_
  intro iterations _
  refine bind_ne_panicked (okOr_ne_panicked _ _) ?_
  intro vmkStruct _
  refine bind_ne_panicked (okOr_ne_panicked _ _) ?_
  intro wrappedVmk _
  exact ok_ne_panicked _

theorem LogicalVolumeInfo.extract_ne_panicked (metadata : Bytes) :
    LogicalVolumeInfo.extract metadata ≠ panicked := by
  unfold LogicalVolumeInfo.extract
  exact bind_ne_panicked (okOr_ne_panicked _ _) fun _ _ => ok_ne_panicked _

theorem describe_ne_panicked (crates : Crates) (header : VolumeHeader) {plaintext : Bytes}
    (hlen : plaintext.length ≤ isizeMax) : describe crates header plaintext ≠ panicked := by
  unfold describe
  refine bind_ne_panicked (EncryptionContext.extract_ne_panicked crates plaintext) ?_
  intro _ _
  refine bind_ne_panicked (LogicalVolumeInfo.extract_ne_panicked plaintext) ?_
  intro lv _
  rw [resolveLvExtent_eq header lv hlen]
  exact ok_ne_panicked _

/-- The one call that can panic, on an accepted image. -/
theorem Accepted.decryptMetadata_panicked_iff (crates : Crates) {image : Bytes}
    (h : Accepted image (layoutOf image)) :
    decryptMetadata crates (.ofFields image)
        (slice image (layoutOf image).primaryOffset (layoutOf image).length) = panicked ↔
      RaggedMetadata image := by
  have hcipher := slice_length_of_le h.primary_inside
  have hlt := h.length_lt
  have hunit : metadataUnitSize = 8192 := rfl
  unfold decryptMetadata RaggedMetadata
  rw [decryptUnits_eq (by decide) (by omega), hcipher]
  -- a remainder is decrypted as a sector of its own, which must not be shorter than a block
  by_cases hwhole : (layoutOf image).length % metadataUnitSize = 0
  · rw [if_pos hwhole]
    simp [hwhole]
  rw [if_neg hwhole]
  by_cases hshort : (layoutOf image).length % metadataUnitSize < 16
  · rw [if_pos hshort]
    simp only [true_iff]
    exact ⟨h, by omega, hshort⟩
  · rw [if_neg hshort]
    simp [hshort]

/-- Loading the metadata of an image panics exactly when it is ragged. -/
theorem loadMetadata_panicked_iff (crates : Crates) (image : Bytes) :
    loadMetadata crates image = panicked ↔ RaggedMetadata image := by
  rcases accepted_or_fail crates image with h | ⟨hbad, e, hfail⟩
  · rw [h.load, ← h.decryptMetadata_panicked_iff crates]
    cases hdecrypt : decryptMetadata crates (.ofFields image)
        (slice image (layoutOf image).primaryOffset (layoutOf image).length) with
    | error stop => simp [panicked]
    | ok plaintext => simp
  · rw [hfail]
    simp only [fail_ne_panicked, false_iff]
    exact fun ragged => hbad ragged.1

theorem parseInfo_panicked_iff (crates : Crates) (image : Bytes) :
    parseInfo crates (.cursor image) = panicked ↔ RaggedMetadata image := by
  obtain ⟨reader', -, hload⟩ := loadVolume_healthy crates (Reader.healthy_cursor image)
  rw [parseInfo_eq, hload, ← loadMetadata_panicked_iff crates]
  simp only [Reader.cursor]
  cases hmetadata : loadMetadata crates image with
  | error stop => simp [panicked]
  | ok loaded =>
      obtain ⟨header, plaintext⟩ := loaded
      simp only [ok_bind, ok_ne_panicked, iff_false]
      have loaded : loadVolume crates (.cursor image) = .ok (header, plaintext, reader') := by
        rw [hload]
        simp only [Reader.cursor, hmetadata]
        rfl
      exact describe_ne_panicked crates header (loadVolume_length loaded)

/-- The parse of an image returns, with a value or an error, exactly when its
encrypted metadata is not ragged. -/
theorem parseInfo_returns_iff (crates : Crates) (image : Bytes) :
    parseInfo crates (.cursor image) ≠ panicked ↔ ¬ RaggedMetadata image :=
  not_congr (parseInfo_panicked_iff crates image)

/-! ## A unit and a byte -/

/-- An image that is its own pointer block, with one block of 8193 bytes: the metadata is a
unit of 8192 bytes and one byte more. -/
def raggedImage : Bytes := filled 8193 [
  (10, leBytes 2 0x0011),
  (64, leBytes 4 8193),
  (88, [0x43, 0x53]),
  (96, leBytes 4 8193),
  (172, leBytes 4 2),
  (220, leBytes 4 224),
  (232, leBytes 8 1)]

theorem raggedImage_length : raggedImage.length = 8193 := by decide +kernel

theorem layoutOf_raggedImage : layoutOf raggedImage = ⟨8193, 0, 8193, 1, 0⟩ := by decide +kernel

theorem raggedImage_accepted : Accepted raggedImage ⟨8193, 0, 8193, 1, 0⟩ where
  header_inside := by rw [raggedImage_length]; decide
  signature := by decide +kernel
  method := by decide +kernel
  block_pos := by decide
  block_inside := by rw [raggedImage_length]; decide
  block_type := by decide +kernel
  region_pos := by decide
  region_cap := by decide
  region_inside := by rw [raggedImage_length]; decide
  region_type := by decide +kernel
  descriptor_inside := by decide +kernel
  count_pos := by decide
  count_cap := by decide
  primary_fits := by decide
  primary_inside := by rw [raggedImage_length]; decide

theorem raggedImage_ragged : RaggedMetadata raggedImage := by
  rw [RaggedMetadata, layoutOf_raggedImage]
  exact ⟨raggedImage_accepted, by decide, by decide⟩

/-- The ragged image passes every check, and its remainder of one byte stops the decryption. -/
theorem raggedImage_panics : parseInfo standardCrates (.cursor raggedImage) = panicked :=
  (parseInfo_panicked_iff standardCrates raggedImage).mpr raggedImage_ragged

end FileVault
