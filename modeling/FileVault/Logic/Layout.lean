import FileVault.Logic.Load

/-!
# Where an image keeps its metadata

The layout of an image is read off its bytes: the header gives the block size and
the place of the pointer block, the pointer block the size of its region and the
volume-groups descriptor, the descriptor the blocks of the encrypted metadata.
An image is accepted when every check on that way passes, and then loading its
metadata comes down to one decryption; any other image is an error.
-/

namespace FileVault

open Lib

/-- The plaintext part of an image's metadata, as places in the image. -/
structure Layout where
  blockSize : Nat
  regionOffset : Nat
  regionSize : Nat
  blockCount : Nat
  primaryBlock : Nat
  deriving DecidableEq, Repr

namespace Layout

/-- The byte range of the encrypted metadata. -/
def primaryOffset (layout : Layout) : Nat := layout.primaryBlock * layout.blockSize

def length (layout : Layout) : Nat := layout.blockCount * layout.blockSize

/-- The pointer block. -/
def firstBlock (layout : Layout) (image : Bytes) : Bytes :=
  slice image layout.regionOffset layout.blockSize

/-- The plaintext metadata region. -/
def region (layout : Layout) (image : Bytes) : Bytes :=
  slice image layout.regionOffset layout.regionSize

end Layout

/-- The layout the bytes of the image spell, whether or not it makes sense. -/
def layoutOf (image : Bytes) : Layout :=
  let blockSize := fieldAt 4 image 96
  let regionOffset := saturatingMul (fieldAt 8 image 104) blockSize
  let regionSize := fieldAt 4 (slice image regionOffset blockSize) 64
  let region := slice image regionOffset regionSize
  { blockSize, regionOffset, regionSize
    blockCount := blockCountOf region
    primaryBlock := primaryBlockOf region }

/-- Every check between the first byte of the image and its encrypted metadata. -/
structure Accepted (image : Bytes) (layout : Layout) : Prop where
  header_inside : volumeHeaderLen ≤ image.length
  signature : UInt16.ofNat (fieldAt 2 image 88) = csSignatureLe
  method : UInt32.ofNat (fieldAt 4 image 172) = encryptionMethodAesXts128
  block_pos : 0 < layout.blockSize
  block_inside : layout.regionOffset + layout.blockSize ≤ image.length
  block_type : UInt16.ofNat (fieldAt 2 (layout.firstBlock image) 10) =
    blockTypeEncryptedMetadataPointer
  region_pos : 0 < layout.regionSize
  region_cap : layout.regionSize / layout.blockSize ≤ maxMetadataBlocks
  region_inside : layout.regionOffset + layout.regionSize ≤ image.length
  region_type : UInt16.ofNat (fieldAt 2 (layout.region image) 10) =
    blockTypeEncryptedMetadataPointer
  descriptor_inside : descriptorOffsetOf (layout.region image) + 40 ≤ layout.regionSize
  count_pos : 0 < layout.blockCount
  count_cap : layout.blockCount ≤ maxEncryptedMetadataBlocks
  primary_fits : layout.primaryOffset < usizeSize
  primary_inside : layout.primaryOffset + layout.length ≤ image.length

/-- The header of an image that is long enough to have one. -/
theorem ofFields_slice {image : Bytes} (h : volumeHeaderLen ≤ image.length) :
    VolumeHeader.ofFields (slice image 0 volumeHeaderLen) = VolumeHeader.ofFields image := by
  have field : ∀ width off, off + width ≤ volumeHeaderLen →
      fieldAt width (slice image 0 volumeHeaderLen) off = fieldAt width image off := by
    intro width off hle
    apply fieldAt_congr
    · rw [slice_length]
      omega
    · omega
    · rw [slice_slice hle, Nat.zero_add]
  have bytes : ∀ off, off + 16 ≤ volumeHeaderLen →
      bytesAt (slice image 0 volumeHeaderLen) off = bytesAt image off := by
    intro off hle
    unfold bytesAt
    rw [dif_pos (by rw [slice_length]; omega), dif_pos (by omega)]
    simp only [slice_slice hle, Nat.zero_add]
  simp only [VolumeHeader.ofFields]
  rw [field 4 96 (by decide), field 4 48 (by decide), field 8 64 (by decide),
    field 8 104 (by decide), field 8 112 (by decide), field 8 120 (by decide),
    field 8 128 (by decide), bytes 176 (by decide), bytes 304 (by decide)]

theorem imageRange_eq {image : Bytes} {off n : Nat} (h : off + n ≤ image.length) :
    imageRange image off n = .ok (slice image off n) := if_pos h

theorem imageRange_short {image : Bytes} {off n : Nat} (h : image.length < off + n) :
    imageRange image off n = fail (.io .unexpectedEof) := if_neg (by omega)

theorem layoutOf_blockSize (image : Bytes) :
    (VolumeHeader.ofFields image).blockSize.toNat = (layoutOf image).blockSize :=
  toNat_fieldAt_u32 image 96

theorem layoutOf_regionOffset (image : Bytes) :
    (plaintextMetadataRegion (VolumeHeader.ofFields image)).1 =
      (layoutOf image).regionOffset := by
  show saturatingMul (UInt64.ofNat (fieldAt 8 image 104)).toNat
    (UInt32.ofNat (fieldAt 4 image 96)).toNat = _
  rw [toNat_fieldAt_u64, toNat_fieldAt_u32]
  rfl

theorem layoutOf_regionSize (image : Bytes) :
    (layoutOf image).regionSize = fieldAt 4 ((layoutOf image).firstBlock image) 64 := rfl

theorem layoutOf_blockCount (image : Bytes) :
    (layoutOf image).blockCount = blockCountOf ((layoutOf image).region image) := rfl

theorem layoutOf_primaryBlock (image : Bytes) :
    (layoutOf image).primaryBlock = primaryBlockOf ((layoutOf image).region image) := rfl

/-! ## Stage by stage -/

section

variable {image : Bytes}

/-- A header long enough either parses to the fields of the image or is an error. -/
theorem parse_slice (h : volumeHeaderLen ≤ image.length) :
    (UInt16.ofNat (fieldAt 2 image 88) = csSignatureLe ∧
      UInt32.ofNat (fieldAt 4 image 172) = encryptionMethodAesXts128 ∧
      VolumeHeader.parse (slice image 0 volumeHeaderLen) = .ok (.ofFields image)) ∨
    (¬ (UInt16.ofNat (fieldAt 2 image 88) = csSignatureLe ∧
      UInt32.ofNat (fieldAt 4 image 172) = encryptionMethodAesXts128) ∧
      ∃ e, VolumeHeader.parse (slice image 0 volumeHeaderLen) = fail e) := by
  have field : ∀ width off, off + width ≤ volumeHeaderLen →
      fieldAt width (slice image 0 volumeHeaderLen) off = fieldAt width image off := by
    intro width off hle
    apply fieldAt_congr
    · rw [slice_length]
      omega
    · omega
    · rw [slice_slice hle, Nat.zero_add]
  rw [VolumeHeader.parse_eq, field 2 88 (by decide), field 4 172 (by decide), ofFields_slice h]
  by_cases hsignature : UInt16.ofNat (fieldAt 2 image 88) = csSignatureLe
  · by_cases hmethod : UInt32.ofNat (fieldAt 4 image 172) = encryptionMethodAesXts128
    · exact .inl ⟨hsignature, hmethod, by simp [hsignature, hmethod]⟩
    · exact .inr ⟨by simp [hmethod], _, by rw [if_neg (by simpa), if_pos hmethod]⟩
  · exact .inr ⟨by simp [hsignature], _, if_pos hsignature⟩

/-- The pointer block either passes its checks or is an error. -/
theorem plaintextMetadataSize_cases (hpos : 0 < (layoutOf image).blockSize) :
    (UInt16.ofNat (fieldAt 2 ((layoutOf image).firstBlock image) 10) =
        blockTypeEncryptedMetadataPointer ∧
      0 < (layoutOf image).regionSize ∧
      (layoutOf image).regionSize / (layoutOf image).blockSize ≤ maxMetadataBlocks ∧
      plaintextMetadataSize (.ofFields image) ((layoutOf image).firstBlock image) =
        .ok (layoutOf image).regionSize) ∨
    (¬ (UInt16.ofNat (fieldAt 2 ((layoutOf image).firstBlock image) 10) =
        blockTypeEncryptedMetadataPointer ∧
      0 < (layoutOf image).regionSize ∧
      (layoutOf image).regionSize / (layoutOf image).blockSize ≤ maxMetadataBlocks) ∧
      ∃ e, plaintextMetadataSize (.ofFields image) ((layoutOf image).firstBlock image) =
        fail e) := by
  rw [plaintextMetadataSize_eq, layoutOf_blockSize, ← layoutOf_regionSize]
  by_cases htype : UInt16.ofNat (fieldAt 2 ((layoutOf image).firstBlock image) 10) =
      blockTypeEncryptedMetadataPointer
  · rw [if_neg (by simpa), if_neg (by omega)]
    by_cases hsize : (layoutOf image).regionSize = 0 ∨
        maxMetadataBlocks < (layoutOf image).regionSize / (layoutOf image).blockSize
    · exact .inr ⟨by omega, _, if_pos hsize⟩
    · exact .inl ⟨htype, by omega, by omega, if_neg hsize⟩
  · exact .inr ⟨fun h => htype h.1, _, if_pos htype⟩

/-- The descriptor either passes its checks or is an error. -/
theorem locateEncryptedMetadata_cases (image : Bytes)
    (hregion : ((layoutOf image).region image).length = (layoutOf image).regionSize) :
    (UInt16.ofNat (fieldAt 2 ((layoutOf image).region image) 10) =
        blockTypeEncryptedMetadataPointer ∧
      descriptorOffsetOf ((layoutOf image).region image) + 40 ≤ (layoutOf image).regionSize ∧
      0 < (layoutOf image).blockCount ∧
      (layoutOf image).blockCount ≤ maxEncryptedMetadataBlocks ∧
      (layoutOf image).primaryOffset < usizeSize ∧
      locateEncryptedMetadata (.ofFields image) ((layoutOf image).region image) =
        .ok ⟨(layoutOf image).primaryOffset, (layoutOf image).blockCount,
          (layoutOf image).length⟩) ∨
    (¬ (UInt16.ofNat (fieldAt 2 ((layoutOf image).region image) 10) =
        blockTypeEncryptedMetadataPointer ∧
      descriptorOffsetOf ((layoutOf image).region image) + 40 ≤ (layoutOf image).regionSize ∧
      0 < (layoutOf image).blockCount ∧
      (layoutOf image).blockCount ≤ maxEncryptedMetadataBlocks ∧
      (layoutOf image).primaryOffset < usizeSize) ∧
      ∃ e, locateEncryptedMetadata (.ofFields image) ((layoutOf image).region image) =
        fail e) := by
  rw [locateEncryptedMetadata_eq, hregion, layoutOf_blockSize, ← layoutOf_blockCount,
    ← layoutOf_primaryBlock]
  by_cases htype : UInt16.ofNat (fieldAt 2 ((layoutOf image).region image) 10) =
      blockTypeEncryptedMetadataPointer
  · rw [if_neg (by simpa)]
    by_cases hout : (layoutOf image).regionSize <
        descriptorOffsetOf ((layoutOf image).region image) + 40
    · exact .inr ⟨by omega, _, if_pos hout⟩
    rw [if_neg hout]
    by_cases hcount : (layoutOf image).blockCount = 0 ∨
        maxEncryptedMetadataBlocks < (layoutOf image).blockCount
    · exact .inr ⟨by omega, _, if_pos hcount⟩
    rw [if_neg hcount]
    by_cases hfits : usizeSize ≤ (layoutOf image).primaryBlock * (layoutOf image).blockSize
    · exact .inr ⟨by simp only [Layout.primaryOffset]; omega, _, if_pos hfits⟩
    · exact .inl ⟨htype, by omega, by omega, by omega,
        by simp only [Layout.primaryOffset]; omega, if_neg hfits⟩
  · exact .inr ⟨fun h => htype h.1, _, if_pos htype⟩

/-- An image is accepted, or loading it is an error; it never panics before the
decryption. -/
theorem accepted_or_fail (crates : Crates) (image : Bytes) :
    Accepted image (layoutOf image) ∨
      ¬ Accepted image (layoutOf image) ∧ ∃ e, loadMetadata crates image = fail e := by
  unfold loadMetadata imageMetadata imageLocation
  -- check by check, in the order of the run
  by_cases header_inside : volumeHeaderLen ≤ image.length
  swap
  · exact .inr ⟨fun h => header_inside h.header_inside, _,
      by rw [imageRange_short (by omega)]; rfl⟩
  rw [imageRange_eq (by omega), ok_bind]
  rcases parse_slice header_inside with ⟨signature, method, hparse⟩ | ⟨hbad, e, hparse⟩
  swap
  · exact .inr ⟨fun h => hbad ⟨h.signature, h.method⟩, e, by rw [hparse]; rfl⟩
  rw [hparse]
  simp only [ok_bind, layoutOf_regionOffset]
  rw [layoutOf_blockSize]
  by_cases block_pos : 0 < (layoutOf image).blockSize
  swap
  · exact .inr ⟨fun h => block_pos h.block_pos, _, by rw [if_pos (by omega)]; rfl⟩
  rw [if_neg (by omega)]
  by_cases block_inside : (layoutOf image).regionOffset + (layoutOf image).blockSize ≤ image.length
  swap
  · exact .inr ⟨fun h => block_inside h.block_inside, _,
      by rw [imageRange_short (by omega)]; rfl⟩
  rw [imageRange_eq block_inside, ok_bind,
    show slice image (layoutOf image).regionOffset (layoutOf image).blockSize =
      (layoutOf image).firstBlock image from rfl]
  rcases plaintextMetadataSize_cases block_pos with
    ⟨block_type, region_pos, region_cap, hsize⟩ | ⟨hbad, e, hsize⟩
  swap
  · exact .inr ⟨fun h => hbad ⟨h.block_type, h.region_pos, h.region_cap⟩, e,
      by rw [hsize]; rfl⟩
  rw [hsize, ok_bind]
  by_cases region_inside :
      (layoutOf image).regionOffset + (layoutOf image).regionSize ≤ image.length
  swap
  · exact .inr ⟨fun h => region_inside h.region_inside, _,
      by rw [imageRange_short (by omega)]; rfl⟩
  rw [imageRange_eq region_inside, ok_bind,
    show slice image (layoutOf image).regionOffset (layoutOf image).regionSize =
      (layoutOf image).region image from rfl]
  rcases locateEncryptedMetadata_cases image (slice_length_of_le region_inside) with
    ⟨region_type, descriptor_inside, count_pos, count_cap, primary_fits, hlocate⟩ |
      ⟨hbad, e, hlocate⟩
  swap
  · exact .inr ⟨fun h => hbad ⟨h.region_type, h.descriptor_inside, h.count_pos, h.count_cap,
      h.primary_fits⟩, e, by rw [hlocate]; rfl⟩
  by_cases primary_inside :
      (layoutOf image).primaryOffset + (layoutOf image).length ≤ image.length
  swap
  · refine .inr ⟨fun h => primary_inside h.primary_inside, .io .unexpectedEof, ?_⟩
    simp only [hlocate, ok_bind]
    rw [imageRange_short (by omega)]
    rfl
  · exact .inl ⟨header_inside, signature, method, block_pos, block_inside, block_type,
      region_pos, region_cap, region_inside, region_type, descriptor_inside, count_pos,
      count_cap, primary_fits, primary_inside⟩

namespace Accepted

theorem parse (h : Accepted image (layoutOf image)) :
    VolumeHeader.parse (slice image 0 volumeHeaderLen) = .ok (.ofFields image) := by
  rcases parse_slice h.header_inside with ⟨-, -, hok⟩ | ⟨hbad, -⟩
  · exact hok
  · exact absurd ⟨h.signature, h.method⟩ hbad

theorem size (h : Accepted image (layoutOf image)) :
    plaintextMetadataSize (.ofFields image) ((layoutOf image).firstBlock image) =
      .ok (layoutOf image).regionSize := by
  rcases plaintextMetadataSize_cases h.block_pos with ⟨-, -, -, hok⟩ | ⟨hbad, -⟩
  · exact hok
  · exact absurd ⟨h.block_type, h.region_pos, h.region_cap⟩ hbad

theorem locate (h : Accepted image (layoutOf image)) :
    locateEncryptedMetadata (.ofFields image) ((layoutOf image).region image) =
      .ok ⟨(layoutOf image).primaryOffset, (layoutOf image).blockCount,
        (layoutOf image).length⟩ := by
  rcases locateEncryptedMetadata_cases image (slice_length_of_le h.region_inside) with
    ⟨-, -, -, -, -, hok⟩ | ⟨hbad, -⟩
  · exact hok
  · exact absurd ⟨h.region_type, h.descriptor_inside, h.count_pos, h.count_cap,
      h.primary_fits⟩ hbad

/-- The length of the encrypted metadata of an accepted image. -/
theorem length_lt (h : Accepted image (layoutOf image)) : (layoutOf image).length < 2 ^ 52 := by
  have hbs : (layoutOf image).blockSize < 2 ^ 32 := fieldAt_lt 4 image 96
  have hcap : maxEncryptedMetadataBlocks = 2 ^ 20 := by decide
  have hcount := h.count_cap
  calc (layoutOf image).blockCount * (layoutOf image).blockSize
      ≤ 2 ^ 20 * (layoutOf image).blockSize := Nat.mul_le_mul_right _ (by omega)
    _ < 2 ^ 52 := by omega

end Accepted

end

/-! ## The bytes that are read -/

/-- The four ranges a run over an accepted image reads, in order. -/
def Layout.ranges (layout : Layout) : List (Nat × Nat) :=
  [(0, volumeHeaderLen), (layout.regionOffset, layout.blockSize),
    (layout.regionOffset, layout.regionSize), (layout.primaryOffset, layout.length)]

/-- What another image gives that shows the same bytes wherever it has the ranges of
an accepted one: the decryption of the same ciphertext if it has them all, the
error of a short read otherwise. -/
theorem Accepted.load_of_same (crates : Crates) {image other : Bytes}
    (h : Accepted image (layoutOf image))
    (same : ∀ r ∈ (layoutOf image).ranges, r.1 + r.2 ≤ other.length →
      slice other r.1 r.2 = slice image r.1 r.2) :
    loadMetadata crates other =
      if ∀ r ∈ (layoutOf image).ranges, r.1 + r.2 ≤ other.length then do
        let plaintext ← decryptMetadata crates (.ofFields image)
          (slice image (layoutOf image).primaryOffset (layoutOf image).length)
        return (.ofFields image, plaintext)
      else fail (.io .unexpectedEof) := by
  simp only [Layout.ranges, List.forall_mem_cons, List.not_mem_nil, false_implies, implies_true,
    and_true] at same ⊢
  obtain ⟨sameHeader, sameBlock, sameRegion, sameCipher⟩ := same
  unfold loadMetadata imageMetadata imageLocation
  -- range by range, in the order of the run
  by_cases header_inside : 0 + volumeHeaderLen ≤ other.length
  swap
  · rw [imageRange_short (by omega), if_neg (fun hall => header_inside hall.1)]
    rfl
  rw [imageRange_eq header_inside, sameHeader header_inside, ok_bind, h.parse]
  simp only [ok_bind, layoutOf_regionOffset]
  rw [layoutOf_blockSize, if_neg (by have := h.block_pos; omega)]
  by_cases block_inside :
      (layoutOf image).regionOffset + (layoutOf image).blockSize ≤ other.length
  swap
  · rw [imageRange_short (by omega), if_neg (fun hall => block_inside hall.2.1)]
    rfl
  rw [imageRange_eq block_inside, sameBlock block_inside, ok_bind]
  rw [show slice image (layoutOf image).regionOffset (layoutOf image).blockSize =
    (layoutOf image).firstBlock image from rfl, h.size, ok_bind]
  by_cases region_inside :
      (layoutOf image).regionOffset + (layoutOf image).regionSize ≤ other.length
  swap
  · rw [imageRange_short (by omega), if_neg (fun hall => region_inside hall.2.2.1)]
    rfl
  rw [imageRange_eq region_inside, sameRegion region_inside, ok_bind,
    show slice image (layoutOf image).regionOffset (layoutOf image).regionSize =
      (layoutOf image).region image from rfl, h.locate]
  simp only [ok_bind]
  by_cases primary_inside :
      (layoutOf image).primaryOffset + (layoutOf image).length ≤ other.length
  swap
  · rw [imageRange_short (by omega), if_neg (fun hall => primary_inside hall.2.2.2)]
    rfl
  · rw [imageRange_eq primary_inside, sameCipher primary_inside, ok_bind,
      if_pos ⟨header_inside, block_inside, region_inside, primary_inside⟩]

/-- Loading an accepted image is the decryption of its metadata. -/
theorem Accepted.load (crates : Crates) {image : Bytes} (h : Accepted image (layoutOf image)) :
    loadMetadata crates image = do
      let plaintext ← decryptMetadata crates (.ofFields image)
        (slice image (layoutOf image).primaryOffset (layoutOf image).length)
      return (.ofFields image, plaintext) := by
  rw [h.load_of_same crates (fun _ _ _ => rfl), if_pos]
  have := h.header_inside
  simp only [Layout.ranges, List.forall_mem_cons, List.not_mem_nil, false_implies, implies_true,
    and_true]
  exact ⟨by omega, h.block_inside, h.region_inside, h.primary_inside⟩

/-- An image whose metadata loads is an accepted one. -/
theorem accepted_of_load {crates : Crates} {image : Bytes} {loaded : VolumeHeader × Bytes}
    (h : loadMetadata crates image = .ok loaded) : Accepted image (layoutOf image) := by
  rcases accepted_or_fail crates image with hacc | ⟨-, e, hfail⟩
  · exact hacc
  · simp [hfail, fail] at h

end FileVault
