import FileVault.Logic.Load

/-!
# Which metadata regions are accepted

The readers return zero for a field that is not there, and nothing checks that the
region is long enough to hold the offset of its descriptor. It is never missed: a
region that ends before the offset is read as one whose descriptor lies at its
start, and there the type of the block itself is part of the block count and pushes
it past the cap.
-/

namespace FileVault

open Lib

/-- The number spelled by the bytes of a field. -/
def numberAt (width : Nat) (data : Bytes) (off : Nat) : Nat := leNat (slice data off width)

/-- The region has a descriptor that says where the encrypted metadata is, and every
field on the way to it lies inside the region. -/
structure LocatesMetadata (header : VolumeHeader) (region : Bytes) : Prop where
  offset_inside : 224 ≤ region.length
  block_type : numberAt 2 region 10 = 0x0011
  descriptor_inside : numberAt 4 region 220 + 40 ≤ region.length
  count_pos : 1 ≤ numberAt 8 region (numberAt 4 region 220 + 8)
  count_cap : numberAt 8 region (numberAt 4 region 220 + 8) ≤ 2 ^ 20
  primary_fits : numberAt 8 region (numberAt 4 region 220 + 32) % 2 ^ 48 *
    header.blockSize.toNat < 2 ^ 64

/-- What is located then. -/
def locationOf (header : VolumeHeader) (region : Bytes) : EncryptedMetadataLocation where
  primaryOffset := numberAt 8 region (numberAt 4 region 220 + 32) % 2 ^ 48 *
    header.blockSize.toNat
  blockCount := numberAt 8 region (numberAt 4 region 220 + 8)
  length := numberAt 8 region (numberAt 4 region 220 + 8) * header.blockSize.toNat

/-- The first block is a pointer block with a region size that passes the caps, and the
size lies inside it. -/
structure AnnouncesRegion (header : VolumeHeader) (firstBlock : Bytes) : Prop where
  size_inside : 68 ≤ firstBlock.length
  block_type : numberAt 2 firstBlock 10 = 0x0011
  block_pos : 0 < header.blockSize.toNat
  size_pos : 0 < numberAt 4 firstBlock 64
  size_cap : numberAt 4 firstBlock 64 / header.blockSize.toNat ≤ 2 ^ 20

theorem fieldAt_eq_numberAt {width off : Nat} {data : Bytes} (h : off + width ≤ data.length) :
    fieldAt width data off = numberAt width data off := if_pos h

theorem fieldAt_outside {width off : Nat} {data : Bytes} (h : data.length < off + width) :
    fieldAt width data off = 0 := if_neg (by omega)

/-- What is refused is not accepted. -/
theorem refused_iff {α : Type} {e : FileVaultError} {a : α} {P Q : Prop} (h : ¬ P) :
    (fail e : Run α) = .ok a ↔ P ∧ Q := by
  simp [fail, h]

/-- The type check is about the two bytes of the type, and they are there. -/
theorem blockType_iff (data : Bytes) :
    UInt16.ofNat (fieldAt 2 data 10) = blockTypeEncryptedMetadataPointer ↔
      12 ≤ data.length ∧ numberAt 2 data 10 = 0x0011 := by
  have hlt : fieldAt 2 data 10 < 65536 := fieldAt_lt 2 data 10
  have hnumber : UInt16.ofNat (fieldAt 2 data 10) = blockTypeEncryptedMetadataPointer ↔
      fieldAt 2 data 10 = 0x0011 := by
    rw [← UInt16.toNat_inj, UInt16.toNat_ofNat', Nat.mod_eq_of_lt (by omega)]
    rfl
  rw [hnumber]
  by_cases hlen : 12 ≤ data.length
  · rw [fieldAt_eq_numberAt (by omega)]
    exact ⟨fun h => ⟨hlen, h⟩, fun h => h.2⟩
  · rw [fieldAt_outside (by omega)]
    exact ⟨fun h => absurd h (by decide), fun h => absurd h.1 hlen⟩

/-- At the start of a pointer block the type is part of what would be the count. -/
theorem numberAt_eight_large {region : Bytes} (hlen : 16 ≤ region.length)
    (htype : numberAt 2 region 10 = 0x0011) : 2 ^ 20 < numberAt 8 region 8 := by
  have split : slice region 8 8 =
      slice region 8 2 ++ (slice region 10 2 ++ slice region 12 4) := by
    rw [← slice_add region 10 2 4, ← slice_add region 8 2 (2 + 4)]
  have hlow : (slice region 8 2).length = 2 := slice_length_of_le (by omega)
  have hmid : (slice region 10 2).length = 2 := slice_length_of_le (by omega)
  unfold numberAt at htype ⊢
  rw [split, leNat_append, leNat_append, hlow, hmid, htype]
  omega

/-- A region without a place for the descriptor offset is never accepted. -/
theorem blockCount_of_short {region : Bytes} (hshort : region.length < 224)
    (hdescriptor : descriptorOffsetOf region + 40 ≤ region.length)
    (htype : numberAt 2 region 10 = 0x0011) : 2 ^ 20 < blockCountOf region := by
  have hzero : descriptorOffsetOf region = 0 := fieldAt_outside (by omega)
  rw [blockCountOf, hzero, Nat.zero_add, fieldAt_eq_numberAt (by omega)]
  exact numberAt_eight_large (by omega) htype

/-- The descriptor of an accepted region is read from inside it. -/
theorem locateEncryptedMetadata_ok_iff (header : VolumeHeader) (region : Bytes)
    (location : EncryptedMetadataLocation) :
    locateEncryptedMetadata header region = .ok location ↔
      LocatesMetadata header region ∧ location = locationOf header region := by
  have usize := usizeSize_eq
  have hcap : maxEncryptedMetadataBlocks = 2 ^ 20 := by decide
  rw [locateEncryptedMetadata_eq]
  by_cases htype : UInt16.ofNat (fieldAt 2 region 10) = blockTypeEncryptedMetadataPointer
  swap
  · rw [if_pos htype]
    refine refused_iff fun located => htype ((blockType_iff region).mpr ⟨?_, located.block_type⟩)
    have := located.offset_inside
    omega
  obtain ⟨hlen, hnumber⟩ := (blockType_iff region).mp htype
  rw [if_neg (not_not.mpr htype)]
  by_cases hshort : region.length < 224
  · -- the offset is read as zero, and the region is refused for another reason
    constructor
    · intro h
      by_cases hout : region.length < descriptorOffsetOf region + 40
      · rw [if_pos hout] at h
        simp [fail] at h
      · have hlarge := blockCount_of_short hshort (by omega) hnumber
        rw [if_neg hout, if_pos (by omega)] at h
        simp [fail] at h
    · rintro ⟨located, -⟩
      exact absurd located.offset_inside (by omega)
  have hoffset : descriptorOffsetOf region = numberAt 4 region 220 :=
    fieldAt_eq_numberAt (by omega)
  by_cases hout : region.length < descriptorOffsetOf region + 40
  · rw [if_pos hout]
    exact refused_iff fun located => absurd located.descriptor_inside (by omega)
  rw [if_neg hout]
  have hcount : blockCountOf region = numberAt 8 region (numberAt 4 region 220 + 8) := by
    rw [blockCountOf, hoffset, fieldAt_eq_numberAt (by omega)]
  have hprimary : primaryBlockOf region =
      numberAt 8 region (numberAt 4 region 220 + 32) % 2 ^ 48 := by
    rw [primaryBlockOf, hoffset, fieldAt_eq_numberAt (by omega)]
  rw [hcount, hprimary]
  by_cases hbad : numberAt 8 region (numberAt 4 region 220 + 8) = 0 ∨
      maxEncryptedMetadataBlocks < numberAt 8 region (numberAt 4 region 220 + 8)
  · rw [if_pos hbad]
    refine refused_iff ?_
    intro located
    have := located.count_pos
    have := located.count_cap
    omega
  rw [if_neg hbad]
  by_cases hfits : usizeSize ≤ numberAt 8 region (numberAt 4 region 220 + 32) % 2 ^ 48 *
      header.blockSize.toNat
  · rw [if_pos hfits]
    refine refused_iff ?_
    intro located
    have := located.primary_fits
    omega
  rw [if_neg hfits, Except.ok.injEq]
  constructor
  · rintro rfl
    exact ⟨⟨by omega, hnumber, by omega, by omega, by omega, by omega⟩, rfl⟩
  · rintro ⟨-, rfl⟩
    rfl

/-- The size of an announced region is read from the pointer block. -/
theorem plaintextMetadataSize_ok_iff (header : VolumeHeader) (firstBlock : Bytes) (size : Nat) :
    plaintextMetadataSize header firstBlock = .ok size ↔
      AnnouncesRegion header firstBlock ∧ size = numberAt 4 firstBlock 64 := by
  have hcap : maxMetadataBlocks = 2 ^ 20 := by decide
  rw [plaintextMetadataSize_eq]
  by_cases htype : UInt16.ofNat (fieldAt 2 firstBlock 10) = blockTypeEncryptedMetadataPointer
  swap
  · rw [if_pos htype]
    refine refused_iff fun announced =>
      htype ((blockType_iff firstBlock).mpr ⟨?_, announced.block_type⟩)
    have := announced.size_inside
    omega
  obtain ⟨hlen, hnumber⟩ := (blockType_iff firstBlock).mp htype
  rw [if_neg (not_not.mpr htype)]
  by_cases hzero : header.blockSize.toNat = 0
  · rw [if_pos hzero]
    exact refused_iff fun announced => absurd announced.block_pos (by omega)
  rw [if_neg hzero]
  by_cases hshort : firstBlock.length < 68
  · rw [fieldAt_outside (by omega), if_pos (.inl rfl)]
    exact refused_iff fun announced => absurd announced.size_inside (by omega)
  rw [fieldAt_eq_numberAt (by omega)]
  by_cases hbad : numberAt 4 firstBlock 64 = 0 ∨
      maxMetadataBlocks < numberAt 4 firstBlock 64 / header.blockSize.toNat
  · rw [if_pos hbad]
    refine refused_iff ?_
    intro announced
    have := announced.size_pos
    have := announced.size_cap
    omega
  rw [if_neg hbad, Except.ok.injEq]
  constructor
  · rintro rfl
    exact ⟨⟨by omega, hnumber, by omega, by omega, by omega⟩, rfl⟩
  · rintro ⟨-, rfl⟩
    rfl

/-- `plaintext_metadata_size` and `locate_encrypted_metadata` accept exactly the well-formed input,
and what they return is read from inside it. -/
theorem metadata_location_exact (header : VolumeHeader) (region : Bytes) :
    (∀ location, locateEncryptedMetadata header region = .ok location ↔
      LocatesMetadata header region ∧ location = locationOf header region) ∧
    ∀ size, plaintextMetadataSize header region = .ok size ↔
      AnnouncesRegion header region ∧ size = numberAt 4 region 64 :=
  ⟨locateEncryptedMetadata_ok_iff header region, plaintextMetadataSize_ok_iff header region⟩

end FileVault
