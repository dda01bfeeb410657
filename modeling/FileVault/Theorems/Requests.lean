import FileVault.Logic.Layout
import FileVault.Logic.Primitives
import FileVault.Logic.Requests
import FileVault.Logic.TestSupport
import FileVault.Theorems.MetadataLocation

/-!
# Buffers longer than the image

`decrypt_metadata_region` allocates each of its three buffers before the read that would
show that the image is too short for it. So its requests are bounded by the image
exactly when the fields that are decoded on the way are.
-/

namespace FileVault

open Lib

/-- No run over the image asks for a buffer longer than the image, and a run that does not
ask for all three is rejected. -/
def BoundedRequests (crates : Crates) (header : VolumeHeader) (image : Bytes) : Prop :=
  ∀ reader : Reader, reader.data = image →
    (∀ n ∈ regionRequests crates reader header, n ≤ image.length) ∧
    ((regionRequests crates reader header).length < 3 →
      ∃ e, decryptMetadataRegion crates reader header = fail e)

/-- Where the plaintext region of an image starts: at the first of the block numbers. -/
def regionOffsetUnder (header : VolumeHeader) : Nat :=
  min (header.metadataBlockNumbers.head.toNat * header.blockSize.toNat) (2 ^ 64 - 1)

/-- The bytes of the pointer block. -/
def pointerBlockUnder (header : VolumeHeader) (image : Bytes) : Bytes :=
  slice image (regionOffsetUnder header) header.blockSize.toNat

/-- The number in the pointer block that stands for the size of the region. -/
def regionSizeUnder (header : VolumeHeader) (image : Bytes) : Nat :=
  numberAt 4 (pointerBlockUnder header image) 64

/-- The bytes of the region. -/
def regionUnder (header : VolumeHeader) (image : Bytes) : Bytes :=
  slice image (regionOffsetUnder header) (regionSizeUnder header image)

/-- The pointer block lies in the image, and it announces a region whose size the cap allows. -/
structure PointerInside (header : VolumeHeader) (image : Bytes) : Prop where
  block_inside : regionOffsetUnder header + header.blockSize.toNat ≤ image.length
  announces : AnnouncesRegion header (pointerBlockUnder header image)

/-- The region lies in the image as well, with a descriptor in it, and the number of encrypted
blocks is one that the cap allows. -/
structure DescriptorInside (header : VolumeHeader) (image : Bytes) : Prop
    extends PointerInside header image where
  region_inside : regionOffsetUnder header + regionSizeUnder header image ≤ image.length
  locates : LocatesMetadata header (regionUnder header image)

/-- The block size is no longer than the image. Nor is the region size, where the pointer block
lies in the image and announces it. Nor are the encrypted blocks, of which the descriptor has the
number, where it lies in the image with its region. -/
structure FieldsFit (header : VolumeHeader) (image : Bytes) : Prop where
  blockSize : header.blockSize.toNat ≤ image.length
  regionSize : PointerInside header image → regionSizeUnder header image ≤ image.length
  length : DescriptorInside header image →
    numberAt 8 (regionUnder header image) (numberAt 4 (regionUnder header image) 220 + 8) *
      header.blockSize.toNat ≤ image.length

section

variable {header : VolumeHeader} {image : Bytes}

theorem plaintextMetadataRegion_eq (header : VolumeHeader) :
    (plaintextMetadataRegion header).1 = regionOffsetUnder header := by
  have head : header.metadataBlockNumbers.toList.head?.getD 0 =
      header.metadataBlockNumbers.head := by
    obtain ⟨numbers, hnumbers⟩ := header.metadataBlockNumbers
    cases numbers with
    | nil => cases hnumbers
    | cons number numbers => rfl
  show saturatingMul (header.metadataBlockNumbers.toList.head?.getD 0).toNat _ = _
  rw [head]
  rfl

theorem imageRange_ok_iff {off n : Nat} {bytes : Bytes} :
    imageRange image off n = .ok bytes ↔ off + n ≤ image.length ∧ bytes = slice image off n := by
  by_cases inside : off + n ≤ image.length
  · rw [imageRange_eq inside, Except.ok.injEq]
    exact ⟨fun h => ⟨inside, h.symm⟩, fun h => h.2.symm⟩
  · rw [imageRange_short (by omega)]
    constructor
    · intro h
      cases h
    · intro h
      exact absurd h.1 inside

/-- The region size that the code takes from an image is the number, where the pointer block lies
in the image and announces it. -/
theorem imageRegionSize_ok_iff {n : Nat} :
    imageRegionSize header image = .ok n ↔
      PointerInside header image ∧ n = regionSizeUnder header image := by
  unfold imageRegionSize
  simp only [plaintextMetadataRegion_eq]
  constructor
  · intro h
    split at h
    · cases h
    · obtain ⟨firstBlock, hblock, hsize⟩ := bind_eq_ok.mp h
      obtain ⟨inside, rfl⟩ := imageRange_ok_iff.mp hblock
      obtain ⟨announces, rfl⟩ := (plaintextMetadataSize_ok_iff ..).mp hsize
      exact ⟨⟨inside, announces⟩, rfl⟩
  · rintro ⟨pointer, rfl⟩
    rw [if_neg pointer.announces.block_pos.ne']
    exact bind_eq_ok.mpr ⟨_, imageRange_ok_iff.mpr ⟨pointer.block_inside, rfl⟩,
      (plaintextMetadataSize_ok_iff ..).mpr ⟨pointer.announces, rfl⟩⟩

/-- The encrypted metadata that the code locates in an image is that of the descriptor, where it
lies in the image with its region. -/
theorem imageLocation_ok_iff {location : EncryptedMetadataLocation} :
    imageLocation header image = .ok location ↔
      DescriptorInside header image ∧ location = locationOf header (regionUnder header image) := by
  have stages : imageLocation header image = imageRegionSize header image >>= fun regionSize =>
      imageRange image (regionOffsetUnder header) regionSize >>= fun region =>
        locateEncryptedMetadata header region := by
    unfold imageLocation imageRegionSize
    simp only [plaintextMetadataRegion_eq]
    split
    · rfl
    · rw [bind_assoc]
  rw [stages]
  constructor
  · intro h
    obtain ⟨size, hsize, h⟩ := bind_eq_ok.mp h
    obtain ⟨pointer, rfl⟩ := imageRegionSize_ok_iff.mp hsize
    obtain ⟨region, hregion, hlocate⟩ := bind_eq_ok.mp h
    obtain ⟨inside, rfl⟩ := imageRange_ok_iff.mp hregion
    obtain ⟨locates, rfl⟩ := (locateEncryptedMetadata_ok_iff ..).mp hlocate
    exact ⟨⟨pointer, inside, locates⟩, rfl⟩
  · rintro ⟨descriptor, rfl⟩
    refine bind_eq_ok.mpr
      ⟨_, imageRegionSize_ok_iff.mpr ⟨descriptor.toPointerInside, rfl⟩, ?_⟩
    exact bind_eq_ok.mpr ⟨_, imageRange_ok_iff.mpr ⟨descriptor.region_inside, rfl⟩,
      (locateEncryptedMetadata_ok_iff ..).mpr ⟨descriptor.locates, rfl⟩⟩

end

theorem fieldsFit_iff (header : VolumeHeader) (image : Bytes) :
    FieldsFit header image ↔ ∀ n, Spelled header image n → n ≤ image.length := by
  constructor
  · rintro fit n (rfl | hsize | ⟨location, hlocation, rfl⟩)
    · exact fit.blockSize
    · obtain ⟨inside, rfl⟩ := imageRegionSize_ok_iff.mp hsize
      exact fit.regionSize inside
    · obtain ⟨inside, rfl⟩ := imageLocation_ok_iff.mp hlocation
      exact fit.length inside
  · intro h
    exact ⟨h _ (.inl rfl),
      fun inside => h _ (.inr (.inl (imageRegionSize_ok_iff.mpr ⟨inside, rfl⟩))),
      fun inside => h _ (.inr (.inr ⟨_, imageLocation_ok_iff.mpr ⟨inside, rfl⟩, rfl⟩))⟩

/-- Nothing is decoded with a block size of zero. -/
theorem fieldsFit_of_zero {header : VolumeHeader} (image : Bytes)
    (hzero : header.blockSize.toNat = 0) : FieldsFit header image where
  blockSize := hzero.le.trans (Nat.zero_le _)
  regionSize inside := absurd hzero inside.announces.block_pos.ne'
  length inside := absurd hzero inside.announces.block_pos.ne'

/-- A field that does not fit is the length of a request of the run over the image in
memory. -/
theorem not_boundedRequests {crates : Crates} {header : VolumeHeader} {image : Bytes}
    (h : ¬ FieldsFit header image) : ¬ BoundedRequests crates header image := by
  intro bounded
  apply h
  by_cases hzero : header.blockSize.toNat = 0
  · exact fieldsFit_of_zero image hzero
  obtain ⟨requests, -⟩ := bounded (.cursor image) rfl
  exact (fieldsFit_iff header image).mpr fun n spelled =>
    requests n (requested_of_spelled crates (Reader.healthy_cursor image) hzero spelled)

/-- The requests of every run over an image are bounded by its length exactly when its
fields are. -/
theorem boundedRequests_iff (crates : Crates) (header : VolumeHeader) (image : Bytes) :
    BoundedRequests crates header image ↔ FieldsFit header image := by
  constructor
  · intro bounded
    by_contra h
    exact not_boundedRequests h bounded
  · rintro fit reader rfl
    refine ⟨fun n requested => ?_, error_of_few_requests⟩
    exact (fieldsFit_iff header reader.data).mp fit n (spelled_of_requested requested)

/-- A header and nothing else, with the largest block size. -/
def bombImage : Bytes := filled 512 [
  (88, [0x43, 0x53]),
  (96, leBytes 4 0xffffffff),
  (172, leBytes 4 2)]

/-- 512 bytes make the code ask for 4 GiB. -/
theorem bombImage_unbounded :
    VolumeHeader.parse bombImage = .ok (.ofFields bombImage) ∧
      ¬ BoundedRequests standardCrates (.ofFields bombImage) bombImage := by
  refine ⟨by decide +kernel, not_boundedRequests ?_⟩
  intro fit
  have blockSize : (VolumeHeader.ofFields bombImage).blockSize.toNat = 0xffffffff := by
    decide +kernel
  have length : bombImage.length = 512 := by decide +kernel
  have bound := fit.blockSize
  omega

end FileVault
