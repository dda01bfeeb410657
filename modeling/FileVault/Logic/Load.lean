import FileVault.Logic.Backing
import FileVault.Logic.SegmentMap

/-!
# The steps the two pipelines share

`unlock_with_password` and `parse_info` begin with the same reads: header, pointer
block, encrypted metadata. `loadVolume` is that prefix, and both pipelines are it
followed by their own pure ending. Over a healthy reader the prefix is a function
of the image alone, `loadMetadata`.
-/

namespace FileVault

open Lib

/-- The common prefix of both pipelines: the header, the decrypted metadata, and
the reader after them. -/
def loadVolume (crates : Crates) (reader : Reader) : Run (VolumeHeader × Bytes × Reader) := do
  let reader ← seekStart reader 0
  let (headerBytes, reader) ← readExactOrErr reader (List.replicate volumeHeaderLen 0)
  let header ← VolumeHeader.parse headerBytes
  let (plaintext, reader) ← decryptMetadataRegion crates reader header
  return (header, plaintext, reader)

/-- The ending of `parse_info`. -/
def describe (crates : Crates) (header : VolumeHeader) (plaintext : Bytes) :
    Run FileVaultInfo := do
  let context ← EncryptionContext.extract crates plaintext
  let lv ← LogicalVolumeInfo.extract plaintext
  let (_, size) ← resolveLvExtent plaintext header lv
  return buildInfo crates header context lv size

/-- The ending of `unlock_with_password`. -/
def openVolume (crates : Crates) (password : String) (header : VolumeHeader)
    (plaintext : Bytes) (reader : Reader) : Run FileVaultVolume := do
  let context ← EncryptionContext.extract crates plaintext
  let lv ← LogicalVolumeInfo.extract plaintext
  let familyUuidBytes ← okOr (parseUuidBytes crates lv.familyUuid)
    (.metadataStructureMissing "parseable family UUID")
  let keys ← deriveVolumeKeys crates password context familyUuidBytes
  let (physicalBase, size) ← resolveLvExtent plaintext header lv
  let info := buildInfo crates header context lv size
  return { decrypted := .new reader keys physicalBase size, info }

theorem parseInfo_eq (crates : Crates) (reader : Reader) :
    parseInfo crates reader = (do
      let (header, plaintext, _) ← loadVolume crates reader
      describe crates header plaintext) := by
  simp only [parseInfo, loadVolume, describe, bind_assoc, pure_bind]

theorem unlockWithPassword_eq (crates : Crates) (reader : Reader) (password : String) :
    unlockWithPassword crates reader password = (do
      let (header, plaintext, reader) ← loadVolume crates reader
      openVolume crates password header plaintext reader) := by
  simp only [unlockWithPassword, loadVolume, openVolume, bind_assoc, pure_bind]

/-! ## Pointer block and descriptor -/

/-- `plaintext_metadata_size` never panics. -/
theorem plaintextMetadataSize_eq (header : VolumeHeader) (firstBlock : Bytes) :
    plaintextMetadataSize header firstBlock =
      if UInt16.ofNat (fieldAt 2 firstBlock 10) ≠ blockTypeEncryptedMetadataPointer then
        fail (.metadataStructureMissing "0x0011 encrypted-metadata pointer block")
      else if header.blockSize.toNat = 0 then fail (.outOfRange "block size is zero")
      else if fieldAt 4 firstBlock 64 = 0 ∨
          maxMetadataBlocks < fieldAt 4 firstBlock 64 / header.blockSize.toNat then
        fail (.outOfRange "plaintext metadata region size")
      else .ok (fieldAt 4 firstBlock 64) := by
  have usize := usizeSize_eq
  unfold plaintextMetadataSize
  rw [leU16_eq _ (by decide), leU32_eq _ (by decide)]
  simp only [ok_bind, pure_run, toNat_fieldAt_u32, blockHeaderTypeOffset, blockHeaderSize,
    payloadMetadataSizeOffset, Nat.add_zero]

/-- The region the pointer block announces is a `u32` long, and not empty. -/
theorem plaintextMetadataSize_ok {header : VolumeHeader} {firstBlock : Bytes} {size : Nat}
    (h : plaintextMetadataSize header firstBlock = .ok size) : 0 < size ∧ size < 2 ^ 32 := by
  have := fieldAt_lt 4 firstBlock 64
  rw [plaintextMetadataSize_eq] at h
  split at h
  · simp [fail] at h
  split at h
  · simp [fail] at h
  split at h
  · simp [fail] at h
  · next hsize =>
      obtain rfl := Except.ok.inj h
      omega

/-- Masking a 48-bit block field drops the volume index in its top 16 bits. -/
theorem and_blockNumberMask (x : UInt64) : (x &&& blockNumberMask).toNat = x.toNat % 2 ^ 48 := by
  rw [UInt64.toNat_and, show blockNumberMask.toNat = 2 ^ 48 - 1 by decide,
    Nat.and_two_pow_sub_one_eq_mod]

/-- The offset of the volume-groups descriptor in the region. -/
def descriptorOffsetOf (region : Bytes) : Nat := fieldAt 4 region 220

/-- The number of encrypted-metadata blocks the descriptor declares. -/
def blockCountOf (region : Bytes) : Nat := fieldAt 8 region (descriptorOffsetOf region + 8)

/-- The first encrypted-metadata block, without its volume index. -/
def primaryBlockOf (region : Bytes) : Nat :=
  fieldAt 8 region (descriptorOffsetOf region + 32) % 2 ^ 48

/-- `locate_encrypted_metadata` never panics, and its length product never overflows. -/
theorem locateEncryptedMetadata_eq (header : VolumeHeader) (region : Bytes) :
    locateEncryptedMetadata header region =
      if UInt16.ofNat (fieldAt 2 region 10) ≠ blockTypeEncryptedMetadataPointer then
        fail (.metadataStructureMissing "0x0011 encrypted-metadata pointer block")
      else if region.length < descriptorOffsetOf region + 40 then
        fail (.metadataStructureMissing "volume-groups descriptor (offset out of region)")
      else if blockCountOf region = 0 ∨ maxEncryptedMetadataBlocks < blockCountOf region then
        fail (.outOfRange "encrypted-metadata block count")
      else if usizeSize ≤ primaryBlockOf region * header.blockSize.toNat then
        fail (.outOfRange "encrypted-metadata primary offset")
      else .ok {
        primaryOffset := primaryBlockOf region * header.blockSize.toNat
        blockCount := blockCountOf region
        length := blockCountOf region * header.blockSize.toNat } := by
  have usize := usizeSize_eq
  have hd : descriptorOffsetOf region < 2 ^ 32 := fieldAt_lt 4 region 220
  have hdescriptor : (UInt32.ofNat (fieldAt 4 region 220)).toNat = descriptorOffsetOf region :=
    toNat_fieldAt_u32 region 220
  have hcount : (UInt64.ofNat (fieldAt 8 region (descriptorOffsetOf region + 8))).toNat =
      blockCountOf region := toNat_fieldAt_u64 region _
  have hprimary : (UInt64.ofNat (fieldAt 8 region (descriptorOffsetOf region + 32)) &&&
      blockNumberMask).toNat = primaryBlockOf region := by
    rw [and_blockNumberMask, toNat_fieldAt_u64, primaryBlockOf]
  have hmul := Nat.mul_le_mul (Nat.le_refl (blockCountOf region)) header.blockSize.toNat_lt.le
  unfold locateEncryptedMetadata
  rw [leU16_eq _ (by decide), leU32_eq _ (by decide)]
  simp only [ok_bind, pure_run, blockHeaderTypeOffset, blockHeaderSize, payloadVgDescriptorOffset,
    vgCountOffset, vgPrimaryBlockOffset, Nat.reduceAdd, hdescriptor]
  rw [checkedAdd_eq (by omega), leU64_eq _ (by omega), leU64_eq _ (by omega)]
  simp only [ok_bind, Option.all_some, decide_eq_true_eq, hcount, hprimary]
  by_cases htype : UInt16.ofNat (fieldAt 2 region 10) ≠ blockTypeEncryptedMetadataPointer
  · rw [if_pos htype, if_pos htype]
  rw [if_neg htype, if_neg htype]
  by_cases hout : region.length < descriptorOffsetOf region + 40
  · rw [if_pos hout, if_pos hout]
  rw [if_neg hout, if_neg hout]
  by_cases hbad : blockCountOf region = 0 ∨ maxEncryptedMetadataBlocks < blockCountOf region
  · rw [if_pos hbad, if_pos hbad]
  rw [if_neg hbad, if_neg hbad]
  have hcap : maxEncryptedMetadataBlocks = 2 ^ 20 := by decide
  by_cases hfits : usizeSize ≤ primaryBlockOf region * header.blockSize.toNat
  · rw [if_pos hfits, checkedMul, if_neg (by omega)]
    rfl
  · rw [if_neg hfits, checkedMul, if_pos (by omega), okOr_some, ok_bind, checkedMul,
      if_pos (by omega)]
    rfl

/-- What is located: at least one block, and no more than the cap. -/
theorem locateEncryptedMetadata_ok {header : VolumeHeader} {region : Bytes}
    {location : EncryptedMetadataLocation}
    (h : locateEncryptedMetadata header region = .ok location) :
    0 < location.blockCount ∧ location.blockCount ≤ 2 ^ 20 ∧
      location.length = location.blockCount * header.blockSize.toNat := by
  have hcap : maxEncryptedMetadataBlocks = 2 ^ 20 := by decide
  rw [locateEncryptedMetadata_eq] at h
  split at h
  · simp [fail] at h
  split at h
  · simp [fail] at h
  split at h
  · simp [fail] at h
  split at h
  · simp [fail] at h
  · obtain rfl := Except.ok.inj h
    exact ⟨by simp only; omega, by simp only; omega, rfl⟩

/-! ## The region of an image -/

/-- The bytes of a range of the image; a range that is not all there is the short
read that `read_exact` reports. -/
def imageRange (image : Bytes) (off n : Nat) : Run Bytes :=
  if off + n ≤ image.length then .ok (slice image off n) else fail (.io .unexpectedEof)

/-- `decrypt_metadata_region` up to the location of the ciphertext. -/
def imageLocation (header : VolumeHeader) (image : Bytes) : Run EncryptedMetadataLocation := do
  let (regionOffset, _) := plaintextMetadataRegion header
  if header.blockSize.toNat = 0 then
    fail (.outOfRange "block size is zero")
  else
    let firstBlock ← imageRange image regionOffset header.blockSize.toNat
    let regionSize ← plaintextMetadataSize header firstBlock
    let region ← imageRange image regionOffset regionSize
    locateEncryptedMetadata header region

/-- `decrypt_metadata_region` over an image. -/
def imageMetadata (crates : Crates) (header : VolumeHeader) (image : Bytes) : Run Bytes := do
  let location ← imageLocation header image
  let ciphertext ← imageRange image location.primaryOffset location.length
  decryptMetadata crates header ciphertext

/-- `loadVolume` over an image. -/
def loadMetadata (crates : Crates) (image : Bytes) : Run (VolumeHeader × Bytes) := do
  let headerBytes ← imageRange image 0 volumeHeaderLen
  let header ← VolumeHeader.parse headerBytes
  let plaintext ← imageMetadata crates header image
  return (header, plaintext)

/-- A seek and an exact read. -/
def seekRead (reader : Reader) (offset : Nat) (buf : Bytes) : Run (Bytes × Reader) := do
  let reader ← seekStart reader offset
  readExactOrErr reader buf

/-- A seek and a read give a range of the data, or the I/O error of a reader that fails. -/
theorem seekRead_outcome (reader : Reader) (offset : Nat) {n : Nat} (hn : 0 < n) :
    (∃ reader', reader.Serves reader' ∧ seekRead reader offset (List.replicate n 0) =
      imageRange reader.data offset n >>= fun bytes => .ok (bytes, reader')) ∨
    ∃ e reader', reader.FailedBefore reader' ∧
      seekRead reader offset (List.replicate n 0) = fail (.io e) := by
  obtain ⟨sought, reader₁, hseek⟩ : ∃ sought reader₁, reader.seek offset = (sought, reader₁) :=
    ⟨_, _, rfl⟩
  unfold seekRead
  rcases Reader.seek_outcome hseek with ⟨serves, hpos, rfl⟩ | ⟨failed, -, e, rfl⟩
  swap
  · refine .inr ⟨e, reader₁, failed, ?_⟩
    simp only [seekStart, hseek, fail_bind]
  have hstart : seekStart reader offset = .ok reader₁ := by
    rw [seekStart, hseek]
  have hlen : (List.replicate n (0 : UInt8)).length = n := List.length_replicate
  rw [hstart, ok_bind, readExactOrErr]
  rcases reader₁.readExact_outcome (Nat.zero_le (List.replicate n (0 : UInt8)).length) with
    ⟨reader₂, later, inside, hread⟩ | ⟨buf', reader₂, later, -, past, hread⟩ |
      ⟨e, buf', reader₂, failed, -, hread⟩
  · rw [hlen, hpos, serves.data] at inside
    rw [hlen, hpos, serves.data, Nat.sub_zero,
      splice_all (by rw [hlen, slice_length_of_le (by omega)])] at hread
    refine .inl ⟨reader₂, serves.trans later, ?_⟩
    rw [hread, imageRange, if_pos (by omega)]
    rfl
  · rw [hlen, hpos, serves.data] at past
    refine .inl ⟨reader₂, serves.trans later, ?_⟩
    rw [hread, imageRange, if_neg (by omega)]
    rfl
  · refine .inr ⟨e, reader₂, serves.failed failed, ?_⟩
    rw [hread]

/-- A seek and a read in front of what comes next. -/
theorem seek_readExact_outcome (reader : Reader) (offset : Nat) {n : Nat} (hn : 0 < n) :
    (∃ reader', reader.Serves reader' ∧ ∀ {β : Type} (f : Bytes × Reader → Run β),
      (seekStart reader offset >>= fun reader =>
        readExactOrErr reader (List.replicate n 0) >>= f) =
      imageRange reader.data offset n >>= fun bytes => f (bytes, reader')) ∨
    ∃ e reader', reader.FailedBefore reader' ∧ ∀ {β : Type} (f : Bytes × Reader → Run β),
      (seekStart reader offset >>= fun reader =>
        readExactOrErr reader (List.replicate n 0) >>= f) = fail (.io e) := by
  have front {β : Type} (f : Bytes × Reader → Run β) :
      (seekStart reader offset >>= fun reader =>
        readExactOrErr reader (List.replicate n 0) >>= f) =
      seekRead reader offset (List.replicate n 0) >>= f := by
    rw [seekRead, bind_assoc]
  rcases seekRead_outcome reader offset hn with ⟨reader', serves, h⟩ | ⟨e, reader', failed, h⟩
  · refine .inl ⟨reader', serves, ?_⟩
    intro β f
    rw [front, h, bind_assoc]
    rfl
  · exact .inr ⟨e, reader', failed, fun f => by rw [front, h, fail_bind]⟩

/-- `decrypt_metadata_region` is a function of the image, unless the reader fails. -/
theorem decryptMetadataRegion_outcome (crates : Crates) (reader : Reader)
    (header : VolumeHeader) :
    (∃ reader', reader.Serves reader' ∧ decryptMetadataRegion crates reader header =
      imageMetadata crates header reader.data >>= fun plaintext =>
        .ok (plaintext, reader')) ∨
    ∃ e reader', reader.FailedBefore reader' ∧
      decryptMetadataRegion crates reader header = fail (.io e) := by
  have isize := isizeMax_eq
  have hbs := header.blockSize.toNat_lt
  unfold decryptMetadataRegion imageMetadata imageLocation
  simp only
  by_cases hzero : header.blockSize.toNat = 0
  · exact .inl ⟨reader, .refl _, by rw [if_pos hzero, if_pos hzero]; rfl⟩
  simp only [if_neg hzero, bind_assoc]
  rw [vecZeroed_eq (by omega), ok_bind]
  -- each of the three reads is served, or the run ends with its failure
  rcases seek_readExact_outcome reader (plaintextMetadataRegion header).1
    (Nat.pos_of_ne_zero hzero) with ⟨reader₁, serves₁, step₁⟩ | ⟨e, reader₁, failed, step₁⟩
  swap
  · exact .inr ⟨e, reader₁, failed, step₁ _⟩
  rw [step₁]
  cases hfirst : imageRange reader.data (plaintextMetadataRegion header).1
      header.blockSize.toNat with
  | error stop => exact .inl ⟨reader₁, serves₁, rfl⟩
  | ok firstBlock =>
    simp only [ok_bind]
    cases hsize : plaintextMetadataSize header firstBlock with
    | error stop => exact .inl ⟨reader₁, serves₁, rfl⟩
    | ok size =>
      obtain ⟨hpos, hlt⟩ := plaintextMetadataSize_ok hsize
      simp only [ok_bind]
      rw [vecZeroed_eq (by omega), ok_bind]
      rcases seek_readExact_outcome reader₁ (plaintextMetadataRegion header).1 hpos with
        ⟨reader₂, serves₂, step₂⟩ | ⟨e, reader₂, failed, step₂⟩
      swap
      · exact .inr ⟨e, reader₂, serves₁.failed failed, step₂ _⟩
      rw [step₂, serves₁.data]
      cases hregion : imageRange reader.data (plaintextMetadataRegion header).1 size with
      | error stop => exact .inl ⟨reader₂, serves₁.trans serves₂, rfl⟩
      | ok region =>
        simp only [ok_bind]
        cases hlocate : locateEncryptedMetadata header region with
        | error stop => exact .inl ⟨reader₂, serves₁.trans serves₂, rfl⟩
        | ok location =>
          obtain ⟨hcount, hcap, hlen⟩ := locateEncryptedMetadata_ok hlocate
          have hlt : location.blockCount * header.blockSize.toNat ≤
              2 ^ 20 * header.blockSize.toNat := Nat.mul_le_mul_right _ hcap
          simp only [ok_bind]
          rw [vecZeroed_eq (by omega), ok_bind]
          rcases seek_readExact_outcome reader₂ location.primaryOffset (n := location.length)
            (by rw [hlen]; exact Nat.mul_pos hcount (Nat.pos_of_ne_zero hzero)) with
            ⟨reader₃, serves₃, step₃⟩ | ⟨e, reader₃, failed, step₃⟩
          · rw [step₃, serves₂.data, serves₁.data]
            exact .inl ⟨reader₃, (serves₁.trans serves₂).trans serves₃, rfl⟩
          · exact .inr ⟨e, reader₃, (serves₁.trans serves₂).failed failed, step₃ _⟩

/-- The common prefix of both entry points is a function of the bytes, up to where it leaves the
reader, or an I/O error of a reader that fails. -/
theorem loadVolume_outcome (crates : Crates) (reader : Reader) :
    (∃ reader', reader.Serves reader' ∧ loadVolume crates reader =
      loadMetadata crates reader.data >>= fun (header, plaintext) =>
        .ok (header, plaintext, reader')) ∨
    ∃ e reader', reader.FailedBefore reader' ∧ loadVolume crates reader = fail (.io e) := by
  unfold loadVolume loadMetadata
  rcases seek_readExact_outcome reader 0 (n := volumeHeaderLen) (by decide) with
    ⟨reader₁, serves₁, step₁⟩ | ⟨e, reader₁, failed, step₁⟩
  swap
  · exact .inr ⟨e, reader₁, failed, step₁ _⟩
  rw [step₁]
  simp only [bind_assoc]
  cases hfirst : imageRange reader.data 0 volumeHeaderLen with
  | error stop => exact .inl ⟨reader₁, serves₁, rfl⟩
  | ok headerBytes =>
    simp only [ok_bind]
    cases hheader : VolumeHeader.parse headerBytes with
    | error stop => exact .inl ⟨reader₁, serves₁, rfl⟩
    | ok header =>
      rcases decryptMetadataRegion_outcome crates reader₁ header with
        ⟨reader₂, serves₂, hregion⟩ | ⟨e, reader₂, failed, hregion⟩
      · simp only [ok_bind, hregion, serves₁.data, bind_assoc]
        exact .inl ⟨reader₂, serves₁.trans serves₂, rfl⟩
      · simp only [ok_bind, hregion, fail_bind]
        exact .inr ⟨e, reader₂, serves₁.failed failed, rfl⟩

/-- Over a healthy reader the common prefix is a function of the image. -/
theorem loadVolume_healthy (crates : Crates) {reader : Reader} (h : reader.Healthy) :
    ∃ reader', reader.Follows reader' ∧ loadVolume crates reader =
      loadMetadata crates reader.data >>= fun (header, plaintext) =>
        .ok (header, plaintext, reader') := by
  rcases loadVolume_outcome crates reader with ⟨reader', serves, heq⟩ | ⟨_, _, failed, -⟩
  · exact ⟨reader', serves.follows h, heq⟩
  · exact absurd failed h.not_failed

/-- Over a healthy reader `parse_info` is a function of the image. -/
theorem parseInfo_healthy (crates : Crates) {reader : Reader} (h : reader.Healthy) :
    parseInfo crates reader =
      loadMetadata crates reader.data >>= fun (header, plaintext) =>
        describe crates header plaintext := by
  obtain ⟨reader', -, hload⟩ := loadVolume_healthy crates h
  rw [parseInfo_eq, hload, bind_assoc]
  rfl

/-- An unlock over a healthy reader is a function of its bytes, up to where it leaves the reader. -/
theorem unlockWithPassword_healthy (crates : Crates) {reader : Reader} (h : reader.Healthy)
    (password : String) :
    ∃ reader', reader.Follows reader' ∧ unlockWithPassword crates reader password =
      loadMetadata crates reader.data >>= fun (header, plaintext) =>
        openVolume crates password header plaintext reader' := by
  obtain ⟨reader', follows, hload⟩ := loadVolume_healthy crates h
  exact ⟨reader', follows, by rw [unlockWithPassword_eq, hload, bind_assoc]; rfl⟩

/-! ## What every run has in common -/

/-- The buffer that is read has the length that was asked for, over any reader. -/
theorem readExactOrErr_length {reader reader' : Reader} {buf buf' : Bytes}
    (h : readExactOrErr reader buf = .ok (buf', reader')) : buf'.length = buf.length := by
  have hlen := reader.readExact_length buf 0 (Nat.zero_le _)
  unfold readExactOrErr at h
  split at h
  · simp [fail] at h
  · next heq =>
      rw [heq] at hlen
      simp only [Except.ok.injEq, Prod.mk.injEq] at h
      rw [← h.1]
      exact hlen

/-- The decrypted metadata is no longer than a Rust object can be. -/
theorem loadVolume_length {crates : Crates} {reader reader' : Reader} {header : VolumeHeader}
    {plaintext : Bytes} (h : loadVolume crates reader = .ok (header, plaintext, reader')) :
    plaintext.length ≤ isizeMax := by
  have isize := isizeMax_eq
  unfold loadVolume at h
  simp only [bind_eq_ok, pure_run, Except.ok.injEq, Prod.mk.injEq] at h
  obtain ⟨_, -, _, -, header, -, ⟨_, _⟩, hregion, rfl, rfl, rfl⟩ := h
  unfold decryptMetadataRegion at hregion
  simp only at hregion
  split at hregion
  · simp [fail] at hregion
  simp only [bind_eq_ok, pure_run, Except.ok.injEq, Prod.mk.injEq] at hregion
  obtain ⟨_, -, _, -, _, -, _, -, _, -, _, -, _, -, location, hlocate, zeros, hzeros, _, -,
    ⟨ciphertext, _⟩, hcipher, _, hdecrypt, rfl, rfl⟩ := hregion
  have hbs := header.blockSize.toNat_lt
  obtain ⟨-, hcap, hlen⟩ := locateEncryptedMetadata_ok hlocate
  have hlt : location.blockCount * header.blockSize.toNat ≤ 2 ^ 20 * header.blockSize.toNat :=
    Nat.mul_le_mul_right _ hcap
  rw [vecZeroed_eq (by omega)] at hzeros
  -- what is decrypted is as long as the buffer that was allocated for it
  have hcipherLen := readExactOrErr_length hcipher
  rw [← Except.ok.inj hzeros, List.length_replicate] at hcipherLen
  rw [decryptUnits_length (by decide) (by simp only; omega) hdecrypt]
  simp only
  omega

/-- `resolve_lv_extent` on a segment list: base and size from its first entry. -/
def extentOf (segments : List SegmentEntry) (blockSize : Nat) (lvSize : UInt64) :
    UInt64 × UInt64 :=
  match segments.head? with
  | some first =>
      (UInt64.ofNat (saturatingMul first.physicalBlock.toNat blockSize),
        if lvSize ≠ 0 then lvSize
        else UInt64.ofNat (saturatingMul first.numberOfBlocks.toNat blockSize))
  | none => (0, lvSize)

/-- The extent of decrypted metadata always resolves. -/
theorem resolveLvExtent_eq {metadata : Bytes} (header : VolumeHeader) (lv : LogicalVolumeInfo)
    (hlen : metadata.length ≤ isizeMax) :
    resolveLvExtent metadata header lv =
      .ok (extentOf (segmentsOf metadata header.blockSize.toNat) header.blockSize.toNat
        lv.size) := by
  have hbs := header.blockSize.toNat_lt
  have usize := usizeSize_eq
  unfold resolveLvExtent extentOf
  rw [parseSegments_eq hlen (by omega), ok_bind]
  cases (segmentsOf metadata header.blockSize.toNat).head? with
  | none => rfl
  | some first => rfl

end FileVault
