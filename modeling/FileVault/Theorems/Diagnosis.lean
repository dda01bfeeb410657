import FileVault.Lib.Checks
import FileVault.Theorems.ErrorClasses
import FileVault.Theorems.Locality
import FileVault.Theorems.PanicFree
import FileVault.Theorems.RoundTrip

/-!
# Which error an image gives

Opening an image makes its checks in one order: those of the header, of the pointer block, of the
descriptor, then those of the records in the decrypted metadata, and with a password those of the
keys. The error is that of the first check that does not pass, so it names what is wrong with the
image; the checks that come after it have not been made.
-/

namespace FileVault

open Lib

/-- A value that has been checked. -/
abbrev checkedRun {α : Type} (checks : List (Check FileVaultError)) (a : α) : Run α :=
  checked Stop.error checks a

/-! ## Stage by stage -/

/-- The check that a range lies in the image. -/
def rangeChecks (image : Bytes) (off n : Nat) : List (Check FileVaultError) :=
  [⟨off + n ≤ image.length, .io .unexpectedEof⟩]

theorem imageRange_checked (image : Bytes) (off n : Nat) :
    imageRange image off n = checkedRun (rangeChecks image off n) (slice image off n) := by
  rw [rangeChecks, checkedRun, checked_one, imageRange]
  simp only [decide_eq_true_eq]
  rfl

/-- The checks of the header parser. -/
def headerChecks (data : Bytes) : List (Check FileVaultError) :=
  let signature := UInt16.ofNat (fieldAt 2 data 88)
  let method := UInt32.ofNat (fieldAt 4 data 172)
  [⟨signature = csSignatureLe, .notCoreStorage signature⟩,
    ⟨method = encryptionMethodAesXts128, .unsupportedEncryptionMethod method⟩]

theorem parse_checked (data : Bytes) :
    VolumeHeader.parse data = checkedRun (headerChecks data) (VolumeHeader.ofFields data) := by
  rw [VolumeHeader.parse_eq, headerChecks]
  by_cases hsignature : UInt16.ofNat (fieldAt 2 data 88) = csSignatureLe
  swap
  · rw [if_pos hsignature, checkedRun, checked_fail (decide_eq_false hsignature)]
    rfl
  rw [if_neg (not_not.mpr hsignature), checkedRun, checked_pass (decide_eq_true hsignature),
    checked_one]
  by_cases hmethod : UInt32.ofNat (fieldAt 4 data 172) = encryptionMethodAesXts128
  · rw [if_neg (not_not.mpr hmethod), if_pos (decide_eq_true hmethod)]
  · rw [if_pos hmethod, if_neg (by simpa using hmethod)]
    rfl

/-- The checks of the header are about the first 512 bytes of an image. -/
theorem headerChecks_slice {image : Bytes} (h : volumeHeaderLen ≤ image.length) :
    headerChecks (slice image 0 volumeHeaderLen) = headerChecks image := by
  have field : ∀ width off, off + width ≤ volumeHeaderLen →
      fieldAt width (slice image 0 volumeHeaderLen) off = fieldAt width image off := by
    intro width off hle
    apply fieldAt_congr
    · rw [slice_length]
      omega
    · omega
    · rw [slice_slice hle, Nat.zero_add]
  unfold headerChecks
  rw [field 2 88 (by decide), field 4 172 (by decide)]

/-- The check on the type of a pointer block. -/
def pointerCheck (block : Bytes) : Check FileVaultError :=
  ⟨UInt16.ofNat (fieldAt 2 block 10) = blockTypeEncryptedMetadataPointer,
    .metadataStructureMissing "0x0011 encrypted-metadata pointer block"⟩

/-- The checks on the size of the region, once the block size is known not to be zero. -/
def sizeChecks (blockSize : Nat) (firstBlock : Bytes) : List (Check FileVaultError) :=
  let size := fieldAt 4 firstBlock 64
  [pointerCheck firstBlock,
    ⟨0 < size ∧ size / blockSize ≤ maxMetadataBlocks, .outOfRange "plaintext metadata region size"⟩]

theorem plaintextMetadataSize_checked {header : VolumeHeader} (hpos : 0 < header.blockSize.toNat)
    (firstBlock : Bytes) :
    plaintextMetadataSize header firstBlock =
      checkedRun (sizeChecks header.blockSize.toNat firstBlock) (fieldAt 4 firstBlock 64) := by
  rw [plaintextMetadataSize_eq, sizeChecks]
  by_cases htype : UInt16.ofNat (fieldAt 2 firstBlock 10) = blockTypeEncryptedMetadataPointer
  swap
  · rw [if_pos htype, checkedRun, checked_fail (decide_eq_false htype)]
    rfl
  rw [if_neg (not_not.mpr htype), if_neg (by omega), checkedRun,
    checked_pass (decide_eq_true htype), checked_one]
  by_cases hsize : fieldAt 4 firstBlock 64 = 0 ∨
      maxMetadataBlocks < fieldAt 4 firstBlock 64 / header.blockSize.toNat
  · rw [if_pos hsize, if_neg (by simp only [decide_eq_true_eq]; omega)]
    rfl
  · rw [if_neg hsize, if_pos (by simp only [decide_eq_true_eq]; omega)]

/-- The checks on the descriptor. -/
def locationChecks (blockSize : Nat) (region : Bytes) : List (Check FileVaultError) :=
  let count := blockCountOf region
  [pointerCheck region,
    ⟨descriptorOffsetOf region + 40 ≤ region.length,
      .metadataStructureMissing "volume-groups descriptor (offset out of region)"⟩,
    ⟨0 < count ∧ count ≤ maxEncryptedMetadataBlocks, .outOfRange "encrypted-metadata block count"⟩,
    ⟨primaryBlockOf region * blockSize < usizeSize,
      .outOfRange "encrypted-metadata primary offset"⟩]

/-- What a descriptor locates. -/
def locatedBy (blockSize : Nat) (region : Bytes) : EncryptedMetadataLocation where
  primaryOffset := primaryBlockOf region * blockSize
  blockCount := blockCountOf region
  length := blockCountOf region * blockSize

theorem locateEncryptedMetadata_checked (header : VolumeHeader) (region : Bytes) :
    locateEncryptedMetadata header region =
      checkedRun (locationChecks header.blockSize.toNat region)
        (locatedBy header.blockSize.toNat region) := by
  rw [locateEncryptedMetadata_eq, locationChecks]
  by_cases htype : UInt16.ofNat (fieldAt 2 region 10) = blockTypeEncryptedMetadataPointer
  swap
  · rw [if_pos htype, checkedRun, checked_fail (decide_eq_false htype)]
    rfl
  rw [if_neg (not_not.mpr htype), checkedRun, checked_pass (decide_eq_true htype)]
  by_cases hout : region.length < descriptorOffsetOf region + 40
  · rw [if_pos hout, checked_fail (decide_eq_false (by omega))]
    rfl
  rw [if_neg hout, checked_pass (decide_eq_true (by omega))]
  by_cases hcount : blockCountOf region = 0 ∨ maxEncryptedMetadataBlocks < blockCountOf region
  · rw [if_pos hcount, checked_fail (decide_eq_false (by omega))]
    rfl
  rw [if_neg hcount, checked_pass (decide_eq_true (by omega)), checked_one]
  by_cases hfits : usizeSize ≤ primaryBlockOf region * header.blockSize.toNat
  · rw [if_pos hfits, if_neg (by simp only [decide_eq_true_eq]; omega)]
    rfl
  · rw [if_neg hfits, if_pos (by simp only [decide_eq_true_eq]; omega)]
    rfl

/-! ## An image -/

/-- The checks from the block size on to the place of the encrypted metadata. -/
def placeChecks (image : Bytes) : List (Check FileVaultError) :=
  let layout := layoutOf image
  [⟨0 < layout.blockSize, .outOfRange "block size is zero"⟩] ++
    (rangeChecks image layout.regionOffset layout.blockSize ++
      (sizeChecks layout.blockSize (layout.firstBlock image) ++
        (rangeChecks image layout.regionOffset layout.regionSize ++
          locationChecks layout.blockSize (layout.region image))))

/-- Up to the encrypted metadata, which is to be there too. -/
def bootChecks (image : Bytes) : List (Check FileVaultError) :=
  let layout := layoutOf image
  rangeChecks image 0 volumeHeaderLen ++
    (headerChecks image ++
      (placeChecks image ++ rangeChecks image layout.primaryOffset layout.length))

theorem imageLocation_checked (image : Bytes) :
    imageLocation (.ofFields image) image =
      checkedRun (placeChecks image)
        (locatedBy (layoutOf image).blockSize ((layoutOf image).region image)) := by
  unfold imageLocation placeChecks
  simp only [layoutOf_regionOffset, layoutOf_blockSize]
  by_cases hpos : 0 < (layoutOf image).blockSize
  swap
  · rw [if_pos (by omega), List.singleton_append, checkedRun, checked_fail (decide_eq_false hpos)]
    rfl
  have hpos' : 0 < (VolumeHeader.ofFields image).blockSize.toNat := by
    rw [layoutOf_blockSize]
    exact hpos
  have size := plaintextMetadataSize_checked hpos' ((layoutOf image).firstBlock image)
  have locate := locateEncryptedMetadata_checked (.ofFields image) ((layoutOf image).region image)
  rw [layoutOf_blockSize] at size locate
  rw [if_neg (by omega), List.singleton_append, checkedRun, checked_pass (decide_eq_true hpos),
    imageRange_checked]
  apply checked_bind
  intro _
  show (plaintextMetadataSize _ ((layoutOf image).firstBlock image) >>= _) = _
  rw [size, ← layoutOf_regionSize]
  apply checked_bind
  intro _
  rw [imageRange_checked]
  apply checked_bind
  intro _
  exact locate

/-- The header and the ciphertext of the metadata, as loading finds them. -/
def imageCipher (image : Bytes) : Run (VolumeHeader × Bytes) := do
  let headerBytes ← imageRange image 0 volumeHeaderLen
  let header ← VolumeHeader.parse headerBytes
  let location ← imageLocation header image
  let ciphertext ← imageRange image location.primaryOffset location.length
  return (header, ciphertext)

/-- The ciphertext of the metadata, where the layout puts it. -/
def cipherOf (image : Bytes) : Bytes :=
  slice image (layoutOf image).primaryOffset (layoutOf image).length

theorem loadMetadata_eq_cipher (crates : Crates) (image : Bytes) :
    loadMetadata crates image = (do
      let (header, ciphertext) ← imageCipher image
      let plaintext ← decryptMetadata crates header ciphertext
      return (header, plaintext)) := by
  simp only [loadMetadata, imageMetadata, imageCipher, bind_assoc, pure_bind]

theorem imageCipher_checked (image : Bytes) :
    imageCipher image = checkedRun (bootChecks image) (.ofFields image, cipherOf image) := by
  unfold imageCipher bootChecks
  rw [imageRange_checked]
  apply checked_bind
  intro inside
  have header_inside : volumeHeaderLen ≤ image.length := by
    simpa [rangeChecks] using inside
  rw [parse_checked, headerChecks_slice header_inside, ofFields_slice header_inside]
  apply checked_bind
  intro _
  rw [imageLocation_checked]
  apply checked_bind
  intro _
  show (imageRange image (layoutOf image).primaryOffset (layoutOf image).length >>= _) = _
  rw [imageRange_checked, ← List.append_nil (rangeChecks image _ _)]
  apply checked_bind
  intro _
  rfl

/-- The plaintext of the metadata, where there is one. -/
def metadataOf (crates : Crates) (image : Bytes) : Bytes :=
  match decryptMetadata crates (.ofFields image) (cipherOf image) with
  | .ok plaintext => plaintext
  | .error _ => []

/-- All that stands between the boot checks and the plaintext is a ragged end. -/
theorem loadMetadata_checked (crates : Crates) {image : Bytes} (whole : ¬ RaggedMetadata image) :
    loadMetadata crates image =
      checkedRun (bootChecks image) (.ofFields image, metadataOf crates image) := by
  rw [← loadMetadata_panicked_iff crates, loadMetadata_eq_cipher, imageCipher_checked] at whole
  rw [loadMetadata_eq_cipher, imageCipher_checked]
  cases hfault : firstFault (bootChecks image) with
  | some e =>
      rw [checkedRun, checkedRun, checked_of_some hfault, checked_of_some hfault]
      rfl
  | none =>
      rw [checkedRun, checked_of_none hfault, ok_bind] at whole ⊢
      rw [checkedRun, checked_of_none hfault]
      simp only [metadataOf] at whole ⊢
      cases hdecrypt : decryptMetadata crates (.ofFields image) (cipherOf image) with
      | ok plaintext => rfl
      | error stop =>
          cases stop with
          | panic =>
              rw [hdecrypt] at whole
              exact absurd rfl whole
          | error e =>
              unfold decryptMetadata decryptUnits decryptArea at hdecrypt
              rw [if_neg (by decide)] at hdecrypt
              exact absurd hdecrypt (decryptChunks_ne_fail e)

/-! ## The records -/

theorem okOr_checked {α : Type} (o : Option α) (e : FileVaultError) (default : α) :
    okOr o e = checkedRun [⟨o.isSome, e⟩] (o.getD default) := by
  rw [checkedRun, checked_one]
  cases o with
  | some a => rfl
  | none => rfl

theorem sliceArr_isSome {n off : Nat} (data : Bytes) (hfits : off + n < usizeSize) :
    (sliceArr n data off).isSome = decide (off + n ≤ data.length) := by
  rcases sliceArr_cases n off data hfits with ⟨short, hnone⟩ | ⟨inside, arr, hsome⟩
  · rw [hnone, decide_eq_false (by omega)]
    rfl
  · rw [hsome, decide_eq_true inside]
    rfl

theorem readU32Le_isSome {off : Nat} (data : Bytes) (hfits : off + 4 < usizeSize) :
    (readU32Le data off).isSome = decide (off + 4 ≤ data.length) := by
  rcases readU32Le_cases off data hfits with ⟨short, hnone⟩ | ⟨inside, arr, hsome⟩
  · rw [hnone, decide_eq_false (by omega)]
    rfl
  · rw [hsome, decide_eq_true inside]
    rfl

section

variable (crates : Crates) (metadata : Bytes)

/-- The passphrase struct, empty where there is none. -/
def passphraseStructOf : Bytes :=
  (extractData crates metadata "PassphraseWrappedKEKStruct").getD []

/-- The struct of the volume key. -/
def volumeKeyStructOf : Bytes := (extractKekWrappedAesXts crates metadata).getD []

/-- The checks on the key material. That an element is there means here that its own extractor gives
something; the lengths are those of the decoded structs. -/
def contextChecks : List (Check FileVaultError) :=
  [⟨(extractData crates metadata "PassphraseWrappedKEKStruct").isSome,
      .metadataStructureMissing "PassphraseWrappedKEKStruct"⟩,
    ⟨pwSaltOffset + 16 ≤ (passphraseStructOf crates metadata).length,
      .outOfRange "PassphraseWrappedKEKStruct salt"⟩,
    ⟨pwWrappedKekOffset + 24 ≤ (passphraseStructOf crates metadata).length,
      .outOfRange "PassphraseWrappedKEKStruct wrapped KEK"⟩,
    ⟨pwIterationsOffset + 4 ≤ (passphraseStructOf crates metadata).length,
      .outOfRange "PassphraseWrappedKEKStruct iterations"⟩,
    ⟨(extractKekWrappedAesXts crates metadata).isSome,
      .metadataStructureMissing "AES-XTS KEKWrappedVolumeKeyStruct"⟩,
    ⟨kekWrappedVmkOffset + 24 ≤ (volumeKeyStructOf crates metadata).length,
      .outOfRange "KEKWrappedVolumeKeyStruct wrapped VMK"⟩]

/-- The key material, as far as it is there. -/
def contextOf : EncryptionContext where
  salt := (sliceArr 16 (passphraseStructOf crates metadata) pwSaltOffset).getD (.zero 16)
  iterations := (readU32Le (passphraseStructOf crates metadata) pwIterationsOffset).getD 0
  wrappedKek :=
    (sliceArr 24 (passphraseStructOf crates metadata) pwWrappedKekOffset).getD (.zero 24)
  wrappedVmk :=
    (sliceArr 24 (volumeKeyStructOf crates metadata) kekWrappedVmkOffset).getD (.zero 24)
  protectors := extractProtectors metadata
  conversionStatus := extractString metadata "ConversionStatus"

theorem extract_checked :
    EncryptionContext.extract crates metadata =
      checkedRun (contextChecks crates metadata) (contextOf crates metadata) := by
  unfold EncryptionContext.extract
  rw [okOr_checked _ _ []]
  apply checked_bind
  intro _
  rw [okOr_checked _ _ (.zero 16), sliceArr_isSome _ (by decide)]
  apply checked_bind
  intro _
  rw [okOr_checked _ _ (.zero 24), sliceArr_isSome _ (by decide)]
  apply checked_bind
  intro _
  rw [okOr_checked _ _ 0, readU32Le_isSome _ (by decide)]
  apply checked_bind
  intro _
  rw [okOr_checked _ _ []]
  apply checked_bind
  intro _
  rw [okOr_checked _ _ (.zero 24), sliceArr_isSome _ (by decide)]
  apply checked_bind
  intro _
  rfl

/-- The check on the logical volume, that the extractor gives a family UUID. -/
def volumeChecks : List (Check FileVaultError) :=
  [⟨(extractString metadata "com.apple.corestorage.lv.familyUUID").isSome,
    .metadataStructureMissing "com.apple.corestorage.lv.familyUUID"⟩]

/-- The logical volume, as far as it is there. -/
def volumeOf : LogicalVolumeInfo where
  size := (extractLvSize metadata).getD 0
  familyUuid := (extractString metadata "com.apple.corestorage.lv.familyUUID").getD ""
  lvIdentifier := extractString metadata "com.apple.corestorage.lv.uuid"
  name := extractString metadata "com.apple.corestorage.lv.name"

theorem volume_checked :
    LogicalVolumeInfo.extract metadata =
      checkedRun (volumeChecks metadata) (volumeOf metadata) := by
  unfold LogicalVolumeInfo.extract
  rw [okOr_checked _ _ "", volumeChecks, ← List.append_nil [_]]
  apply checked_bind
  intro _
  rfl

/-- The checks on the records, in terms of what the extractors give. -/
def recordChecks : List (Check FileVaultError) :=
  contextChecks crates metadata ++ volumeChecks metadata

/-- The key that the password unwraps. -/
def kekOf (password : String) : Option (ByteArr 16) :=
  let context := contextOf crates metadata
  crates.kwUnwrap (passphraseKey crates password context.salt context.iterations)
    context.wrappedKek

/-- The key of the volume. -/
def vmkOf (password : String) : Option (ByteArr 16) :=
  crates.kwUnwrap ((kekOf crates metadata password).getD (.zero 16))
    (contextOf crates metadata).wrappedVmk

/-- The checks on the family that goes into the tweak key, that its text parses as a UUID, and on
the keys, that each unwraps. -/
def keyChecks (password : String) : List (Check FileVaultError) :=
  [⟨(parseUuidBytes crates (volumeOf metadata).familyUuid).isSome,
      .metadataStructureMissing "parseable family UUID"⟩,
    ⟨(kekOf crates metadata password).isSome, .keyUnwrap "KEK"⟩,
    ⟨(vmkOf crates metadata password).isSome, .keyUnwrap "VMK"⟩]

/-- The description of the volume, as far as the records say. -/
def recordedInfo (header : VolumeHeader) : FileVaultInfo :=
  buildInfo crates header (contextOf crates metadata) (volumeOf metadata)
    (extentOf (segmentsOf metadata header.blockSize.toNat) header.blockSize.toNat
      (volumeOf metadata).size).2

/-- The keys, as far as they unwrap. -/
def keysOf (password : String) : VolumeKeys :=
  let vmk := (vmkOf crates metadata password).getD (.zero 16)
  let family := (parseUuidBytes crates (volumeOf metadata).familyUuid).getD (.zero 16)
  { vmk, tweakKey := tweakKeyOf crates vmk family }

/-- The volume that opens with the unwrapped keys. -/
def opened (header : VolumeHeader) (password : String) (reader : Reader) : FileVaultVolume :=
  let extent := extentOf (segmentsOf metadata header.blockSize.toNat) header.blockSize.toNat
    (volumeOf metadata).size
  { decrypted := .new reader (keysOf crates metadata password) extent.1 extent.2
    info := recordedInfo crates metadata header }

variable {crates metadata}

theorem keys_checked (password : String) :
    (do
      let family ← okOr (parseUuidBytes crates (volumeOf metadata).familyUuid)
        (.metadataStructureMissing "parseable family UUID")
      deriveVolumeKeys crates password (contextOf crates metadata) family) =
      checkedRun (keyChecks crates metadata password) (keysOf crates metadata password) := by
  rw [okOr_checked _ _ (.zero 16)]
  apply checked_bind
  intro _
  show (okOr (kekOf crates metadata password) (.keyUnwrap "KEK") >>= _) = _
  rw [okOr_checked _ _ (.zero 16)]
  apply checked_bind
  intro _
  show (okOr (vmkOf crates metadata password) (.keyUnwrap "VMK") >>= _) = _
  rw [okOr_checked _ _ (.zero 16), ← List.append_nil [_]]
  apply checked_bind
  intro _
  rfl

/-- What a parse does once the metadata is there. -/
theorem describe_checked (header : VolumeHeader) (hlen : metadata.length ≤ isizeMax) :
    describe crates header metadata =
      checkedRun (recordChecks crates metadata) (recordedInfo crates metadata header) := by
  unfold describe recordChecks
  rw [extract_checked]
  apply checked_bind
  intro _
  rw [volume_checked, ← List.append_nil (volumeChecks metadata)]
  apply checked_bind
  intro _
  rw [resolveLvExtent_eq header _ hlen]
  rfl

/-- What an unlock does once the metadata is there. -/
theorem openVolume_checked (header : VolumeHeader) (hlen : metadata.length ≤ isizeMax)
    (password : String) (reader : Reader) :
    openVolume crates password header metadata reader =
      checkedRun (recordChecks crates metadata ++ keyChecks crates metadata password)
        (opened crates metadata header password reader) := by
  unfold openVolume recordChecks
  rw [extract_checked, List.append_assoc]
  apply checked_bind
  intro _
  rw [volume_checked]
  apply checked_bind
  intro _
  simp only
  rw [← bind_assoc, keys_checked, ← List.append_nil (keyChecks crates metadata password)]
  apply checked_bind
  intro _
  rw [resolveLvExtent_eq header _ hlen]
  rfl

end

/-! ## The whole run -/

section

variable (crates : Crates) (image : Bytes)

/-- What is looked at without the password. -/
def parseChecks : List (Check FileVaultError) :=
  bootChecks image ++ recordChecks crates (metadataOf crates image)

/-- What is looked at with the password. -/
def openChecks (password : String) : List (Check FileVaultError) :=
  parseChecks crates image ++ keyChecks crates (metadataOf crates image) password

variable {image}

theorem metadataOf_length (boots : ∀ check ∈ bootChecks image, check.passes = true) :
    (metadataOf crates image).length ≤ isizeMax := by
  have isize := isizeMax_eq
  have unit : metadataUnitSize = 8192 := rfl
  unfold metadataOf
  cases hdecrypt : decryptMetadata crates (.ofFields image) (cipherOf image) with
  | error stop => exact Nat.zero_le _
  | ok plaintext =>
      have loaded : loadMetadata crates image = .ok (.ofFields image, plaintext) := by
        rw [loadMetadata_eq_cipher, imageCipher_checked, checkedRun,
          checked_of_none (firstFault_none_iff.mpr boots), ok_bind]
        simp only [hdecrypt]
        rfl
      have accepted := accepted_of_load loaded
      have hlt := accepted.length_lt
      have hcipher : (cipherOf image).length = (layoutOf image).length :=
        slice_length_of_le accepted.primary_inside
      have hplain := decryptUnits_length (by decide) (by omega) hdecrypt
      simp only
      omega

theorem parseInfo_checked {reader : Reader} (healthy : reader.Healthy)
    (whole : ¬ RaggedMetadata reader.data) :
    parseInfo crates reader = checkedRun (parseChecks crates reader.data)
      (recordedInfo crates (metadataOf crates reader.data) (.ofFields reader.data)) := by
  rw [parseInfo_healthy crates healthy, loadMetadata_checked crates whole]
  apply checked_bind
  intro boots
  exact describe_checked _ (metadataOf_length crates boots)

theorem unlock_checked {reader : Reader} (healthy : reader.Healthy)
    (whole : ¬ RaggedMetadata reader.data) (password : String) :
    ∃ vol, unlockWithPassword crates reader password =
      checkedRun (openChecks crates reader.data password) vol := by
  obtain ⟨reader', -, hunlock⟩ := unlockWithPassword_healthy crates healthy password
  refine ⟨opened crates (metadataOf crates reader.data) (.ofFields reader.data) password reader',
    ?_⟩
  rw [hunlock, loadMetadata_checked crates whole, openChecks, parseChecks, List.append_assoc]
  apply checked_bind
  intro boots
  exact openVolume_checked _ (metadataOf_length crates boots) password reader'

end

theorem Stop.error_injective : Function.Injective Stop.error := by
  intro e e' h
  exact Stop.error.inj h

/-- Over a healthy reader, the error of a parse is that of the first check that does not pass, and
there is none exactly if all of them do; opening makes the same checks, and then those of the
keys. -/
theorem open_diagnosis (crates : Crates) {reader : Reader} (healthy : reader.Healthy)
    (whole : ¬ RaggedMetadata reader.data) (password : String) :
    (∀ e, parseInfo crates reader = fail e ↔
      firstFault (parseChecks crates reader.data) = some e) ∧
    ((∃ info, parseInfo crates reader = .ok info) ↔
      ∀ check ∈ parseChecks crates reader.data, check.passes = true) ∧
    (∀ e, unlockWithPassword crates reader password = fail e ↔
      firstFault (openChecks crates reader.data password) = some e) ∧
    ((∃ vol, unlockWithPassword crates reader password = .ok vol) ↔
      ∀ check ∈ openChecks crates reader.data password, check.passes = true) := by
  obtain ⟨vol, hunlock⟩ := unlock_checked crates healthy whole password
  rw [parseInfo_checked crates healthy whole, hunlock]
  refine ⟨?_, checked_ok_iff, ?_, checked_ok_iff⟩
  · intro e
    exact checked_error_iff Stop.error_injective
  · intro e
    exact checked_error_iff Stop.error_injective

/-- The test image, with its password: every check passes. -/
theorem open_diagnosis_synthetic :
    (∀ e, parseInfo standardCrates syntheticReader = fail e ↔
      firstFault (parseChecks standardCrates syntheticReader.data) = some e) ∧
    ((∃ info, parseInfo standardCrates syntheticReader = .ok info) ↔
      ∀ check ∈ parseChecks standardCrates syntheticReader.data, check.passes = true) ∧
    (∀ e, unlockWithPassword standardCrates syntheticReader Fixture.synthetic.password = fail e ↔
      firstFault (openChecks standardCrates syntheticReader.data Fixture.synthetic.password) =
        some e) ∧
    ((∃ vol, unlockWithPassword standardCrates syntheticReader Fixture.synthetic.password =
        .ok vol) ↔
      ∀ check ∈ openChecks standardCrates syntheticReader.data Fixture.synthetic.password,
        check.passes = true) := by
  apply open_diagnosis standardCrates (Reader.healthy_cursor _)
  rw [← parseInfo_panicked_iff standardCrates]
  intro panics
  exact ok_ne_panicked _ (parseInfo_syntheticReader.symm.trans panics)

end FileVault
