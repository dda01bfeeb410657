import FileVault.Logic.Fixture

/-!
# Opening what the builder wrote

The image of a fixture whose parts do not meet: its header and its pointer block
say where its metadata is, and the metadata is what the builder encrypted.
-/

namespace FileVault

open Lib

namespace Fixture

/-- The header, the plaintext region and the encrypted metadata have their own
places in the image, and so has the logical volume if there is one. -/
structure Placed (p : Fixture) : Prop where
  total_lt : p.total < usizeSize
  header_inside : volumeHeaderLen ≤ p.total
  region_inside : p.regionStart + max p.blockSize.toNat p.regionSize.toNat ≤ p.total
  region_header : volumeHeaderLen ≤ p.regionStart
  region_cap : p.regionSize.toNat / p.blockSize.toNat ≤ maxMetadataBlocks
  descriptor_low : 224 ≤ p.descriptorOffset.toNat
  descriptor_inside : p.descriptorOffset.toNat + 40 ≤ p.regionSize.toNat
  metadata_inside : p.metadataStart + p.metadataBlocks * p.blockSize.toNat ≤ p.total
  metadata_header : volumeHeaderLen ≤ p.metadataStart
  metadata_region : p.regionStart + p.regionSize.toNat ≤ p.metadataStart ∨
    p.metadataStart + p.metadataBlocks * p.blockSize.toNat ≤ p.regionStart
  metadata_units : 8192 ∣ p.metadataBlocks * p.blockSize.toNat
  lv_apart : p.lvPlain = [] ∨
    (p.lvStart + p.lvPlain.length ≤ p.total ∧ volumeHeaderLen ≤ p.lvStart ∧
      (p.regionStart + p.regionSize.toNat ≤ p.lvStart ∨
        p.lvStart + p.lvPlain.length ≤ p.regionStart) ∧
      (p.metadataStart + p.metadataBlocks * p.blockSize.toNat ≤ p.lvStart ∨
        p.lvStart + p.lvPlain.length ≤ p.metadataStart))

section

variable {crates : Crates} {p : Fixture}

theorem regionWrites_fit (placed : p.Placed) : FitIn p.regionSize.toNat p.regionWrites := by
  have low := placed.descriptor_low
  have hinside := placed.descriptor_inside
  constructor
  · simp only [regionWrites, List.forall_mem_cons, List.not_mem_nil, false_implies, implies_true,
      and_true, leBytes_length]
    omega
  · simp only [regionWrites, List.pairwise_cons, List.forall_mem_cons, List.not_mem_nil,
      false_implies, implies_true, and_true, List.Pairwise.nil, Apart, leBytes_length]
    omega

theorem region_length (placed : p.Placed) : p.region.length = p.regionSize.toNat :=
  filled_length (regionWrites_fit placed)

/-- The builder encrypts the metadata in whole units, so no call of its own panics on it. -/
theorem encryptUnits_metadata (fits : p.Fits crates) (placed : p.Placed) :
    encryptUnits crates (p.buildDecryptedMetadata crates) p.key1 p.pvId 8192 0 =
      .ok (p.encryptedMetadata crates) := by
  have hlen := buildDecryptedMetadata_length fits
  have hlt := metadata_length_lt fits
  have isize := isizeMax_eq
  have hcount := Nat.div_mul_cancel (hlen ▸ placed.metadata_units)
  have hdiv := Nat.div_le_self (p.buildDecryptedMetadata crates).length 8192
  have hindex : 0 + (p.buildDecryptedMetadata crates).length / 8192 ≤ 2 ^ 128 := by omega
  rw [encryptedMetadata, encryptUnits_whole (by decide) hcount.symm hindex]
  rfl

theorem encryptedMetadata_length (fits : p.Fits crates) (placed : p.Placed) :
    (p.encryptedMetadata crates).length = p.metadataBlocks * p.blockSize.toNat := by
  rw [← buildDecryptedMetadata_length fits]
  exact encryptUnits_length (encryptUnits_metadata fits placed)

theorem leftBy_length_le {call : Run Bytes} {n : Nat}
    (h : ∀ buffer, call = .ok buffer → buffer.length = n) : (leftBy call).length ≤ n := by
  cases call with
  | error stop => exact Nat.zero_le n
  | ok buffer => exact (h buffer rfl).le

theorem lvCipher_length_le (crates : Crates) (p : Fixture) :
    (p.lvCipher crates).length ≤ p.lvPlain.length :=
  leftBy_length_le fun _ h => encryptUnits_length h

/-- The fields of the plaintext region. -/
theorem region_fields (placed : p.Placed) (hblocks : p.metadataBlocks < 256 ^ 8) :
    fieldAt 2 p.region 10 = 0x0011 ∧ fieldAt 4 p.region 64 = p.regionSize.toNat ∧
      descriptorOffsetOf p.region = p.descriptorOffset.toNat ∧
      blockCountOf p.region = p.metadataBlocks ∧
      primaryBlockOf p.region = p.metadataBlock.toNat % 2 ^ 48 := by
  have low := placed.descriptor_low
  have hinside := placed.descriptor_inside
  have hlen := region_length placed
  have fit := regionWrites_fit placed
  have htype : slice p.region 10 2 = leBytes 2 0x0011 :=
    slice_filled fit (by simp [regionWrites]) (leBytes_length _ _)
  have hsize : slice p.region 64 4 = leBytes 4 p.regionSize.toNat :=
    slice_filled fit (by simp [regionWrites]) (leBytes_length _ _)
  have hdescriptor : slice p.region 220 4 = leBytes 4 p.descriptorOffset.toNat :=
    slice_filled fit (by simp [regionWrites]) (leBytes_length _ _)
  have hcount : slice p.region (p.descriptorOffset.toNat + 8) 8 = leBytes 8 p.metadataBlocks :=
    slice_filled fit (by simp [regionWrites]) (leBytes_length _ _)
  have hprimary : slice p.region (p.descriptorOffset.toNat + 32) 8 =
      leBytes 8 p.metadataBlock.toNat :=
    slice_filled fit (by simp [regionWrites]) (leBytes_length _ _)
  have descriptor : descriptorOffsetOf p.region = p.descriptorOffset.toNat :=
    fieldAt_of_slice (by omega) p.descriptorOffset.toNat_lt hdescriptor
  refine ⟨fieldAt_of_slice (by omega) (by decide) htype,
    fieldAt_of_slice (by omega) p.regionSize.toNat_lt hsize, descriptor, ?_, ?_⟩
  · rw [blockCountOf, descriptor]
    exact fieldAt_of_slice (by omega) hblocks hcount
  · rw [primaryBlockOf, descriptor,
      fieldAt_of_slice (by omega) p.metadataBlock.toNat_lt hprimary]

/-! ## The parts of the image -/

/-- All writes but the last. -/
def metadataWrites (crates : Crates) (p : Fixture) : List (Nat × Bytes) :=
  p.headerWrites ++ [(p.regionStart, p.region), (p.metadataStart, p.encryptedMetadata crates)]

theorem headerWrites_fit (p : Fixture) : FitIn volumeHeaderLen p.headerWrites := by
  constructor
  · simp [headerWrites, volumeHeaderLen, p.key1.property, p.pvId.property]
  · simp [headerWrites, Apart, p.key1.property]

theorem metadataWrites_fit (fits : p.Fits crates) (placed : p.Placed) :
    FitIn p.total (p.metadataWrites crates) := by
  have hregion := region_length placed
  have hmetadata := encryptedMetadata_length fits placed
  have header := p.headerWrites_fit.inside
  obtain ⟨-, hheader, hregionIn, hregionHeader, -, -, -, hmetadataIn, hmetadataHeader, happart, -,
    -⟩ := placed
  have hmax := Nat.le_max_right p.blockSize.toNat p.regionSize.toNat
  constructor
  · unfold metadataWrites
    rw [List.forall_mem_append]
    refine ⟨fun w hw => (header w hw).trans hheader, ?_⟩
    simp only [List.forall_mem_cons, List.not_mem_nil, false_implies, implies_true, and_true]
    omega
  · unfold metadataWrites
    rw [List.pairwise_append]
    refine ⟨p.headerWrites_fit.apart, ?_, ?_⟩
    · simp only [List.pairwise_cons, List.forall_mem_cons, List.not_mem_nil, false_implies,
        implies_true, and_true, List.Pairwise.nil, Apart]
      omega
    · intro w hw w' hw'
      have hin := header w hw
      simp only [List.mem_cons, List.not_mem_nil, or_false] at hw'
      rcases hw' with rfl | rfl
      · exact .inl (by simp only; omega)
      · exact .inl (by simp only; omega)

theorem buildImage_eq (crates : Crates) (p : Fixture) :
    p.buildImage crates =
      splice (filled p.total (p.metadataWrites crates)) p.lvStart (p.lvCipher crates) := by
  have hwrites : p.imageWrites crates =
      p.metadataWrites crates ++ [(p.lvStart, p.lvCipher crates)] := by
    simp [imageWrites, metadataWrites]
  rw [buildImage, filled, hwrites, writeAll_append, writeAll_cons, writeAll_nil, filled]

theorem lvCipher_of_nil (h : p.lvPlain = []) : p.lvCipher crates = [] :=
  List.eq_nil_of_length_eq_zero (by have := lvCipher_length_le crates p; simp_all)

theorem buildImage_length (fits : p.Fits crates) (placed : p.Placed) :
    (p.buildImage crates).length = p.total := by
  have hfilled := filled_length (metadataWrites_fit fits placed)
  rw [buildImage_eq]
  rcases placed.lv_apart with hnil | ⟨hinside, -⟩
  · rw [lvCipher_of_nil hnil, splice_nil, hfilled]
  · have := lvCipher_length_le crates p
    rw [splice_length (by omega), hfilled]

/-- What the logical volume does not meet is as the other writes left it. -/
theorem slice_buildImage (fits : p.Fits crates) (placed : p.Placed) {off n : Nat}
    (apart : p.lvPlain ≠ [] → off + n ≤ p.lvStart ∨ p.lvStart + p.lvPlain.length ≤ off) :
    slice (p.buildImage crates) off n = slice (filled p.total (p.metadataWrites crates)) off n := by
  have hfilled := filled_length (metadataWrites_fit fits placed)
  have hcipher := lvCipher_length_le crates p
  rw [buildImage_eq]
  rcases placed.lv_apart with hnil | ⟨hinside, -⟩
  · rw [lvCipher_of_nil hnil, splice_nil]
  · by_cases hnil : p.lvPlain = []
    · rw [lvCipher_of_nil hnil, splice_nil]
    · have := apart hnil
      exact slice_splice_disjoint (by omega) (by omega)

/-- A field of the header. -/
theorem slice_header (fits : p.Fits crates) (placed : p.Placed) {off width : Nat} {bytes : Bytes}
    (hw : (off, bytes) ∈ p.headerWrites) (hwidth : bytes.length = width) :
    slice (p.buildImage crates) off width = bytes := by
  have hin := p.headerWrites_fit.inside _ hw
  rw [slice_buildImage fits placed]
  · exact slice_filled (metadataWrites_fit fits placed) (List.mem_append_left _ hw) hwidth
  · intro hne
    rcases placed.lv_apart with hnil | ⟨-, hheader, -⟩
    · exact absurd hnil hne
    · simp only at hin
      omega

theorem slice_region (fits : p.Fits crates) (placed : p.Placed) :
    slice (p.buildImage crates) p.regionStart p.regionSize.toNat = p.region := by
  rw [slice_buildImage fits placed]
  · exact slice_filled (metadataWrites_fit fits placed) (by simp [metadataWrites])
      (region_length placed)
  · intro hne
    rcases placed.lv_apart with hnil | ⟨-, -, hregion, -⟩
    · exact absurd hnil hne
    · exact hregion

theorem slice_encryptedMetadata (fits : p.Fits crates) (placed : p.Placed) :
    slice (p.buildImage crates) p.metadataStart (p.metadataBlocks * p.blockSize.toNat) =
      p.encryptedMetadata crates := by
  rw [slice_buildImage fits placed]
  · exact slice_filled (metadataWrites_fit fits placed) (by simp [metadataWrites])
      (encryptedMetadata_length fits placed)
  · intro hne
    rcases placed.lv_apart with hnil | ⟨-, -, -, hmetadata⟩
    · exact absurd hnil hne
    · exact hmetadata

/-- A number in the header. -/
theorem fieldAt_header (fits : p.Fits crates) (placed : p.Placed) {off width value : Nat}
    (hw : (off, leBytes width value) ∈ p.headerWrites) (hvalue : value < 256 ^ width) :
    fieldAt width (p.buildImage crates) off = value := by
  have hin := p.headerWrites_fit.inside _ hw
  have hheader := placed.header_inside
  have hlen := buildImage_length fits placed
  simp only [leBytes_length] at hin
  exact fieldAt_of_slice (by omega) hvalue (slice_header fits placed hw (leBytes_length _ _))

theorem bytesAt_of_slice {data : Bytes} {off : Nat} {arr : ByteArr 16}
    (inside : off + 16 ≤ data.length) (h : slice data off 16 = arr.val) :
    bytesAt data off = arr := by
  rw [bytesAt, dif_pos inside]
  exact Subtype.ext h

/-- The header fields the rest depends on. -/
theorem ofFields_buildImage (fits : p.Fits crates) (placed : p.Placed) :
    (VolumeHeader.ofFields (p.buildImage crates)).blockSize = p.blockSize ∧
    (VolumeHeader.ofFields (p.buildImage crates)).bytesPerSector = p.bytesPerSector ∧
    (VolumeHeader.ofFields (p.buildImage crates)).keyData = p.key1 ∧
    (VolumeHeader.ofFields (p.buildImage crates)).physicalVolumeIdentifier = p.pvId := by
  have hheader := placed.header_inside
  have hlen := buildImage_length fits placed
  have hlong : volumeHeaderLen = 512 := rfl
  have hblock : fieldAt 4 (p.buildImage crates) 96 = p.blockSize.toNat :=
    fieldAt_header fits placed (by simp [headerWrites]) p.blockSize.toNat_lt
  have hsector : fieldAt 4 (p.buildImage crates) 48 = p.bytesPerSector.toNat :=
    fieldAt_header fits placed (by simp [headerWrites]) p.bytesPerSector.toNat_lt
  refine ⟨?_, ?_, ?_, ?_⟩
  · simp only [VolumeHeader.ofFields]
    rw [hblock, UInt32.ofNat_toNat]
  · simp only [VolumeHeader.ofFields]
    rw [hsector, UInt32.ofNat_toNat]
  · exact bytesAt_of_slice (by omega)
      (slice_header fits placed (by simp [headerWrites]) p.key1.property)
  · exact bytesAt_of_slice (by omega)
      (slice_header fits placed (by simp [headerWrites]) p.pvId.property)

/-- The layout of the image is the one the builder chose. -/
theorem layoutOf_buildImage (fits : p.Fits crates) (placed : p.Placed) :
    layoutOf (p.buildImage crates) = {
      blockSize := p.blockSize.toNat
      regionOffset := p.regionStart
      regionSize := p.regionSize.toNat
      blockCount := p.metadataBlocks
      primaryBlock := p.metadataBlock.toNat % 2 ^ 48 } := by
  have usize := usizeSize_eq
  have hlen := buildImage_length fits placed
  have hblocks := fits.blocks_max
  have segment := fits.segment_fits
  have low := placed.descriptor_low
  have hdescriptor := placed.descriptor_inside
  have hinside := placed.region_inside
  have htotal := placed.total_lt
  have hregion := slice_region fits placed
  obtain ⟨-, hsize, -, hcount, hprimary⟩ := region_fields placed (by omega)
  have hblock : fieldAt 4 (p.buildImage crates) 96 = p.blockSize.toNat :=
    fieldAt_header fits placed (by simp [headerWrites]) p.blockSize.toNat_lt
  have hregionBlock : fieldAt 8 (p.buildImage crates) 104 = p.regionBlock.toNat :=
    fieldAt_header fits placed (by simp [headerWrites]) p.regionBlock.toNat_lt
  have hstart : saturatingMul p.regionBlock.toNat p.blockSize.toNat = p.regionStart :=
    saturatingMul_eq (by unfold regionStart at hinside; omega)
  have hregionSize : fieldAt 4 (slice (p.buildImage crates) p.regionStart p.blockSize.toNat) 64 =
      p.regionSize.toNat := by
    apply fieldAt_of_slice _ p.regionSize.toNat_lt
    · rw [slice_slice (by omega), ← slice_slice (n := p.regionSize.toNat) (by omega), hregion]
      exact slice_filled (regionWrites_fit placed) (by simp [regionWrites]) (leBytes_length _ _)
    · rw [slice_length]
      omega
  simp only [layoutOf, hblock, hregionBlock, hstart, hregionSize, hregion, hcount, hprimary]

/-! ## Unlocking -/

/-- Every check on the way to the metadata passes. -/
theorem accepted_buildImage (fits : p.Fits crates) (placed : p.Placed) :
    Accepted (p.buildImage crates) (layoutOf (p.buildImage crates)) := by
  have usize := usizeSize_eq
  have hlen := buildImage_length fits placed
  have segment := fits.segment_fits
  have hblocks := fits.blocks_max
  have hcap : maxEncryptedMetadataBlocks = 2 ^ 20 := by decide
  have low := placed.descriptor_low
  have hdescriptor := placed.descriptor_inside
  have hinside := placed.region_inside
  have hmetadata := placed.metadata_inside
  have htotal := placed.total_lt
  have hregion := slice_region fits placed
  obtain ⟨htype, -, hoffset, -, -⟩ := region_fields placed (by omega)
  have hfirst : fieldAt 2 (slice (p.buildImage crates) p.regionStart p.blockSize.toNat) 10 =
      0x0011 := by
    apply fieldAt_of_slice _ (by decide)
    · rw [slice_slice (by omega), ← slice_slice (n := p.regionSize.toNat) (by omega), hregion]
      exact slice_filled (regionWrites_fit placed) (by simp [regionWrites]) (leBytes_length _ _)
    · rw [slice_length]
      omega
  have hsignature : fieldAt 2 (p.buildImage crates) 88 = 0x5343 := by
    have hheader := placed.header_inside
    have hlong : volumeHeaderLen = 512 := rfl
    apply fieldAt_of_slice (by omega) (by decide)
    have hmem : (88, [0x43, 0x53]) ∈ p.headerWrites := by simp [headerWrites]
    exact (slice_header fits placed hmem rfl).trans (by decide)
  have hmethod : fieldAt 4 (p.buildImage crates) 172 = 2 :=
    fieldAt_header fits placed (by simp [headerWrites]) (by decide)
  rw [layoutOf_buildImage fits placed]
  refine {
    header_inside := by rw [hlen]; exact placed.header_inside
    signature := by rw [hsignature]; rfl
    method := by rw [hmethod]; rfl
    block_pos := by simp only; omega
    block_inside := by simp only; omega
    block_type := by rw [Layout.firstBlock, hfirst]; rfl
    region_pos := by simp only; omega
    region_cap := placed.region_cap
    region_inside := by simp only; omega
    region_type := by rw [Layout.region, hregion, htype]; rfl
    descriptor_inside := by rw [Layout.region, hregion, hoffset]; exact hdescriptor
    count_pos := by have := fits.blocks_min; simp only; omega
    count_cap := by simp only; omega
    primary_fits := ?_
    primary_inside := by
      simp only [Layout.primaryOffset, Layout.length]
      unfold metadataStart at hmetadata
      omega }
  simp only [Layout.primaryOffset]
  unfold metadataStart at hmetadata
  omega

/-- Decrypting what was encrypted in whole units. -/
theorem decryptUnits_encryptUnits (lawful : crates.Lawful) {buffer cipher : Bytes}
    {key1 key2 : ByteArr 16} {unitSize first : Nat} (hunit : 16 ∣ unitSize) (hpos : 0 < unitSize)
    (hbuffer : unitSize ∣ buffer.length) (hindex : first + buffer.length ≤ 2 ^ 128)
    (h : encryptUnits crates buffer key1 key2 unitSize first = .ok cipher) :
    decryptUnits crates cipher key1 key2 unitSize first = .ok buffer := by
  have hlow : 16 ≤ unitSize := Nat.le_of_dvd hpos hunit
  have hcount : buffer.length = buffer.length / unitSize * unitSize :=
    (Nat.div_mul_cancel hbuffer).symm
  have hdiv : buffer.length / unitSize ≤ buffer.length := Nat.div_le_self _ _
  have hlen : cipher.length = buffer.length / unitSize * unitSize :=
    (encryptUnits_length h).trans hcount
  rw [encryptUnits_whole hlow hcount (by omega), Except.ok.injEq] at h
  have undone : mapUnits unitSize (crates.decryptSector key1 key2) (buffer.length / unitSize) first
      (mapUnits unitSize (crates.encryptSector key1 key2) (buffer.length / unitSize) first buffer ++
        []) = buffer.take (buffer.length / unitSize * unitSize) :=
    mapUnits_inverse (crates.encryptSector_keeps key1 key2) hcount.ge
      fun index ys hys => lawful.decrypt_encrypt key1 key2 index ys (hys ▸ hunit)
  rw [List.append_nil, h, ← hcount, List.take_length] at undone
  rw [decryptUnits_whole hlow hlen (by omega), undone]

theorem loadMetadata_buildImage (lawful : crates.Lawful) (fits : p.Fits crates)
    (placed : p.Placed) :
    loadMetadata crates (p.buildImage crates) =
      .ok (.ofFields (p.buildImage crates), p.buildDecryptedMetadata crates) := by
  have hlt := metadata_length_lt fits
  have hlen := buildDecryptedMetadata_length fits
  obtain ⟨-, -, hkey1, hpvId⟩ := ofFields_buildImage fits placed
  have hcipher : slice (p.buildImage crates) (layoutOf (p.buildImage crates)).primaryOffset
      (layoutOf (p.buildImage crates)).length = p.encryptedMetadata crates := by
    rw [layoutOf_buildImage fits placed]
    exact slice_encryptedMetadata fits placed
  have hdecrypt : decryptMetadata crates (.ofFields (p.buildImage crates))
      (p.encryptedMetadata crates) = .ok (p.buildDecryptedMetadata crates) := by
    rw [decryptMetadata, hkey1, hpvId]
    exact decryptUnits_encryptUnits lawful (by decide) (by decide)
      (hlen ▸ placed.metadata_units) (by omega) (encryptUnits_metadata fits placed)
  rw [(accepted_buildImage fits placed).load, hcipher, hdecrypt]
  rfl

/-- The crate derives the tweak key that the builder hashes for itself. -/
theorem tweakKeyOf_fixture (crates : Crates) (p : Fixture) :
    tweakKeyOf crates p.vmk p.family = p.tweakKey crates := rfl

/-- The password the image was built with gives its keys. -/
theorem deriveVolumeKeys_fixture (lawful : crates.Lawful) (hiterations : 1 ≤ p.iterations.toNat) :
    deriveVolumeKeys crates p.password (p.context crates) p.family = .ok (p.keys crates) := by
  have hkey : passphraseKey crates p.password p.salt p.iterations =
      crates.pbkdf2 (asBytes p.password) p.salt p.iterations.toNat := by
    rw [passphraseKey, Nat.max_eq_left hiterations]
  unfold deriveVolumeKeys aesKwUnwrap
  simp only [context, hkey, wrappedKek, wrappedVmk, lawful.unwrap_wrap, okOr_some, ok_bind,
    pure_run, keys, tweakKeyOf_fixture]

/-- The extent of the volume is the one the builder gave it. -/
theorem resolveLvExtent_buildImage (fits : p.Fits crates) (placed : p.Placed)
    (hsize : p.lvSize ≠ 0) :
    resolveLvExtent (p.buildDecryptedMetadata crates) (.ofFields (p.buildImage crates))
        (p.logicalVolume crates) =
      .ok (UInt64.ofNat (saturatingMul (p.lvPhysicalBlock.toNat % 2 ^ 48) p.blockSize.toNat),
        p.lvSize) := by
  have hlt := metadata_length_lt fits
  have isize := isizeMax_eq
  obtain ⟨hblock, -⟩ := ofFields_buildImage fits placed
  have nonzero : (p.logicalVolume crates).size ≠ 0 := hsize
  rw [resolveLvExtent_eq _ _ (by omega), hblock, segmentsOf_fixture fits]
  simp only [extentOf, List.head?_cons, if_pos nonzero, segment, and_blockNumberMask]
  rfl

/-- The password-free view of the image, over any healthy reader. -/
theorem parseInfo_buildImage (lawful : crates.Lawful) (fits : p.Fits crates) (placed : p.Placed)
    (hsize : p.lvSize ≠ 0) {reader : Reader} (healthy : reader.Healthy)
    (hdata : reader.data = p.buildImage crates) :
    parseInfo crates reader = .ok (p.info crates) := by
  obtain ⟨-, -, -, hpvId⟩ := ofFields_buildImage fits placed
  rw [parseInfo_healthy crates healthy, hdata, loadMetadata_buildImage lawful fits placed, ok_bind]
  simp only [describe]
  rw [extract_context lawful fits, ok_bind, extract_logicalVolume lawful fits, ok_bind,
    resolveLvExtent_buildImage fits placed hsize]
  simp only [ok_bind, pure_run, buildInfo, hpvId, context, logicalVolume, info]

/-- Unlocking the image with its password, over any healthy reader. -/
theorem unlock_buildImage (lawful : crates.Lawful) (fits : p.Fits crates) (placed : p.Placed)
    (hiterations : 1 ≤ p.iterations.toNat) (hsize : p.lvSize ≠ 0) {reader : Reader}
    (healthy : reader.Healthy) (hdata : reader.data = p.buildImage crates) :
    ∃ reader', reader.Follows reader' ∧ unlockWithPassword crates reader p.password =
      .ok {
        decrypted := .new reader' (p.keys crates)
          (UInt64.ofNat (saturatingMul (p.lvPhysicalBlock.toNat % 2 ^ 48) p.blockSize.toNat))
          p.lvSize
        info := p.info crates } := by
  obtain ⟨-, -, -, hpvId⟩ := ofFields_buildImage fits placed
  obtain ⟨reader', follows, hunlock⟩ := unlockWithPassword_healthy crates healthy p.password
  refine ⟨reader', follows, ?_⟩
  rw [hunlock, hdata, loadMetadata_buildImage lawful fits placed, ok_bind]
  simp only [openVolume]
  rw [extract_context lawful fits, ok_bind, extract_logicalVolume lawful fits, ok_bind,
    show parseUuidBytes crates (p.logicalVolume crates).familyUuid = some p.family from
      lawful.parse_hyphenated p.family, okOr_some, ok_bind,
    deriveVolumeKeys_fixture lawful hiterations, ok_bind,
    resolveLvExtent_buildImage fits placed hsize]
  simp only [ok_bind, pure_run, buildInfo, hpvId, context, logicalVolume, info]

end

end Fixture

end FileVault
