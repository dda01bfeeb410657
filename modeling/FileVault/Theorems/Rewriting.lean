import FileVault.Logic.OtherMetadata
import FileVault.Theorems.Damage
import FileVault.Theorems.Diagnosis
import FileVault.Theorems.PartialUnits

/-!
# Rewritten metadata

The key of the metadata stands in the header in the clear, and its cipher takes every ciphertext to
some plaintext. So whatever stands in the place of the encrypted metadata loads, and every metadata
of this length is loaded from one ciphertext, which takes no password to find.
-/

namespace FileVault

open Lib

/-! ## Unit by unit -/

section

variable {key1 key2 : ByteArr 16} {unitSize first : Nat} {buffer buffer' plain plain' : Bytes}

/-- A whole unit of what a buffer decrypts to. -/
theorem decryptUnits_slice {crates : Crates} (hsize : 16 ≤ unitSize)
    (hindex : first + buffer.length < 2 ^ 128)
    (h : decryptUnits crates buffer key1 key2 unitSize first = .ok plain) {k : Nat}
    (hk : k < buffer.length / unitSize) :
    slice plain (k * unitSize) unitSize =
      crates.decryptSector key1 key2 (first + k) (slice buffer (k * unitSize) unitSize) := by
  have hcount : buffer.length / unitSize ≤ buffer.length := Nat.div_le_self _ _
  rw [decryptUnits_split hsize (by omega)] at h
  obtain ⟨rest, -, happend⟩ := bind_eq_ok.mp h
  obtain rfl := Except.ok.inj happend
  exact slice_units_append hk

/-- A cipher block in a whole unit comes from the block at its place, and from no other. -/
theorem decryptUnits_block_iff {crates : Crates} (blocks : crates.BlockWise)
    (hunit : 16 ∣ unitSize) (hpos : 0 < unitSize) (hlen : buffer'.length = buffer.length)
    (hindex : first + buffer.length < 2 ^ 128)
    (h : decryptUnits crates buffer key1 key2 unitSize first = .ok plain)
    (h' : decryptUnits crates buffer' key1 key2 unitSize first = .ok plain') {b : Nat}
    (hb : 16 * b + 16 ≤ buffer.length / unitSize * unitSize) :
    slice plain' (16 * b) 16 = slice plain (16 * b) 16 ↔
      slice buffer' (16 * b) 16 = slice buffer (16 * b) 16 := by
  obtain ⟨m, rfl⟩ := hunit
  have hm : 0 < m := by omega
  have hsize : 16 ≤ 16 * m := by omega
  -- block `b` is block `b % m` of unit `b / m`
  have place : b / m * (16 * m) + b % m * 16 = 16 * b := by
    calc b / m * (16 * m) + b % m * 16 = 16 * (m * (b / m) + b % m) := by ring
      _ = 16 * b := by rw [Nat.div_add_mod]
  have hmod : b % m < m := Nat.mod_lt _ hm
  have inner : b % m * 16 + 16 ≤ 16 * m := by omega
  have hk : b / m < buffer.length / (16 * m) := by
    have below : b / m * (16 * m) < buffer.length / (16 * m) * (16 * m) := by omega
    exact Nat.lt_of_mul_lt_mul_right below
  have whole : b / m * (16 * m) + 16 * m ≤ buffer.length := by
    calc b / m * (16 * m) + 16 * m = (b / m + 1) * (16 * m) := by ring
      _ ≤ buffer.length / (16 * m) * (16 * m) := Nat.mul_le_mul_right _ hk
      _ ≤ buffer.length := Nat.div_mul_le_self _ _
  have unit := decryptUnits_slice hsize hindex h hk
  have unit' := decryptUnits_slice hsize (hlen ▸ hindex) h' (hlen ▸ hk)
  have length : (slice buffer (b / m * (16 * m)) (16 * m)).length = 16 * m :=
    slice_length_of_le whole
  have length' : (slice buffer' (b / m * (16 * m)) (16 * m)).length = 16 * m :=
    slice_length_of_le (hlen ▸ whole)
  have block := blocks.decrypt_block key1 key2 (first + b / m) _ _ (b % m)
    (length'.trans length.symm) (by rw [length]; exact Nat.dvd_mul_right 16 m)
    (by rw [length, Nat.mul_div_cancel_left m (by decide)]; exact hmod)
  rw [← unit, ← unit', slice_slice inner, slice_slice inner, slice_slice inner, slice_slice inner,
    place] at block
  exact block

end

/-! ## Every metadata has its ciphertext -/

section

variable {crates : Crates} {header : VolumeHeader} {cipher metadata : Bytes}

/-- Where one ciphertext decrypts, every one of its length does. -/
theorem decryptMetadata_returns (hlt : cipher.length < 2 ^ 128)
    (h : decryptMetadata crates header cipher = .ok metadata) {other : Bytes}
    (hlen : other.length = cipher.length) :
    ∃ plain, decryptMetadata crates header other = .ok plain ∧ plain.length = cipher.length := by
  have ends := decryptUnits_returns_iff.mp ⟨metadata, h⟩
  have returns : ∃ plain, decryptMetadata crates header other = .ok plain := by
    unfold decryptMetadata
    rw [decryptUnits_returns_iff, hlen]
    exact ends
  obtain ⟨plain, hplain⟩ := returns
  exact ⟨plain, hplain, (decryptUnits_length (by decide) (by omega) hplain).trans hlen⟩

/-- Where one ciphertext decrypts, every plaintext of its length has exactly one ciphertext. -/
theorem decryptMetadata_reaches (invertible : crates.Invertible) (hlt : cipher.length < 2 ^ 128)
    (h : decryptMetadata crates header cipher = .ok metadata) {forged : Bytes}
    (hlen : forged.length = cipher.length) :
    ∃ cipher', encryptUnits crates forged header.keyData header.physicalVolumeIdentifier
        metadataUnitSize 0 = .ok cipher' ∧ cipher'.length = cipher.length ∧
      ∀ other, decryptMetadata crates header other = .ok forged ↔ other = cipher' := by
  obtain ⟨plain, hplain, hsame⟩ := decryptMetadata_returns hlt h hlen
  rw [decryptMetadata] at hplain
  have lengths := encryptUnits_lengths crates header.keyData
    header.physicalVolumeIdentifier metadataUnitSize 0 forged
  obtain ⟨cipher', hencrypt⟩ := (returns_alike lengths).mpr ⟨plain, hplain⟩
  rw [hencrypt, hplain] at lengths
  refine ⟨cipher', hencrypt, (Except.ok.inj lengths).trans hsame, ?_⟩
  intro other
  rw [decryptMetadata, ← encryptUnits_ok_iff invertible, hencrypt, Except.ok.injEq]
  exact eq_comm

end

/-- In an image that loads, any bytes in the place of the encrypted metadata load as well, under the
same header, and the plaintext is another in exactly the cipher blocks that are, as far as the whole
units go. And any plaintext of this length is loaded from one ciphertext, its encryption under the
keys in the header, and parsed as if the image had been built with it. -/
theorem metadata_forged {crates : Crates} (invertible : crates.Invertible)
    (blocks : crates.BlockWise) {image : Bytes} {header : VolumeHeader} {metadata : Bytes}
    (h : loadMetadata crates image = .ok (header, metadata)) (apart : MetadataApart image) :
    (∀ cipher : Bytes, cipher.length = metadata.length → ∃ metadata',
      loadMetadata crates (withMetadata image cipher) = .ok (header, metadata') ∧
      metadata'.length = metadata.length ∧
      ∀ b, 16 * b + 16 ≤ metadata.length / metadataUnitSize * metadataUnitSize →
        (slice metadata' (16 * b) 16 = slice metadata (16 * b) 16 ↔
          slice cipher (16 * b) 16 = slice (cipherOf image) (16 * b) 16)) ∧
    ∀ forged : Bytes, forged.length = metadata.length → ∃ cipher,
      encryptUnits crates forged header.keyData header.physicalVolumeIdentifier
        metadataUnitSize 0 = .ok cipher ∧
      (∀ other : Bytes, other.length = metadata.length →
        (loadMetadata crates (withMetadata image other) = .ok (header, forged) ↔
          other = cipher)) ∧
      ∀ reader : Reader, reader.Healthy → reader.data = withMetadata image cipher →
        parseInfo crates reader = describe crates header forged := by
  have accepted := accepted_of_load h
  have hlt := accepted.length_lt
  have hcipher : (cipherOf image).length = (layoutOf image).length :=
    slice_length_of_le accepted.primary_inside
  rw [accepted.load] at h
  obtain ⟨plaintext, hdecrypt, hpair⟩ := bind_eq_ok.mp h
  obtain ⟨rfl, rfl⟩ : VolumeHeader.ofFields image = header ∧ plaintext = metadata := by
    simpa using hpair
  have hold : decryptMetadata crates (.ofFields image) (cipherOf image) =
      .ok plaintext := hdecrypt
  -- the metadata is as long as its ciphertext
  have hlen : plaintext.length = (cipherOf image).length :=
    decryptUnits_length (by decide) (by omega) hold
  rw [hlen]
  constructor
  · intro cipher hnew
    obtain ⟨plain, hplain, hsame⟩ := decryptMetadata_returns (by omega) hold hnew
    have loads :=
      (loadMetadata_withMetadata_iff accepted apart (hnew.trans hcipher)).mpr hplain
    refine ⟨plain, loads, hsame, ?_⟩
    intro b hb
    exact decryptUnits_block_iff blocks (by decide) (by decide) hnew (by omega) hold hplain hb
  · intro forged hforged
    obtain ⟨cipher, hencrypt, hsame, one⟩ :=
      decryptMetadata_reaches invertible (by omega) hold hforged
    have loads : ∀ other : Bytes, other.length = (cipherOf image).length →
        (loadMetadata crates (withMetadata image other) =
          .ok (.ofFields image, forged) ↔ other = cipher) := by
      intro other hother
      rw [loadMetadata_withMetadata_iff accepted apart (hother.trans hcipher)]
      exact one other
    refine ⟨cipher, hencrypt, loads, ?_⟩
    intro reader healthy hdata
    rw [parseInfo_healthy crates healthy, hdata, (loads cipher hsame).mpr rfl]
    rfl

/-- The metadata of the synthetic image. -/
theorem metadata_synthetic_forged :
    let image := Fixture.synthetic.buildImage standardCrates
    let header := VolumeHeader.ofFields image
    let metadata := Fixture.synthetic.buildDecryptedMetadata standardCrates
    (∀ cipher : Bytes, cipher.length = metadata.length → ∃ metadata',
      loadMetadata standardCrates (withMetadata image cipher) = .ok (header, metadata') ∧
      metadata'.length = metadata.length ∧
      ∀ b, 16 * b + 16 ≤ metadata.length / metadataUnitSize * metadataUnitSize →
        (slice metadata' (16 * b) 16 = slice metadata (16 * b) 16 ↔
          slice cipher (16 * b) 16 = slice (cipherOf image) (16 * b) 16)) ∧
    ∀ forged : Bytes, forged.length = metadata.length → ∃ cipher,
      encryptUnits standardCrates forged header.keyData header.physicalVolumeIdentifier
        metadataUnitSize 0 = .ok cipher ∧
      (∀ other : Bytes, other.length = metadata.length →
        (loadMetadata standardCrates (withMetadata image other) = .ok (header, forged) ↔
          other = cipher)) ∧
      ∀ reader : Reader, reader.Healthy → reader.data = withMetadata image cipher →
        parseInfo standardCrates reader = describe standardCrates header forged := by
  refine metadata_forged standardCrates_invertible standardCrates_blockWise
    (Fixture.loadMetadata_buildImage standardCrates_lawful Fixture.synthetic_fits
      Fixture.synthetic_placed) ?_
  rw [MetadataApart, Fixture.layoutOf_buildImage Fixture.synthetic_fits Fixture.synthetic_placed]
  decide

end FileVault
