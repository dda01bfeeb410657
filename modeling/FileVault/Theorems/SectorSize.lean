import FileVault.Theorems.RoundTrip
import FileVault.Theorems.Transform

/-!
# The sector size of the header and the unit of decryption

The header has a field for the size of the sectors that the logical volume is
encrypted in. The field is parsed, and the volume is decrypted in sectors of 512
bytes: for any other size a read gives other bytes, unless the two decryptions
happen to agree.
-/

namespace FileVault

open Lib

/-- The volume is read in units of `unit` bytes, which is a size that units can have:
every byte of an answer is the decryption of its unit, and the ciphertext of a
plaintext reads back as the plaintext, at every offset and length. -/
structure SectorSizeFaithful (crates : Crates) (vol : DecryptedVolume) (unit : Nat) : Prop where
  unit_pos : 0 < unit
  unit_blocks : 16 ∣ unit
  bytes : ∀ (offset : UInt64) (buf : Bytes) (n : Nat) (buf' : Bytes) (vol' : DecryptedVolume),
    vol.readAt crates offset buf = (.ok n, buf', vol') → ∀ i < n,
      buf'[i]? = unitByte? crates vol.keys vol.reader.data vol.physicalBase.toNat unit
        (offset.toNat + i)
  plaintext : ∀ plain : Bytes, unit ∣ plain.length → vol.size.toNat ≤ plain.length →
    vol.physicalBase.toNat + plain.length ≤ vol.reader.data.length →
    vol.reader.data.length ≤ isizeMax →
    encryptUnits crates plain vol.keys.vmk vol.keys.tweakKey unit 0 =
      .ok (slice vol.reader.data vol.physicalBase.toNat plain.length) →
    ∀ (offset : UInt64) (buf : Bytes), ∃ vol', vol.readAt crates offset buf =
      (.ok (slice (plain.take vol.size.toNat) offset.toNat buf.length).length,
        splice buf 0 (slice (plain.take vol.size.toNat) offset.toNat buf.length), vol')

section

variable {crates : Crates} {vol : DecryptedVolume} {unit : Nat}

/-- A volume whose bytes are those of a plaintext inside the image is read as it. -/
theorem DecryptedVolume.readAt_plain (healthy : vol.reader.Healthy) {plain : Bytes}
    (hsize : vol.size.toNat ≤ plain.length)
    (hinside : vol.physicalBase.toNat + plain.length ≤ vol.reader.data.length)
    (hlen : vol.reader.data.length ≤ isizeMax)
    (hplain : ∀ x < vol.size.toNat,
      plainByte? crates vol.keys vol.reader.data vol.physicalBase.toNat x = plain[x]?)
    (offset : UInt64) (buf : Bytes) :
    ∃ vol', vol.readAt crates offset buf =
      (.ok (slice (plain.take vol.size.toNat) offset.toNat buf.length).length,
        splice buf 0 (slice (plain.take vol.size.toNat) offset.toNat buf.length), vol') := by
  have usize := usizeSize_eq
  have isize := isizeMax_eq
  have fits : vol.Fits := by
    unfold DecryptedVolume.Fits sectorSize
    omega
  have hdata : (vol.cursor crates).data = plain.take vol.size.toNat := by
    apply List.ext_getElem?
    intro x
    by_cases hx : x < vol.size.toNat
    · rw [DecryptedVolume.cursor, plaintextOf_getElem? _ _ _ hx, hplain x hx,
        List.getElem?_take, if_pos hx]
    · rw [DecryptedVolume.cursor, List.getElem?_eq_none (by rw [plaintextOf_length]; omega),
        List.getElem?_eq_none (by rw [List.length_take]; omega)]
  obtain ⟨reader', -, hread⟩ := readAt_cursor crates healthy fits offset buf
  rw [hdata] at hread
  exact ⟨_, hread⟩

/-- A volume is faithful to a sector size whose decryption agrees with that of 512-byte
sectors wherever it can be read. -/
theorem DecryptedVolume.sectorSizeFaithful_of_agree (lawful : crates.Lawful)
    (healthy : vol.reader.Healthy) (hpos : 0 < unit) (hblocks : 16 ∣ unit)
    (agree : ∀ x, vol.Readable x →
      unitByte? crates vol.keys vol.reader.data vol.physicalBase.toNat unit x =
        unitByte? crates vol.keys vol.reader.data vol.physicalBase.toNat sectorSize x) :
    SectorSizeFaithful crates vol unit := by
  refine ⟨hpos, hblocks, ?_, ?_⟩
  · intro offset buf n buf' vol' hread i hi
    obtain ⟨readable, hplain⟩ := DecryptedVolume.readAt_byte healthy hread hi
    rw [hplain, agree _ readable, plainByte?_eq_unitByte?]
  · intro plain hwhole hsize hinside hlen hcipher
    have usize := usizeSize_eq
    have isize := isizeMax_eq
    refine DecryptedVolume.readAt_plain healthy hsize hinside hlen ?_
    intro x hx
    have readable : vol.Readable x := ⟨hx, .inl (by unfold sectorSize; omega)⟩
    rw [plainByte?_eq_unitByte?, ← agree x readable]
    exact unitByte?_encryptUnits lawful hblocks hwhole hinside (by omega) hcipher (by omega)

end

/-- An unlocked volume is faithful to the sector size of its header exactly when that is
a size units can have whose decryption of the volume agrees, at every byte that can
be read, with the one in units of 512 bytes. -/
theorem readAt_sectorSizeFaithful_iff {crates : Crates} (lawful : crates.Lawful)
    {reader : Reader} {password : String} {vol : FileVaultVolume} (healthy : reader.Healthy)
    (run : Unlocked crates reader password vol) :
    SectorSizeFaithful crates vol.decrypted run.header.bytesPerSector.toNat ↔
      0 < run.header.bytesPerSector.toNat ∧ 16 ∣ run.header.bytesPerSector.toNat ∧
        ∀ x < run.size,
          (x + sectorSize < usizeSize ∨ run.base + sectorSize < usizeSize) →
          unitByte? crates run.keys reader.data run.base run.header.bytesPerSector.toNat x =
            unitByte? crates run.keys reader.data run.base sectorSize x := by
  have follows := run.follows healthy
  constructor
  · intro faithful
    refine ⟨faithful.unit_pos, faithful.unit_blocks, ?_⟩
    intro x hx hroom
    obtain ⟨offset, buf, n, buf', vol', i, hread, hi, rfl⟩ :=
      DecryptedVolume.readAt_readable crates follows.healthy (x := x)
        ⟨by rw [run.size_eq]; exact hx, by rw [run.physicalBase_eq]; exact hroom⟩
    have hunit := faithful.bytes offset buf n buf' vol' hread i hi
    have hplain := (DecryptedVolume.readAt_byte follows.healthy hread hi).2
    rw [hunit, run.keys_eq, follows.data, run.physicalBase_eq] at hplain
    exact hplain
  · rintro ⟨hpos, hblocks, agree⟩
    refine DecryptedVolume.sectorSizeFaithful_of_agree lawful follows.healthy hpos hblocks ?_
    rintro x ⟨hx, hroom⟩
    rw [run.size_eq] at hx
    rw [run.physicalBase_eq] at hroom
    rw [run.keys_eq, follows.data, run.physicalBase_eq]
    exact agree x hx hroom

/-- The synthetic image, whose sectors are of 512 bytes, is read in its own units. -/
theorem readAt_sectorSizeFaithful_synthetic :
    ∃ vol, ∃ run : Unlocked standardCrates
        (.cursor (Fixture.synthetic.buildImage standardCrates)) Fixture.synthetic.password vol,
      SectorSizeFaithful standardCrates vol.decrypted run.header.bytesPerSector.toNat := by
  obtain ⟨vol, run, -, -, hsector, -, -⟩ := Fixture.unlocked_buildImage
    standardCrates_lawful Fixture.synthetic_fits Fixture.synthetic_placed (by decide) (by decide)
  refine ⟨vol, run, (readAt_sectorSizeFaithful_iff standardCrates_lawful
    (Reader.healthy_cursor _) run).mpr ?_⟩
  rw [hsector]
  exact ⟨by decide, by decide, fun _ _ _ => rfl⟩

/-! ## Sectors of another size -/

/-- The byte ramp as a volume of 4096-byte sectors: encrypted in units of that size. -/
def largeSectorCipher : Bytes :=
  leftBy (encryptUnits standardCrates Fixture.synthetic.lvPlain Fixture.synthetic.vmk
    (Fixture.synthetic.tweakKey standardCrates) 4096 0)

/-- The synthetic image with this volume in it. The builder encrypts in units of 512 bytes, so
what it is given is what the ciphertext comes to in them. -/
def largeSector : Fixture :=
  { Fixture.synthetic with
    bytesPerSector := 4096
    lvPlain := leftBy (decryptUnits standardCrates largeSectorCipher Fixture.synthetic.vmk
      (Fixture.synthetic.tweakKey standardCrates) 512 0) }

theorem ramp_length : Fixture.synthetic.lvPlain.length = 16384 := by simp [Fixture.synthetic]

theorem encryptUnits_ramp :
    encryptUnits standardCrates Fixture.synthetic.lvPlain Fixture.synthetic.vmk
      (Fixture.synthetic.tweakKey standardCrates) 4096 0 = .ok largeSectorCipher := by
  have hindex : 0 + 4 ≤ 2 ^ 128 := by decide
  have hlen : Fixture.synthetic.lvPlain.length = 4 * 4096 := ramp_length
  rw [largeSectorCipher, encryptUnits_whole (by decide) hlen hindex, leftBy_ok]

theorem largeSectorCipher_length : largeSectorCipher.length = 16384 :=
  (encryptUnits_length encryptUnits_ramp).trans ramp_length

theorem largeSector_tweakKey :
    largeSector.tweakKey standardCrates = Fixture.synthetic.tweakKey standardCrates := by
  unfold Fixture.tweakKey
  rfl

theorem decryptUnits_largeSectorCipher :
    decryptUnits standardCrates largeSectorCipher Fixture.synthetic.vmk
      (Fixture.synthetic.tweakKey standardCrates) 512 0 = .ok largeSector.lvPlain := by
  have hindex : 0 + 32 ≤ 2 ^ 128 := by decide
  have hlen : largeSectorCipher.length = 32 * 512 := largeSectorCipher_length
  unfold largeSector
  rw [decryptUnits_whole (by decide) hlen hindex, leftBy_ok]

theorem largeSector_lvPlain_length : largeSector.lvPlain.length = 16384 :=
  (decryptUnits_length (by decide) (by rw [largeSectorCipher_length]; decide)
    decryptUnits_largeSectorCipher).trans largeSectorCipher_length

/-- The builder encrypts the plaintext of the large sectors back. -/
theorem largeSector_lvCipher : largeSector.lvCipher standardCrates = largeSectorCipher := by
  have back : encryptUnits standardCrates largeSector.lvPlain largeSector.vmk
      (largeSector.tweakKey standardCrates) 512 0 = .ok largeSectorCipher := by
    rw [largeSector_tweakKey]
    exact (encryptUnits_ok_iff standardCrates_invertible _ _ _ _ _ _).mpr
      decryptUnits_largeSectorCipher
  rw [Fixture.lvCipher, back, leftBy_ok]

theorem largeSector_placed : largeSector.Placed :=
  { Fixture.synthetic_placed with
    lv_apart := .inr (by
      rw [largeSector_lvPlain_length]
      decide) }

theorem largeSector_wellFormed : largeSector.WellFormed standardCrates where
  toPlaced := largeSector_placed
  sector_dvd := by decide
  context_fits := by
    rw [show (largeSector.contextPlist standardCrates).length = 1101 from
      Fixture.synthetic_contextPlist_length standardCrates_lawful]
    decide
  lv_fits := by
    rw [show (largeSector.lvPlist standardCrates).length = 379 from
      Fixture.synthetic_lvPlist_length rfl]
    decide
  status_clean := by decide
  name_clean := by decide
  identifier_clean := by decide
  blocks_min := by decide
  blocks_max := by decide
  iterations_pos := by decide
  lv_length := largeSector_lvPlain_length
  size_pos := by decide
  size_le := by decide

/-- What was encrypted in units of 4096 bytes and is decrypted in units of 512 bytes has, behind the
first 512 bytes, the 33rd block of the first unit under the first tweak of the second one. -/
theorem decryptUnits_small_of_large {key1 key2 : ByteArr 16} {plain cipher back : Bytes}
    (hlen : plain.length = 4 * 4096)
    (hencrypt : encryptUnits standardCrates plain key1 key2 4096 0 = .ok cipher)
    (hdecrypt : decryptUnits standardCrates cipher key1 key2 512 0 = .ok back) :
    back[512]? =
      (xtsBlock (Aes.decrypt key1.val) (blockTweak (Aes.encrypt key2.val (leBytes 16 1)) 0)
        (xtsBlock (Aes.encrypt key1.val) (blockTweak (Aes.encrypt key2.val (leBytes 16 0)) 32)
          (slice plain 512 16)))[0]? := by
  have hcipher : cipher.length = 32 * 512 := (encryptUnits_length hencrypt).trans hlen
  have largeUnit : (slice plain 0 4096).length = 4096 := slice_length_of_le (by omega)
  have smallUnit : (slice cipher 512 512).length = 512 := slice_length_of_le (by omega)
  rw [encryptUnits_whole (by decide) hlen (by decide : 0 + 4 ≤ 2 ^ 128), Except.ok.injEq]
    at hencrypt
  rw [decryptUnits_whole (by decide) hcipher (by decide : 0 + 32 ≤ 2 ^ 128), Except.ok.injEq]
    at hdecrypt
  -- the block under the tweaks of the large unit
  have large : slice cipher 0 4096 =
      standardCrates.encryptSector key1 key2 0 (slice plain 0 4096) := by
    rw [← hencrypt]
    exact mapUnits_slice (standardCrates.encryptSector_keeps key1 key2) hlen.ge (by decide : 0 < 4)
  have block := standardCrates_encryptSector_block key1 key2 0 (by rw [largeUnit])
    (by rw [largeUnit]; decide : 32 < (slice plain 0 4096).length / 16)
  rw [← large] at block
  simp only [Nat.reduceMul, slice_slice (by decide : 512 + 16 ≤ 4096), Nat.zero_add] at block
  -- and under those of the small one
  have small : back[512]? =
      (standardCrates.decryptSector key1 key2 1 (slice cipher 512 512))[0]? := by
    rw [← hdecrypt, mapUnits_getElem? (standardCrates.decryptSector_keeps key1 key2) hcipher.ge
      (by decide)]
  have first := standardCrates_decryptSector_block key1 key2 1 (by rw [smallUnit])
    (by rw [smallUnit]; decide : 0 < (slice cipher 512 512).length / 16)
  simp only [Nat.zero_mul, slice_slice (by decide : 0 + 16 ≤ 512), Nat.add_zero] at first
  rw [small, ← block, ← first, slice_getElem?, if_pos (by decide)]

/-- The byte behind the first 512 is not that of the ramp. -/
theorem largeSector_byte : largeSector.lvPlain[512]? ≠ Fixture.synthetic.lvPlain[512]? := by
  rw [decryptUnits_small_of_large ramp_length encryptUnits_ramp decryptUnits_largeSectorCipher]
  decide +kernel

/-- The volume of 4096-byte sectors: unlocked, with its ciphertext where it should be, and read as
what 512-byte units make of it. -/
theorem largeSector_unlocked :
    ∃ vol, ∃ run : Unlocked standardCrates (.cursor (largeSector.buildImage standardCrates))
        largeSector.password vol,
      run.header.bytesPerSector = 4096 ∧ run.size = 16384 ∧
      run.base + Fixture.synthetic.lvPlain.length ≤
        (largeSector.buildImage standardCrates).length ∧
      (largeSector.buildImage standardCrates).length ≤ isizeMax ∧
      encryptUnits standardCrates Fixture.synthetic.lvPlain run.keys.vmk run.keys.tweakKey 4096 0 =
        .ok (slice (largeSector.buildImage standardCrates) run.base
          Fixture.synthetic.lvPlain.length) ∧
      ∀ offset buf, ∃ vol', vol.decrypted.readAt standardCrates offset buf =
        (.ok (slice (largeSector.lvPlain.take 16384) offset.toNat buf.length).length,
          splice buf 0 (slice (largeSector.lvPlain.take 16384) offset.toNat buf.length), vol') := by
  have h := largeSector_wellFormed
  obtain ⟨vol, run, hsegments, hblock, hsector, hsize, hkeys⟩ := Fixture.unlocked_buildImage
    standardCrates_lawful h.fits largeSector_placed (by decide) (by decide)
  have follows := run.follows (Reader.healthy_cursor _)
  have hfirst : run.segments.head? = some largeSector.segment := by rw [hsegments]; rfl
  have hbase : run.base = largeSector.lvStart := by
    rw [run.base_of_first hfirst (by rw [hblock]; decide), hblock]
    decide
  have image : (largeSector.buildImage standardCrates).length = 81920 :=
    Fixture.buildImage_length h.fits largeSector_placed
  have length : Fixture.synthetic.lvPlain.length = largeSector.lvPlain.length :=
    ramp_length.trans largeSector_lvPlain_length.symm
  have cipher : slice (largeSector.buildImage standardCrates) run.base
      largeSector.lvPlain.length = largeSectorCipher := by
    rw [hbase, h.slice_lvCipher, largeSector_lvCipher]
  have inside : run.base + largeSector.lvPlain.length ≤
      (largeSector.buildImage standardCrates).length := by
    rw [hbase, image, largeSector_lvPlain_length]
    decide
  have small : encryptUnits standardCrates largeSector.lvPlain run.keys.vmk run.keys.tweakKey
      sectorSize 0 =
        .ok (slice (largeSector.buildImage standardCrates) run.base
          largeSector.lvPlain.length) := by
    rw [cipher, hkeys, ← largeSector_lvCipher]
    exact h.encryptUnits_lv
  refine ⟨vol, run, hsector, hsize, by rw [length]; exact inside, by rw [image]; decide, ?_, ?_⟩
  · rw [length, cipher, hkeys, Fixture.keys, largeSector_tweakKey]
    exact encryptUnits_ramp
  · have limit : (16384 : Nat) = vol.decrypted.size.toNat := by
      rw [run.size_eq, hsize]
      rfl
    rw [limit]
    refine DecryptedVolume.readAt_plain follows.healthy ?_ ?_ ?_ ?_
    · rw [← limit, largeSector_lvPlain_length]
    · rw [run.physicalBase_eq, follows.data]
      exact inside
    · rw [follows.data]
      exact image.le.trans (by decide)
    · intro x hx
      rw [plainByte?_eq_unitByte?, run.keys_eq, follows.data, run.physicalBase_eq]
      exact unitByte?_encryptUnits standardCrates_lawful (by decide)
        (by rw [largeSector_lvPlain_length]; decide) inside
        (by rw [largeSector_lvPlain_length]; decide) small
        (by rw [largeSector_lvPlain_length]; omega)

/-- The image holds the ciphertext of the ramp in units of the 4096 bytes that its header says, it
unlocks, and the byte behind the first 512 is not read as it stands in the ramp. -/
theorem largeSector_not_sectorSizeFaithful :
    ∃ vol, ∃ run : Unlocked standardCrates (.cursor (largeSector.buildImage standardCrates))
        largeSector.password vol,
      run.header.bytesPerSector = 4096 ∧ run.size = 16384 ∧
      run.base + Fixture.synthetic.lvPlain.length ≤
        (largeSector.buildImage standardCrates).length ∧
      encryptUnits standardCrates Fixture.synthetic.lvPlain run.keys.vmk run.keys.tweakKey 4096 0 =
        .ok (slice (largeSector.buildImage standardCrates) run.base
          Fixture.synthetic.lvPlain.length) ∧
      (∃ b vol', vol.decrypted.readAt standardCrates 512 [0] = (.ok 1, [b], vol') ∧
        some b ≠ Fixture.synthetic.lvPlain[512]?) ∧
      ¬ SectorSizeFaithful standardCrates vol.decrypted run.header.bytesPerSector.toNat := by
  obtain ⟨vol, run, hsector, hsize, inside, himage, cipher, reads⟩ := largeSector_unlocked
  have follows := run.follows (Reader.healthy_cursor _)
  have one : ∀ xs : Bytes, xs.length = 16384 → ∃ b, xs[512]? = some b ∧
      slice (xs.take 16384) (512 : UInt64).toNat [(0 : UInt8)].length = [b] := by
    intro xs hxs
    obtain ⟨b, hb⟩ : ∃ b, xs[512]? = some b := ⟨_, List.getElem?_eq_getElem (by omega)⟩
    refine ⟨b, hb, ?_⟩
    rw [← hxs, List.take_length]
    exact slice_one hb
  obtain ⟨b, hb, hread⟩ := one _ largeSector_lvPlain_length
  obtain ⟨c, hc, hramp⟩ := one _ ramp_length
  have other : b ≠ c := by
    rintro rfl
    exact largeSector_byte (hb.trans hc.symm)
  obtain ⟨vol', hvol⟩ := reads 512 [0]
  rw [hread] at hvol
  refine ⟨vol, run, hsector, hsize, inside, cipher, ⟨b, vol', hvol, ?_⟩, ?_⟩
  · rw [hc]
    exact fun h => other (Option.some.inj h)
  · intro faithful
    rw [hsector] at faithful
    obtain ⟨vol'', hplain⟩ := faithful.plaintext Fixture.synthetic.lvPlain
      (by rw [ramp_length]; decide) (by rw [run.size_eq, hsize, ramp_length])
      (by rw [run.physicalBase_eq, follows.data]; exact inside)
      (by rw [follows.data]; exact himage)
      (by rw [run.keys_eq, run.physicalBase_eq, follows.data]; exact cipher) 512 [0]
    rw [run.size_eq, hsize, hramp, hvol] at hplain
    exact other (List.cons.inj (congrArg (·.2.1) hplain)).1

end FileVault
