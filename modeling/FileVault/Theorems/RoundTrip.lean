import FileVault.Logic.Synthetic
import FileVault.Theorems.Stream

/-!
# The whole format, there and back

Every image that the builder writes unlocks with its password, reports what it
was built with, and reads back the plaintext it was built from.
-/

namespace FileVault

open Lib

namespace Fixture

/-- The parameters make sense: the property lists fit in their blocks, the parts of
the image do not meet, and the one segment covers the volume. The plaintext region
occupies whole blocks. -/
structure WellFormed (crates : Crates) (p : Fixture) : Prop extends Placed p where
  sector_dvd : 512 ∣ p.blockSize.toNat
  context_fits : 64 + (p.contextPlist crates).length ≤ p.blockSize.toNat
  lv_fits : 64 + (p.lvPlist crates).length ≤ p.blockSize.toNat
  status_clean : '<' ∉ p.status.toList
  name_clean : '<' ∉ p.lvName.toList
  identifier_clean : '<' ∉ p.lvIdentifier.toList
  blocks_min : 3 ≤ p.metadataBlocks
  blocks_max : p.metadataBlocks ≤ 2 ^ 20
  iterations_pos : 1 ≤ p.iterations.toNat
  lv_length : p.lvPlain.length = p.lvBlocks.toNat * p.blockSize.toNat
  size_pos : 1 ≤ p.lvSize.toNat
  size_le : p.lvSize.toNat ≤ p.lvBlocks.toNat * p.blockSize.toNat

variable {crates : Crates} {p : Fixture}

theorem WellFormed.fits (h : p.WellFormed crates) : p.Fits crates where
  context_fits := h.context_fits
  lv_fits := h.lv_fits
  segment_fits := by
    have positive : 0 < p.blockSize.toNat := by
      have := h.context_fits
      omega
    have := Nat.le_of_dvd positive h.sector_dvd
    omega
  status_clean := h.status_clean
  name_clean := h.name_clean
  identifier_clean := h.identifier_clean
  blocks_min := h.blocks_min
  blocks_max := h.blocks_max

theorem WellFormed.lvPlain_ne_nil (h : p.WellFormed crates) : p.lvPlain ≠ [] := by
  intro hnil
  have hlen := h.lv_length
  have hpos := h.size_pos
  have hle := h.size_le
  rw [hnil, List.length_nil] at hlen
  omega

/-- The logical volume has its own place in the image. -/
theorem WellFormed.lv_inside (h : p.WellFormed crates) :
    p.lvStart + p.lvPlain.length ≤ p.total := by
  rcases h.lv_apart with hnil | ⟨hinside, -⟩
  · exact absurd hnil h.lvPlain_ne_nil
  · exact hinside

theorem WellFormed.sector_dvd_lv (h : p.WellFormed crates) : sectorSize ∣ p.lvPlain.length := by
  rw [h.lv_length]
  exact Dvd.dvd.mul_left h.sector_dvd _

/-- The builder encrypts the volume in whole units, so no call of its own panics on it. -/
theorem WellFormed.encryptUnits_lv (h : p.WellFormed crates) :
    encryptUnits crates p.lvPlain p.vmk (p.tweakKey crates) 512 0 = .ok (p.lvCipher crates) := by
  have usize := usizeSize_eq
  have hinside := h.lv_inside
  have htotal := h.total_lt
  have hcount : p.lvPlain.length / 512 * 512 = p.lvPlain.length :=
    Nat.div_mul_cancel h.sector_dvd_lv
  have hindex : 0 + p.lvPlain.length / 512 ≤ 2 ^ 128 := by omega
  rw [lvCipher, encryptUnits_whole (by decide) hcount.symm hindex]
  rfl

theorem WellFormed.slice_lvCipher (h : p.WellFormed crates) :
    slice (p.buildImage crates) p.lvStart p.lvPlain.length = p.lvCipher crates := by
  have hlen : (p.lvCipher crates).length = p.lvPlain.length :=
    encryptUnits_length h.encryptUnits_lv
  have hfilled := filled_length (metadataWrites_fit h.fits h.toPlaced)
  have hinside := h.lv_inside
  rw [buildImage_eq, ← hlen]
  exact slice_splice_self (by omega)

/-- The plaintext of the volume is the one the image was built from. -/
theorem WellFormed.plaintextOf_eq (lawful : crates.Lawful) (h : p.WellFormed crates) :
    plaintextOf crates (p.keys crates) (p.buildImage crates) p.lvStart p.lvSize.toNat =
      p.lvPlain.take p.lvSize.toNat := by
  have hsize := h.size_le
  have hlen := h.lv_length
  have hinside := h.lv_inside
  have htotal := buildImage_length h.fits h.toPlaced
  have usize := usizeSize_eq
  have hlt := h.total_lt
  -- the decoder's keys and unit are the ones that the builder has used
  have hcipher : encryptUnits crates p.lvPlain (p.keys crates).vmk (p.keys crates).tweakKey
      sectorSize 0 = .ok (slice (p.buildImage crates) p.lvStart p.lvPlain.length) := by
    rw [h.slice_lvCipher]
    exact h.encryptUnits_lv
  apply List.ext_getElem?
  intro x
  by_cases hx : x < p.lvSize.toNat
  · rw [plaintextOf_getElem? _ _ _ hx, plainByte?_eq_unitByte?,
      unitByte?_encryptUnits lawful (by decide) h.sector_dvd_lv (by omega) (by omega) hcipher
        (by omega), List.getElem?_take, if_pos hx]
  · rw [List.getElem?_eq_none (by rw [plaintextOf_length]; omega),
      List.getElem?_eq_none (by rw [List.length_take]; omega)]

/-- The volume that unlocking gives stands for a cursor over the plaintext. -/
theorem WellFormed.standsFor (lawful : crates.Lawful) (h : p.WellFormed crates) {reader : Reader}
    (healthy : reader.Healthy) (hdata : reader.data = p.buildImage crates) :
    ∃ vol, unlockWithPassword crates reader p.password = .ok vol ∧ vol.info = p.info crates ∧
      vol.size = p.lvSize ∧
      StandsFor crates vol.decrypted ⟨p.lvPlain.take p.lvSize.toNat, 0⟩ := by
  have usize := usizeSize_eq
  have hsize := h.size_le
  have hpos := h.size_pos
  have hlen := h.lv_length
  have hinside := h.lv_inside
  have htotal := h.total_lt
  have nonzero : p.lvSize ≠ 0 := by
    rintro hzero
    rw [hzero] at hpos
    exact absurd hpos (by decide)
  have hbase : saturatingMul (p.lvPhysicalBlock.toNat % 2 ^ 48) p.blockSize.toNat = p.lvStart :=
    saturatingMul_eq (by unfold lvStart at hinside; omega)
  have hstart : (UInt64.ofNat p.lvStart).toNat = p.lvStart := by
    rw [UInt64.toNat_ofNat', Nat.mod_eq_of_lt (by omega)]
  obtain ⟨reader', follows, hunlock⟩ := unlock_buildImage lawful h.fits h.toPlaced
    h.iterations_pos nonzero healthy hdata
  rw [hbase] at hunlock
  refine ⟨_, hunlock, rfl, rfl, follows.healthy, ?_, ?_⟩
  · unfold DecryptedVolume.Fits DecryptedVolume.new
    simp only [hstart]
    have hcount := Nat.div_mul_cancel h.sector_dvd_lv
    have hceil : (p.lvSize.toNat + (sectorSize - 1)) / sectorSize * sectorSize ≤
        p.lvPlain.length := by
      rw [← hcount]
      apply Nat.mul_le_mul_right
      rw [← Nat.lt_succ_iff, Nat.div_lt_iff_lt_mul (by decide), Nat.succ_mul, hcount]
      have : sectorSize = 512 := rfl
      omega
    rw [Nat.mul_comm] at hceil
    omega
  · simp only [DecryptedVolume.cursor, DecryptedVolume.new, hstart, follows.data, hdata,
      h.plaintextOf_eq lawful]
    rfl

end Fixture

/-- A built image unlocks with its password to a volume of the size and with the
description it was built with, every `read_at` of which returns the plaintext it was
built from, and which answers every sequence of operations as a cursor over that
plaintext. -/
theorem unlock_buildImage_roundTrip {crates : Crates} (lawful : crates.Lawful) {p : Fixture}
    (h : p.WellFormed crates) :
    ∃ vol, unlockWithPassword crates (.cursor (p.buildImage crates)) p.password = .ok vol ∧
      vol.size = p.lvSize ∧ vol.info = p.info crates ∧
      (∀ offset buf, ∃ vol', vol.readAt crates offset buf =
        (.ok (slice (p.lvPlain.take p.lvSize.toNat) offset.toNat buf.length).length,
          splice buf 0 (slice (p.lvPlain.take p.lvSize.toNat) offset.toNat buf.length), vol')) ∧
      ∀ ops, (runAll (DecryptedVolume.perform crates) vol.decrypted ops).1 =
        (runAll StreamCursor.perform ⟨p.lvPlain.take p.lvSize.toNat, 0⟩ ops).1 := by
  obtain ⟨vol, hunlock, hinfo, hsize, stands⟩ := h.standsFor lawful
    (Reader.healthy_cursor (p.buildImage crates)) rfl
  refine ⟨vol, hunlock, hsize, hinfo, ?_, ?_⟩
  · intro offset buf
    obtain ⟨reader', -, hread⟩ := readAt_cursor crates stands.healthy stands.fits
      offset buf
    rw [← stands.cursor] at hread
    exact ⟨_, by rw [FileVaultVolume.readAt, hread]⟩
  · intro ops
    exact ((perform_simulates crates).runAll stands ops).1

theorem Fixture.synthetic_wellFormed : Fixture.synthetic.WellFormed standardCrates where
  toPlaced := Fixture.synthetic_placed
  sector_dvd := by decide
  context_fits := Fixture.synthetic_fits.context_fits
  lv_fits := Fixture.synthetic_fits.lv_fits
  status_clean := Fixture.synthetic_fits.status_clean
  name_clean := Fixture.synthetic_fits.name_clean
  identifier_clean := Fixture.synthetic_fits.identifier_clean
  blocks_min := by decide
  blocks_max := by decide
  iterations_pos := by decide
  lv_length := by simp [Fixture.synthetic]
  size_pos := by decide
  size_le := by decide

/-- The synthetic image unlocks and reads back as the byte ramp. -/
theorem unlock_synthetic_roundTrip :
    ∃ vol, unlockWithPassword standardCrates
        (.cursor (Fixture.synthetic.buildImage standardCrates)) Fixture.synthetic.password =
          .ok vol ∧
      vol.size = Fixture.synthetic.lvSize ∧ vol.info = Fixture.synthetic.info standardCrates ∧
      (∀ offset buf, ∃ vol', vol.readAt standardCrates offset buf =
        (.ok (slice (Fixture.synthetic.lvPlain.take Fixture.synthetic.lvSize.toNat) offset.toNat
            buf.length).length,
          splice buf 0 (slice (Fixture.synthetic.lvPlain.take Fixture.synthetic.lvSize.toNat)
            offset.toNat buf.length), vol')) ∧
      ∀ ops, (runAll (DecryptedVolume.perform standardCrates) vol.decrypted ops).1 =
        (runAll StreamCursor.perform
          ⟨Fixture.synthetic.lvPlain.take Fixture.synthetic.lvSize.toNat, 0⟩ ops).1 :=
  unlock_buildImage_roundTrip standardCrates_lawful Fixture.synthetic_wellFormed

end FileVault
