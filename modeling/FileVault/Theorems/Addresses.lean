import FileVault.Logic.Synthetic

/-!
# Physical addresses

The base of the volume is a product that saturates, the address of a sector a plain
sum on top of it. The two agree with the exact integers as long as the last sector
of the volume has a 64-bit address, and stop doing so right there.
-/

namespace FileVault

open Lib

/-- The exact byte address of the first segment. Without one the volume starts at 0. -/
def exactBase (segments : List SegmentEntry) (blockSize : Nat) : Nat :=
  match segments.head? with
  | some first => first.physicalBlock.toNat * blockSize
  | none => 0

/-- Every read of a byte below the size uses the exact address of its first sector,
counted from `base`, and does not panic; where that address does not fit in 64 bits
the read reports an error. -/
def AddressFaithful (crates : Crates) (vol : DecryptedVolume) (base : Nat) : Prop :=
  ∀ (offset : UInt64) (buf : Bytes), offset.toNat < vol.size.toNat → buf ≠ [] →
    if base + offset.toNat / sectorSize * sectorSize < usizeSize then
      vol.physicalAddress (offset.toNat / sectorSize) =
          .ok (base + offset.toNat / sectorSize * sectorSize) ∧
        (vol.readAt crates offset buf).1 ≠ panicked
    else ∃ e, (vol.readAt crates offset buf).1 = fail e

/-- The base that is computed is the exact one, cut off at the top of the range. -/
theorem Unlocked.base_eq {crates : Crates} {reader : Reader} {password : String}
    {vol : FileVaultVolume} (run : Unlocked crates reader password vol) :
    run.base = min (exactBase run.segments run.blockSize) (usizeSize - 1) := by
  have usize := usizeSize_eq
  unfold Unlocked.base extentOf exactBase
  cases run.segments.head? with
  | none => simp
  | some first =>
      have hlt := saturatingMul_lt first.physicalBlock.toNat run.blockSize
      simp only
      rw [UInt64.toNat_ofNat', Nat.mod_eq_of_lt (by omega)]
      rfl

namespace DecryptedVolume

variable {crates : Crates} {vol : DecryptedVolume} {offset : UInt64} {buf : Bytes}

/-- A read whose address fits ends in data or in an error. -/
theorem readAt_ne_panicked (healthy : vol.reader.Healthy) (hoff : offset.toNat < vol.size.toNat)
    (hbuf : buf ≠ [])
    (haddress : vol.physicalBase.toNat + offset.toNat / sectorSize * sectorSize < usizeSize) :
    (vol.readAt crates offset buf).1 ≠ panicked := by
  have hlen := List.length_pos_iff.mpr hbuf
  by_cases hregion :
      usizeSize ≤ vol.sectorCountOf offset.toNat buf.length * sectorSize
  · have hwindow := vol.sectorWindow_eq hoff hlen
    rw [if_pos hregion] at hwindow
    rw [readAt_window_error hoff hbuf hwindow]
    exact fail_ne_panicked _
  · obtain ⟨reader', bytes, -, hread, -⟩ :=
      readAt_eq crates healthy hoff hbuf (not_le.mp hregion) haddress
    rw [hread]
    exact ok_ne_panicked _

/-- A one-byte read never ends in an error: it panics, or it returns the byte. -/
theorem readAt_one_ne_fail (healthy : vol.reader.Healthy) (hoff : offset.toNat < vol.size.toNat)
    (e : FileVaultError) : (vol.readAt crates offset [0]).1 ≠ fail e := by
  have usize := usizeSize_eq
  have hwant : vol.wantOf offset.toNat [(0 : UInt8)].length = 1 := by
    simp only [wantOf, List.length_singleton]
    omega
  have hregion : vol.sectorCountOf offset.toNat [(0 : UInt8)].length * sectorSize < usizeSize := by
    rw [sectorCountOf, hwant, Nat.add_sub_cancel, Nat.sub_self]
    decide
  by_cases haddress :
      usizeSize ≤ vol.physicalBase.toNat + offset.toNat / sectorSize * sectorSize
  · have hwindow := vol.sectorWindow_eq hoff (show 0 < [(0 : UInt8)].length by decide)
    rw [if_neg (not_le.mpr hregion), if_pos haddress] at hwindow
    rw [readAt_window_error hoff (by decide) hwindow]
    simp [fail]
  · obtain ⟨reader', bytes, -, hread, -⟩ :=
      readAt_eq crates healthy hoff (by decide) hregion (not_le.mp haddress)
    rw [hread]
    simp [fail]

end DecryptedVolume

/-- The addresses of an unlocked volume are faithful exactly when its last sector has
a 64-bit address. -/
theorem readAt_addressFaithful_iff {crates : Crates} {reader : Reader} {password : String}
    {vol : FileVaultVolume} (healthy : reader.Healthy)
    (run : Unlocked crates reader password vol) :
    AddressFaithful crates vol.decrypted (exactBase run.segments run.blockSize) ↔
      run.size = 0 ∨ exactBase run.segments run.blockSize +
        (run.size - 1) / sectorSize * sectorSize < usizeSize := by
  have usize := usizeSize_eq
  have hbase := run.base_eq
  have hlast := vol.decrypted.size.toNat_lt
  have reads := (run.follows healthy).healthy
  rw [run.size_eq] at hlast
  constructor
  · intro faithful
    by_contra hnot
    obtain ⟨hpos, hover⟩ := not_or.mp hnot
    have hoff : (UInt64.ofNat (run.size - 1)).toNat = run.size - 1 := by
      rw [UInt64.toNat_ofNat', Nat.mod_eq_of_lt (by omega)]
    have hbelow : (UInt64.ofNat (run.size - 1)).toNat < vol.decrypted.size.toNat := by
      rw [hoff, run.size_eq]
      omega
    -- the read of the last byte alone must end in an error, and never does
    have last := faithful (.ofNat (run.size - 1)) [0] hbelow (by decide)
    rw [hoff, if_neg hover] at last
    obtain ⟨e, hfail⟩ := last
    exact DecryptedVolume.readAt_one_ne_fail reads hbelow e hfail
  · intro hfits offset buf hoff hbuf
    rw [run.size_eq] at hoff
    have hsectors : offset.toNat / sectorSize * sectorSize ≤
        (run.size - 1) / sectorSize * sectorSize :=
      Nat.mul_le_mul_right _ (Nat.div_le_div_right (by omega))
    have hexact : exactBase run.segments run.blockSize + offset.toNat / sectorSize * sectorSize <
        usizeSize := by omega
    have haddress : run.base = exactBase run.segments run.blockSize := by omega
    rw [if_pos hexact]
    constructor
    · unfold DecryptedVolume.physicalAddress
      rw [umul_eq (by omega), ok_bind, run.physicalBase_eq, haddress, uadd_eq hexact]
    · refine DecryptedVolume.readAt_ne_panicked reads (by rw [run.size_eq]; exact hoff) hbuf ?_
      rw [run.physicalBase_eq, haddress]
      exact hexact

/-- In the synthetic image every address is the exact one. -/
theorem readAt_addressFaithful_synthetic :
    ∃ vol, ∃ run : Unlocked standardCrates
        (.cursor (Fixture.synthetic.buildImage standardCrates)) Fixture.synthetic.password vol,
      AddressFaithful standardCrates vol.decrypted (exactBase run.segments run.blockSize) := by
  obtain ⟨vol, run, hsegments, hblock, -, hsize, -⟩ := Fixture.unlocked_buildImage
    standardCrates_lawful Fixture.synthetic_fits Fixture.synthetic_placed (by decide) (by decide)
  refine ⟨vol, run, (readAt_addressFaithful_iff (Reader.healthy_cursor _) run).mpr (.inr ?_)⟩
  rw [hsegments, hblock, hsize]
  decide

/-! ## A base past the end of the range -/

/-- The synthetic image with blocks of 128 KiB, the last of which the segment starts at. -/
def highBase : Fixture :=
  { Fixture.synthetic with
    blockSize := 0x20000
    lvPhysicalBlock := 0xffffffffffff
    lvPlain := []
    total := 0x200000 }

theorem highBase_fits : highBase.Fits standardCrates where
  context_fits := by
    rw [show (highBase.contextPlist standardCrates).length = 1101 from
      Fixture.synthetic_contextPlist_length standardCrates_lawful]
    decide
  lv_fits := by
    rw [show (highBase.lvPlist standardCrates).length = 379 from
      Fixture.synthetic_lvPlist_length rfl]
    decide
  segment_fits := by decide
  status_clean := by decide
  name_clean := by decide
  identifier_clean := by decide
  blocks_min := by decide
  blocks_max := by decide

theorem highBase_placed : highBase.Placed where
  total_lt := by decide
  header_inside := by decide
  region_inside := by decide
  region_header := by decide
  region_cap := by decide
  descriptor_low := by decide
  descriptor_inside := by decide
  metadata_inside := by decide
  metadata_header := by decide
  metadata_region := by decide
  metadata_units := by decide
  lv_apart := .inl rfl

/-- The volume of a base that high unlocks, and reads its first byte from a saturated address
without an error. -/
theorem highBase_not_addressFaithful :
    ∃ vol, ∃ run : Unlocked standardCrates (.cursor (highBase.buildImage standardCrates))
        highBase.password vol,
      ¬ AddressFaithful standardCrates vol.decrypted
        (exactBase run.segments run.blockSize) := by
  obtain ⟨vol, run, hsegments, hblock, -, hsize, -⟩ := Fixture.unlocked_buildImage
    standardCrates_lawful highBase_fits highBase_placed (by decide) (by decide)
  have reads := (run.follows (Reader.healthy_cursor _)).healthy
  have hbelow : (0 : UInt64).toNat < vol.decrypted.size.toNat := by
    rw [run.size_eq, hsize]
    decide
  refine ⟨vol, run, ?_⟩
  intro faithful
  have first := faithful 0 [0] hbelow (by decide)
  rw [hsegments, hblock, if_neg (by decide)] at first
  obtain ⟨e, hfail⟩ := first
  exact DecryptedVolume.readAt_one_ne_fail reads hbelow e hfail

end FileVault
