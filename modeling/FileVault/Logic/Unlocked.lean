import FileVault.Logic.Load
import FileVault.Logic.Sectors

/-!
# Successful runs

An unlock that succeeds decoded a header, a context, a logical volume and a segment
map on its way. `Unlocked` keeps them together with the equations that tie them to
the run, for the results that compare what a volume reads with what its metadata
says. What is wrong with a volume can only be seen through its readable bytes, so
the module ends with which bytes those are.
-/

namespace FileVault

open Lib

/-- A run of `unlock_with_password` that returned a volume, with what it decoded. -/
structure Unlocked (crates : Crates) (reader : Reader) (password : String)
    (vol : FileVaultVolume) where
  header : VolumeHeader
  metadata : Bytes
  reader' : Reader
  context : EncryptionContext
  lv : LogicalVolumeInfo
  family : ByteArr 16
  keys : VolumeKeys
  segments : List SegmentEntry
  load : loadVolume crates reader = .ok (header, metadata, reader')
  extract_context : EncryptionContext.extract crates metadata = .ok context
  extract_lv : LogicalVolumeInfo.extract metadata = .ok lv
  parse_family : parseUuidBytes crates lv.familyUuid = some family
  derive_keys : deriveVolumeKeys crates password context family = .ok keys
  parse_segments : parseSegments metadata header.blockSize.toNat = .ok segments
  unlock : unlockWithPassword crates reader password = .ok vol

namespace Unlocked

variable {crates : Crates} {reader : Reader} {password : String} {vol : FileVaultVolume}

/-- The header block size. -/
def blockSize (run : Unlocked crates reader password vol) : Nat := run.header.blockSize.toNat

/-- The byte address at which `resolve_lv_extent` puts the volume. -/
def base (run : Unlocked crates reader password vol) : Nat :=
  (extentOf run.segments run.blockSize run.lv.size).1.toNat

/-- The size that `resolve_lv_extent` gives the volume. -/
def size (run : Unlocked crates reader password vol) : Nat :=
  (extentOf run.segments run.blockSize run.lv.size).2.toNat

/-- The metadata of a run is that of the image, and decodes to one segment map. -/
theorem segments_eq (run : Unlocked crates reader password vol) :
    run.segments = segmentsOf run.metadata run.blockSize := by
  have hbs := run.header.blockSize.toNat_lt
  have usize := usizeSize_eq
  have hparse := run.parse_segments
  rw [parseSegments_eq (loadVolume_length run.load) (by omega)] at hparse
  exact (Except.ok.inj hparse).symm

/-- A first segment whose address fits gives the base. -/
theorem base_of_first (run : Unlocked crates reader password vol) {first : SegmentEntry}
    (hfirst : run.segments.head? = some first)
    (haddress : first.physicalBlock.toNat * run.blockSize < usizeSize) :
    run.base = first.physicalBlock.toNat * run.blockSize := by
  have usize := usizeSize_eq
  unfold base extentOf
  rw [hfirst]
  simp only
  rw [saturatingMul_eq haddress, UInt64.toNat_ofNat', Nat.mod_eq_of_lt (by omega)]

/-- The volume that comes out. -/
theorem decrypted_eq (run : Unlocked crates reader password vol) :
    vol.decrypted = .new run.reader' run.keys
      (extentOf run.segments run.blockSize run.lv.size).1
      (extentOf run.segments run.blockSize run.lv.size).2 := by
  have hunlock := run.unlock
  rw [unlockWithPassword_eq, run.load, ok_bind] at hunlock
  simp only [openVolume] at hunlock
  rw [run.extract_context, ok_bind, run.extract_lv, ok_bind, run.parse_family, okOr_some,
    ok_bind, run.derive_keys, ok_bind, resolveLvExtent_eq _ _ (loadVolume_length run.load),
    ok_bind, pure_run] at hunlock
  have hvol := congrArg FileVaultVolume.decrypted (Except.ok.inj hunlock)
  rw [run.segments_eq]
  exact hvol.symm

@[simp] theorem physicalBase_eq (run : Unlocked crates reader password vol) :
    vol.decrypted.physicalBase.toNat = run.base := by
  rw [run.decrypted_eq]
  rfl

@[simp] theorem size_eq (run : Unlocked crates reader password vol) :
    vol.decrypted.size.toNat = run.size := by
  rw [run.decrypted_eq]
  rfl

@[simp] theorem keys_eq (run : Unlocked crates reader password vol) :
    vol.decrypted.keys = run.keys := by
  rw [run.decrypted_eq]
  rfl

/-- The volume reads from where the unlock left its reader. -/
theorem follows (run : Unlocked crates reader password vol) (healthy : reader.Healthy) :
    reader.Follows vol.decrypted.reader := by
  obtain ⟨reader', follows, hload⟩ := loadVolume_healthy crates healthy
  rw [run.load] at hload
  cases hmeta : loadMetadata crates reader.data with
  | error stop => simp [hmeta] at hload
  | ok found =>
      rw [hmeta, ok_bind] at hload
      simp only [Except.ok.injEq, Prod.mk.injEq] at hload
      rw [run.decrypted_eq, DecryptedVolume.new, hload.2.2]
      exact follows

end Unlocked

/-- Every unlock that succeeds is such a run. -/
theorem unlocked_of_ok {crates : Crates} {reader : Reader} {password : String}
    {vol : FileVaultVolume} (h : unlockWithPassword crates reader password = .ok vol) :
    Nonempty (Unlocked crates reader password vol) := by
  have hunlock := h
  rw [unlockWithPassword_eq, bind_eq_ok] at h
  obtain ⟨⟨header, metadata, reader'⟩, hload, hopen⟩ := h
  have hbs := header.blockSize.toNat_lt
  have usize := usizeSize_eq
  -- an unlock that succeeds has succeeded at every step
  simp only [openVolume, bind_eq_ok] at hopen
  obtain ⟨context, hcontext, lv, hlv, family, hfamily, keys, hkeys, -⟩ := hopen
  have hparse : parseSegments metadata header.blockSize.toNat =
      .ok (segmentsOf metadata header.blockSize.toNat) :=
    parseSegments_eq (loadVolume_length hload) (by omega)
  have hfamily' : parseUuidBytes crates lv.familyUuid = some family := by
    cases hparsed : parseUuidBytes crates lv.familyUuid with
    | none => simp [hparsed, fail] at hfamily
    | some found => simpa [hparsed] using hfamily
  exact ⟨⟨header, metadata, reader', context, lv, family, keys, _, hload, hcontext, hlv,
    hfamily', hkeys, hparse, hunlock⟩⟩

/-! ## Which bytes a volume gives out -/

namespace DecryptedVolume

variable {crates : Crates} {vol : DecryptedVolume}

/-- Some read reaches byte `x`: it lies below the size, and it is not in the very last
sector of the 64-bit range unless a read can start after the first sector. -/
def Readable (vol : DecryptedVolume) (x : Nat) : Prop :=
  x < vol.size.toNat ∧
    (x + sectorSize < usizeSize ∨ vol.physicalBase.toNat + sectorSize < usizeSize)

/-- Byte `i` of an answer is a readable byte of the plaintext. -/
theorem readAt_byte (healthy : vol.reader.Healthy) {offset : UInt64} {buf buf' : Bytes}
    {vol' : DecryptedVolume} {n i : Nat}
    (h : vol.readAt crates offset buf = (.ok n, buf', vol')) (hi : i < n) :
    vol.Readable (offset.toNat + i) ∧ buf'[i]? =
      plainByte? crates vol.keys vol.reader.data vol.physicalBase.toNat (offset.toNat + i) := by
  obtain ⟨hoff, hbuf, hregion, haddress⟩ := readAt_ok (congrArg Prod.fst h) (by omega)
  obtain ⟨reader', bytes, -, hread, hlen, hplain⟩ :=
    readAt_eq crates healthy hoff hbuf hregion haddress
  rw [h] at hread
  simp only [Prod.mk.injEq, Except.ok.injEq] at hread
  obtain ⟨rfl, rfl, -⟩ := hread
  have hwant : vol.wantOf offset.toNat buf.length ≤ buf.length := Nat.min_le_left _ _
  have hinside : offset.toNat + vol.wantOf offset.toNat buf.length ≤ vol.size.toNat := by
    unfold wantOf
    omega
  refine ⟨⟨by omega, ?_⟩, ?_⟩
  · have usize := usizeSize_eq
    unfold sectorCountOf sectorSize at hregion
    unfold sectorSize at haddress ⊢
    omega
  · rw [← hplain i hi, splice_getElem? (by omega), if_pos (by omega), Nat.sub_zero]

/-- Every readable byte is given out by some read. -/
theorem readAt_readable (crates : Crates) (healthy : vol.reader.Healthy) {x : Nat}
    (h : vol.Readable x) :
    ∃ offset buf n buf' vol' i, vol.readAt crates offset buf = (.ok n, buf', vol') ∧ i < n ∧
      offset.toNat + i = x := by
  obtain ⟨hx, hroom⟩ := h
  have usize := usizeSize_eq
  have hsector : sectorSize = 512 := rfl
  have hsize := vol.size.toNat_lt
  have hbase := vol.physicalBase.toNat_lt
  -- a read from the start, or, of the very last sector, from the second sector on
  obtain ⟨start, hstart, hregion, haddress⟩ : ∃ start ≤ x,
      vol.sectorCountOf start (x + 1 - start) * sectorSize < usizeSize ∧
      vol.physicalBase.toNat + start / sectorSize * sectorSize < usizeSize := by
    by_cases hlow : x + sectorSize < usizeSize
    · refine ⟨0, Nat.zero_le _, ?_, ?_⟩
      · unfold sectorCountOf wantOf sectorSize
        omega
      · rw [Nat.zero_div, Nat.zero_mul]
        omega
    · refine ⟨sectorSize, by omega, ?_, ?_⟩
      · unfold sectorCountOf wantOf sectorSize
        omega
      · unfold sectorSize at *
        omega
  have hoff : (UInt64.ofNat start).toNat = start := by
    rw [UInt64.toNat_ofNat', Nat.mod_eq_of_lt (by omega)]
  have hbuf : (List.replicate (x + 1 - start) (0 : UInt8)).length = x + 1 - start :=
    List.length_replicate
  have hbelow : (UInt64.ofNat start).toNat < vol.size.toNat := by omega
  have hbuffer : List.replicate (x + 1 - start) (0 : UInt8) ≠ [] :=
    List.ne_nil_of_length_pos (by omega)
  obtain ⟨reader', bytes, -, hread, hlen, -⟩ := readAt_eq crates healthy hbelow hbuffer
    (by rw [hoff, hbuf]; exact hregion) (by rw [hoff]; exact haddress)
  refine ⟨_, _, _, _, _, x - start, hread, ?_, ?_⟩
  · rw [hoff, hbuf, wantOf]
    omega
  · rw [hoff]
    omega

end DecryptedVolume

end FileVault
