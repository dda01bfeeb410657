import FileVault.Logic.Failures

/-!
# What `read_at` returns

The plaintext of a volume is defined byte by byte: byte `x` is byte `x % 512` of
the decryption of logical sector `x / 512`, whose ciphertext lies at the physical
base plus `512 * (x / 512)` and counts as zero past the end of the image. Over a
healthy reader `read_at` returns the bytes of the plaintext it was asked for.
-/

namespace FileVault

open Lib

/-- The decryption of logical sector `k`. -/
def plainSector (crates : Crates) (keys : VolumeKeys) (image : Bytes) (base k : Nat) : Bytes :=
  crates.decryptSector keys.vmk keys.tweakKey k
    (sliceD image (base + sectorSize * k) sectorSize 0)

/-- Byte `x` of the plaintext. -/
def plainByte? (crates : Crates) (keys : VolumeKeys) (image : Bytes) (base x : Nat) :
    Option UInt8 :=
  (plainSector crates keys image base (x / sectorSize))[x % sectorSize]?

@[simp] theorem plainSector_length (crates : Crates) (keys : VolumeKeys) (image : Bytes)
    (base k : Nat) : (plainSector crates keys image base k).length = sectorSize := by
  rw [plainSector, crates.decryptSector_length, sliceD_length]

/-- Byte `x` of a volume that is encrypted in units of `unit` bytes. -/
def unitByte? (crates : Crates) (keys : VolumeKeys) (image : Bytes) (base unit x : Nat) :
    Option UInt8 :=
  (crates.decryptSector keys.vmk keys.tweakKey (x / unit)
    (sliceD image (base + unit * (x / unit)) unit 0))[x % unit]?

/-- The plaintext is the one of 512-byte units. -/
theorem plainByte?_eq_unitByte? (crates : Crates) (keys : VolumeKeys) (image : Bytes)
    (base x : Nat) :
    plainByte? crates keys image base x = unitByte? crates keys image base sectorSize x := rfl

/-- Where the ciphertext of a plaintext lies, in units of whole cipher blocks, the bytes
of those units are the bytes of the plaintext. -/
theorem unitByte?_encryptUnits {crates : Crates} (lawful : crates.Lawful) {keys : VolumeKeys}
    {image plain : Bytes} {base unit x : Nat} (hblocks : 16 ∣ unit)
    (hwhole : unit ∣ plain.length) (hinside : base + plain.length ≤ image.length)
    (hlen : plain.length ≤ 2 ^ 128)
    (hcipher : encryptUnits crates plain keys.vmk keys.tweakKey unit 0 =
      .ok (slice image base plain.length))
    (hx : x < plain.length) : unitByte? crates keys image base unit x = plain[x]? := by
  have hcount := Nat.div_mul_cancel hwhole
  have hdiv : plain.length / unit ≤ plain.length := Nat.div_le_self _ _
  have hunit : 0 < unit := Nat.pos_of_dvd_of_pos hwhole (by omega)
  rw [encryptUnits_whole (Nat.le_of_dvd hunit hblocks) hcount.symm (by omega),
    Except.ok.injEq] at hcipher
  have hk : x / unit < plain.length / unit :=
    (Nat.div_lt_iff_lt_mul hunit).mpr (by omega)
  have hend : x / unit * unit + unit ≤ plain.length := by
    rw [← Nat.succ_mul, ← hcount]
    exact Nat.mul_le_mul_right _ hk
  have cipher : slice image (base + unit * (x / unit)) unit =
      crates.encryptSector keys.vmk keys.tweakKey (x / unit)
        (slice plain (x / unit * unit) unit) := by
    rw [Nat.mul_comm, ← slice_slice hend, ← hcipher,
      mapUnits_slice (crates.encryptSector_keeps _ _) hcount.le hk, Nat.zero_add]
  have hsector : (slice plain (x / unit * unit) unit).length = unit := slice_length_of_le hend
  rw [unitByte?, sliceD_eq_slice (by rw [Nat.mul_comm]; omega), cipher,
    lawful.decrypt_encrypt _ _ _ _ (hsector.symm ▸ hblocks), slice_getElem?,
    if_pos (Nat.mod_lt _ hunit), Nat.div_add_mod']

/-- How many bytes of its buffer a read has filled. -/
def bytesRead : Run Nat → Nat
  | .ok n => n
  | .error _ => 0

namespace DecryptedVolume

variable {crates : Crates} {vol : DecryptedVolume} {offset : UInt64} {buf : Bytes}

/-- How much of a request lies below the volume size. -/
def wantOf (vol : DecryptedVolume) (offset len : Nat) : Nat := min len (vol.size.toNat - offset)

/-- The number of whole sectors around a request. -/
def sectorCountOf (vol : DecryptedVolume) (offset len : Nat) : Nat :=
  (offset + vol.wantOf offset len - 1) / sectorSize - offset / sectorSize + 1

/-- The window of a request below the volume size: its length may not fit, and its
physical address may overflow; nothing else goes wrong. -/
theorem sectorWindow_eq {offset len : Nat} (hoff : offset < vol.size.toNat) (hlen : 0 < len) :
    vol.sectorWindow offset len =
      if usizeSize ≤ vol.sectorCountOf offset len * sectorSize then
        fail (.outOfRange "read region length")
      else if usizeSize ≤ vol.physicalBase.toNat + offset / sectorSize * sectorSize then panicked
      else .ok {
        want := vol.wantOf offset len
        firstSector := offset / sectorSize
        regionLen := vol.sectorCountOf offset len * sectorSize
        physical := vol.physicalBase.toNat + offset / sectorSize * sectorSize } := by
  have hsize := vol.size.toNat_lt
  have usize := usizeSize_eq
  have hwant : vol.wantOf offset len = min len (vol.size.toNat - offset) := rfl
  have hbound : 0 < vol.wantOf offset len ∧
      offset + vol.wantOf offset len ≤ vol.size.toNat := by omega
  have hlast : offset / sectorSize ≤ (offset + vol.wantOf offset len - 1) / sectorSize :=
    Nat.div_le_div_right (by omega)
  have hlastLt : (offset + vol.wantOf offset len - 1) / sectorSize ≤
      offset + vol.wantOf offset len - 1 := Nat.div_le_self _ _
  have hfirst : offset / sectorSize * sectorSize ≤ offset := Nat.div_mul_le_self _ _
  unfold sectorWindow physicalAddress
  rw [usub_eq hoff.le, ok_bind]
  simp only [← hwant]
  have hcount := Nat.sub_le ((offset + vol.wantOf offset len - 1) / sectorSize)
    (offset / sectorSize)
  -- below the size no sum on the way to the sector count overflows
  rw [uadd_eq (by omega), ok_bind, usub_eq (by omega), ok_bind, usub_eq hlast, ok_bind,
    uadd_eq (by omega), ok_bind, umul_eq (a := offset / sectorSize) (by omega), ok_bind]
  rw [show (offset + vol.wantOf offset len - 1) / sectorSize - offset / sectorSize + 1 =
    vol.sectorCountOf offset len from rfl]
  by_cases hregion : usizeSize ≤ vol.sectorCountOf offset len * sectorSize
  · rw [if_pos hregion, checkedMul, if_neg (by omega)]
    rfl
  rw [if_neg hregion, checkedMul, if_pos (by omega), okOr_some, ok_bind]
  by_cases haddress : usizeSize ≤ vol.physicalBase.toNat + offset / sectorSize * sectorSize
  · rw [if_pos haddress, uadd, if_neg (by omega)]
    rfl
  · rw [if_neg haddress, uadd_eq (by omega)]
    rfl

/-- A window asks for what lies below the volume size. -/
theorem sectorWindow_want {offset len : Nat} (hoff : offset < vol.size.toNat) (hlen : 0 < len)
    {window : SectorWindow} (h : vol.sectorWindow offset len = .ok window) :
    window.want = vol.wantOf offset len := by
  rw [sectorWindow_eq hoff hlen] at h
  split_ifs at h
  · simp [fail] at h
  · simp [panicked] at h
  · rw [← Except.ok.inj h]

/-- The sectors of a request cover it. -/
theorem sectorCountOf_covers {offset len : Nat} (hoff : offset < vol.size.toNat)
    (hlen : 0 < len) :
    offset % sectorSize + vol.wantOf offset len ≤ vol.sectorCountOf offset len * sectorSize := by
  have hwant : 0 < vol.wantOf offset len := by
    unfold wantOf
    omega
  unfold sectorCountOf sectorSize
  omega

/-- The sector and the place in it of byte `i` after `offset`, counted from the start
of the sector that holds `offset`. -/
theorem sector_add_div (offset i : Nat) :
    offset / sectorSize + (offset % sectorSize + i) / sectorSize = (offset + i) / sectorSize := by
  unfold sectorSize
  omega

theorem sector_add_mod (offset i : Nat) :
    (offset % sectorSize + i) % sectorSize = (offset + i) % sectorSize := by
  unfold sectorSize
  omega

/-- Decrypting the ciphertext of a window and copying the request out of it. -/
theorem copyWindow_eq (crates : Crates) (vol : DecryptedVolume) (image : Bytes)
    {offset count want : Nat} (hcovers : offset % sectorSize + want ≤ count * sectorSize)
    (hoff : offset < usizeSize) (hregion : count * sectorSize < usizeSize)
    (hbuf : want ≤ buf.length) :
    ∃ bytes, vol.copyWindow crates
        ⟨want, offset / sectorSize, count * sectorSize,
          vol.physicalBase.toNat + offset / sectorSize * sectorSize⟩ offset
        (sliceD image (vol.physicalBase.toNat + offset / sectorSize * sectorSize)
          (count * sectorSize) 0) buf = .ok (splice buf 0 bytes) ∧
      bytes.length = want ∧
      ∀ i < want, bytes[i]? =
        plainByte? crates vol.keys image vol.physicalBase.toNat (offset + i) := by
  have usize := usizeSize_eq
  have hfirst := Nat.div_add_mod' offset sectorSize
  have hcount : count ≤ count * sectorSize := Nat.le_mul_of_pos_right _ (by decide)
  have hfirstLe : offset / sectorSize ≤ offset := Nat.div_le_self _ _
  let decrypt := crates.decryptSector vol.keys.vmk vol.keys.tweakKey
  let region := sliceD image (vol.physicalBase.toNat + offset / sectorSize * sectorSize)
    (count * sectorSize) (0 : UInt8)
  let plain := mapUnits sectorSize decrypt count (offset / sectorSize) region
  have hregionLen : region.length = count * sectorSize := sliceD_length _ _ _ _
  have hdecrypt : decryptUnits crates region vol.keys.vmk vol.keys.tweakKey sectorSize
      (offset / sectorSize) = .ok plain := decryptUnits_whole (by decide) hregionLen (by omega)
  have hplainLen : plain.length = count * sectorSize :=
    mapUnits_length (crates.decryptSector_keeps _ _) hregionLen.ge
  have hinner : offset - offset / sectorSize * sectorSize = offset % sectorSize := by omega
  have hslice : (slice plain (offset % sectorSize) want).length = want :=
    slice_length_of_le (by omega)
  refine ⟨slice plain (offset % sectorSize) want, ?_, hslice, ?_⟩
  · unfold copyWindow
    simp only
    rw [hdecrypt, ok_bind, umul_eq (by omega), ok_bind, usub_eq (by omega), ok_bind, hinner,
      uadd_eq (by omega), ok_bind, getRange_eq (by omega), okOr_some, ok_bind]
    rw [show getRange buf 0 want = getRange buf 0 (0 + want) by rw [Nat.zero_add],
      getRange_eq (by omega), okOr_some, ok_bind, if_pos hslice]
    rfl
  · intro i hi
    rw [slice_getElem?, if_pos hi]
    -- the sector of byte `i` lies inside the region
    have inside : (offset % sectorSize + i) / sectorSize * sectorSize + sectorSize ≤
        count * sectorSize := by
      have : (offset % sectorSize + i) / sectorSize < count :=
        (Nat.div_lt_iff_lt_mul (by decide)).mpr (by omega)
      rw [← Nat.succ_mul]
      exact Nat.mul_le_mul_right _ this
    have hplace : vol.physicalBase.toNat + offset / sectorSize * sectorSize +
        (offset % sectorSize + i) / sectorSize * sectorSize =
        vol.physicalBase.toNat + sectorSize * ((offset + i) / sectorSize) := by
      rw [← sector_add_div offset i]
      ring
    rw [mapUnits_getElem? (crates.decryptSector_keeps _ _) hregionLen.ge (by omega),
      slice_sliceD inside, hplace, sector_add_div, sector_add_mod]
    rfl

/-- Nothing is read at or past the end of the volume, or into an empty buffer. -/
theorem readAt_nothing (h : vol.size.toNat ≤ offset.toNat ∨ buf = []) :
    vol.readAt crates offset buf = (.ok 0, buf, vol) := if_pos h

/-- A request for something below the end passes the check in front. -/
theorem guard_passes (hoff : offset.toNat < vol.size.toNat) (hbuf : buf ≠ []) :
    ¬ (vol.size ≤ offset ∨ buf = []) := by
  rw [UInt64.le_iff_toNat_le]
  rintro (h | h)
  · omega
  · exact hbuf h

/-- A request whose window cannot be computed reads nothing. -/
theorem readAt_window_error {stop : Stop} (hoff : offset.toNat < vol.size.toNat)
    (hbuf : buf ≠ []) (h : vol.sectorWindow offset.toNat buf.length = .error stop) :
    vol.readAt crates offset buf = (.error stop, buf, vol) := by
  unfold readAt
  rw [if_neg (guard_passes hoff hbuf), h]

/-- The answer to a request whose sectors have an address is the plaintext. -/
theorem answer_eq (crates : Crates) (image : Bytes) (hoff : offset.toNat < vol.size.toNat)
    (hbuf : buf ≠ [])
    (hregion : vol.sectorCountOf offset.toNat buf.length * sectorSize < usizeSize)
    (haddress : vol.physicalBase.toNat + offset.toNat / sectorSize * sectorSize < usizeSize) :
    ∃ bytes, vol.answer crates image offset buf =
        (.ok (vol.wantOf offset.toNat buf.length), splice buf 0 bytes) ∧
      bytes.length = vol.wantOf offset.toNat buf.length ∧
      ∀ i < vol.wantOf offset.toNat buf.length, bytes[i]? =
        plainByte? crates vol.keys image vol.physicalBase.toNat (offset.toNat + i) := by
  have hlen := List.length_pos_iff.mpr hbuf
  have usize := usizeSize_eq
  have hsize := vol.size.toNat_lt
  obtain ⟨bytes, hcopy, hbytes, hplain⟩ := copyWindow_eq crates vol image
    (vol.sectorCountOf_covers hoff hlen) (by omega) hregion (Nat.min_le_left _ _)
  refine ⟨bytes, ?_, hbytes, hplain⟩
  unfold answer
  rw [if_neg (guard_passes hoff hbuf), sectorWindow_eq hoff hlen, if_neg (by omega),
    if_neg (by omega)]
  simp only [hcopy]

/-- An answer has nothing to do with the image, or it is the plaintext that it asked for. -/
theorem answer_cases (crates : Crates) (vol : DecryptedVolume) (offset : UInt64) (buf : Bytes) :
    (∃ result, bytesRead result = 0 ∧ (∀ e, result ≠ fail (.io e)) ∧
      ∀ image, vol.answer crates image offset buf = (result, buf)) ∨
    ∃ n ≤ buf.length, offset.toNat + n ≤ vol.size.toNat ∧ ∀ image, ∃ bytes,
      vol.answer crates image offset buf = (.ok n, splice buf 0 bytes) ∧ bytes.length = n ∧
      ∀ i < n, bytes[i]? =
        plainByte? crates vol.keys image vol.physicalBase.toNat (offset.toNat + i) := by
  by_cases hguard : vol.size ≤ offset ∨ buf = []
  · exact .inl ⟨.ok 0, rfl, by simp [fail], fun image => by rw [answer, if_pos hguard]⟩
  obtain ⟨hsize, hbuf⟩ := not_or.mp hguard
  have hoff : offset.toNat < vol.size.toNat := UInt64.not_le.mp hsize
  have hlen := List.length_pos_iff.mpr hbuf
  have stopped : ∀ stop, vol.sectorWindow offset.toNat buf.length = .error stop →
      ∀ image, vol.answer crates image offset buf = (.error stop, buf) := by
    intro stop hwindow image
    rw [answer, if_neg hguard, hwindow]
  have window := vol.sectorWindow_eq hoff hlen
  by_cases hregion : usizeSize ≤ vol.sectorCountOf offset.toNat buf.length * sectorSize
  · rw [if_pos hregion] at window
    exact .inl ⟨_, rfl, by simp [fail], stopped _ window⟩
  by_cases haddress :
      usizeSize ≤ vol.physicalBase.toNat + offset.toNat / sectorSize * sectorSize
  · rw [if_neg hregion, if_pos haddress] at window
    exact .inl ⟨_, rfl, by simp [fail], stopped _ window⟩
  · have want : vol.wantOf offset.toNat buf.length =
        min buf.length (vol.size.toNat - offset.toNat) := rfl
    exact .inr ⟨vol.wantOf offset.toNat buf.length, by omega, by omega,
      fun image => answer_eq crates image hoff hbuf (not_le.mp hregion) (not_le.mp haddress)⟩

/-- What a read comes to is a place in the volume, or where it began. -/
theorem readAt_below {n : Nat} (h : (vol.readAt crates offset buf).1 = .ok n) :
    offset.toNat + n < usizeSize := by
  have usize := usizeSize_eq
  have hoffset := offset.toNat_lt
  have hsize := vol.size.toNat_lt
  rcases readAt_outcome crates vol offset buf with ⟨reader, -, heq⟩ | ⟨e, reader, -, -, heq⟩
  swap
  · rw [heq] at h
    cases h
  rw [heq] at h
  rcases vol.answer_cases crates offset buf with
    ⟨result, hnone, -, answer⟩ | ⟨m, -, hbelow, answer⟩
  · rw [answer] at h
    obtain rfl : result = .ok n := h
    have hzero : n = 0 := hnone
    omega
  · obtain ⟨bytes, hanswer, -⟩ := answer vol.reader.data
    rw [hanswer] at h
    obtain rfl := Except.ok.inj h
    omega

/-- A healthy reader serves a request. -/
theorem readAt_eq (crates : Crates) (healthy : vol.reader.Healthy)
    (hoff : offset.toNat < vol.size.toNat) (hbuf : buf ≠ [])
    (hregion : vol.sectorCountOf offset.toNat buf.length * sectorSize < usizeSize)
    (haddress : vol.physicalBase.toNat + offset.toNat / sectorSize * sectorSize < usizeSize) :
    ∃ reader' bytes, vol.reader.Follows reader' ∧
      vol.readAt crates offset buf =
        (.ok (vol.wantOf offset.toNat buf.length), splice buf 0 bytes,
          { vol with reader := reader' }) ∧
      bytes.length = vol.wantOf offset.toNat buf.length ∧
      ∀ i < vol.wantOf offset.toNat buf.length, bytes[i]? =
        plainByte? crates vol.keys vol.reader.data vol.physicalBase.toNat (offset.toNat + i) := by
  obtain ⟨bytes, hanswer, hbytes, hplain⟩ :=
    answer_eq crates vol.reader.data hoff hbuf hregion haddress
  rcases readAt_outcome crates vol offset buf with ⟨reader', serves, hread⟩ | ⟨_, _, failed, -⟩
  · rw [hanswer] at hread
    exact ⟨reader', bytes, serves.follows healthy, hread, hbytes, hplain⟩
  · exact absurd failed healthy.not_failed

/-- An answer with data in it comes from a request whose sectors have an address. -/
theorem readAt_ok {crates : Crates} {n : Nat} (h : (vol.readAt crates offset buf).1 = .ok n)
    (hn : 0 < n) :
    offset.toNat < vol.size.toNat ∧ buf ≠ [] ∧
      vol.sectorCountOf offset.toNat buf.length * sectorSize < usizeSize ∧
      vol.physicalBase.toNat + offset.toNat / sectorSize * sectorSize < usizeSize := by
  by_cases hguard : vol.size.toNat ≤ offset.toNat ∨ buf = []
  · rw [readAt_nothing hguard] at h
    simp at h
    omega
  obtain ⟨hoff, hbuf⟩ := not_or.mp hguard
  have hlen := List.length_pos_iff.mpr hbuf
  unfold readAt at h
  rw [if_neg (by rw [UInt64.le_iff_toNat_le]; exact hguard),
    sectorWindow_eq (by omega) hlen] at h
  by_cases hregion : usizeSize ≤ vol.sectorCountOf offset.toNat buf.length * sectorSize
  · rw [if_pos hregion] at h
    simp [fail] at h
  by_cases haddress :
      usizeSize ≤ vol.physicalBase.toNat + offset.toNat / sectorSize * sectorSize
  · rw [if_neg hregion, if_pos haddress] at h
    simp [panicked] at h
  · exact ⟨by omega, hbuf, by omega, by omega⟩

end DecryptedVolume

end FileVault
