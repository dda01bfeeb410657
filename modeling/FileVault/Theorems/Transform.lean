import FileVault.Logic.Primitives
import FileVault.Theorems.FlakyDevice

/-!
# The two directions of `xts.rs`

Decryption and encryption are one walk over the units of a buffer, with one step for each
direction. So a buffer can be taken in pieces that end between two units, the two directions
undo one another whatever is left over after the last unit, and a read that decrypts the sectors
around a request gets what a decryption of the whole volume has there.
-/

namespace FileVault

open Lib

section

variable {crates : Crates} {key1 key2 : ByteArr 16} {unitSize : Nat}

theorem decryptChunks_eq_walk (crates : Crates) (key1 key2 : ByteArr 16) (unitSize whole : Nat)
    (area : Bytes) (index : Nat) :
    decryptChunks crates key1 key2 unitSize whole area index =
      walkUnits unitSize (fun index sector => decryptSector crates key1 key2 sector index) whole
        index area := by
  induction whole generalizing area index with
  | zero =>
      cases area with
      | nil => rfl
      | cons b area => rfl
  | succ whole ih =>
      rw [decryptChunks, walkUnits]
      simp only [ih]

/-- With a unit size at all, decryption is a walk over the units. -/
theorem decryptUnits_eq_walk (hunit : 0 < unitSize) (buffer : Bytes) (first : Nat) :
    decryptUnits crates buffer key1 key2 unitSize first =
      walkUnits unitSize (fun index sector => decryptSector crates key1 key2 sector index)
        (buffer.length / unitSize) first buffer := by
  rw [decryptUnits, decryptArea, if_neg (by omega), decryptChunks_eq_walk]

/-- With a unit size at all, encryption is a walk over the units. -/
theorem encryptUnits_eq_walk (hunit : 0 < unitSize) (buffer : Bytes) (first : Nat) :
    encryptUnits crates buffer key1 key2 unitSize first =
      walkUnits unitSize (encryptSector crates key1 key2) (buffer.length / unitSize) first
        buffer := by
  rw [encryptUnits, encryptArea, if_neg (by omega)]

/-! ## In pieces -/

/-- Between two units a buffer can be cut. -/
theorem decryptUnits_append {front : Bytes} (hunit : 0 < unitSize)
    (hfront : unitSize ∣ front.length) (back : Bytes) (first : Nat) :
    decryptUnits crates (front ++ back) key1 key2 unitSize first = do
      let front' ← decryptUnits crates front key1 key2 unitSize first
      let back' ← decryptUnits crates back key1 key2 unitSize (first + front.length / unitSize)
      return front' ++ back' := by
  have hcount := Nat.div_mul_cancel hfront
  rw [decryptUnits_eq_walk hunit, decryptUnits_eq_walk hunit, decryptUnits_eq_walk hunit,
    List.length_append, Nat.add_div_of_dvd_right hfront, walkUnits_append _ _ _ hcount.symm]

/-- The pieces of a buffer decrypted one after the other, each from the unit it starts at. -/
def decryptPieces (crates : Crates) (key1 key2 : ByteArr 16) (unitSize : Nat) :
    (first : Nat) → List Bytes → Run Bytes
  | _, [] => .ok []
  | first, piece :: pieces => do
      let front ← decryptUnits crates piece key1 key2 unitSize first
      let back ← decryptPieces crates key1 key2 unitSize (first + piece.length / unitSize) pieces
      return front ++ back

/-- However a buffer is cut between its units, what the pieces decrypt to one after the other,
each from the unit it starts at, is what the whole decrypts to; and they panic where it does. -/
theorem decryptUnits_pieces (crates : Crates) (key1 key2 : ByteArr 16) (unitSize : Nat)
    (hunit : 0 < unitSize) (pieces : List Bytes)
    (whole : ∀ piece ∈ pieces.dropLast, unitSize ∣ piece.length) (first : Nat) :
    decryptUnits crates pieces.flatten key1 key2 unitSize first =
      decryptPieces crates key1 key2 unitSize first pieces := by
  induction pieces generalizing first with
  | nil =>
      rw [List.flatten_nil, decryptUnits_eq_walk hunit, List.length_nil, Nat.zero_div]
      rfl
  | cons piece pieces ih =>
      cases pieces with
      | nil =>
          -- the last piece may end within a unit
          rw [List.flatten_singleton, decryptPieces]
          simp only [decryptPieces, ok_bind, List.append_nil]
          exact (bind_pure _).symm
      | cons next pieces =>
          have hpiece : unitSize ∣ piece.length := whole piece List.mem_cons_self
          have rest : ∀ p ∈ (next :: pieces).dropLast, unitSize ∣ p.length :=
            fun p hp => whole p (List.mem_cons_of_mem _ hp)
          rw [List.flatten_cons, decryptUnits_append hunit hpiece, ih rest]
          rfl

/-- A buffer of five blocks in three pieces, the last of them with a block left over. -/
theorem decryptUnits_pieces_blocks :
    decryptUnits standardCrates
        [List.replicate 32 0x11, List.replicate 32 0x22, List.replicate 16 0x33].flatten
        (ByteArr.fill 16 0x20) (ByteArr.fill 16 0x21) 32 7 =
      decryptPieces standardCrates (ByteArr.fill 16 0x20) (ByteArr.fill 16 0x21) 32 7
        [List.replicate 32 0x11, List.replicate 32 0x22, List.replicate 16 0x33] :=
  decryptUnits_pieces standardCrates _ _ 32 (by decide) _ (by decide) 7

/-! ## Both ways -/

/-- A sector is encrypted to what decrypts to it. -/
theorem encryptSector_ok_iff (invertible : crates.Invertible) (key1 key2 : ByteArr 16)
    (index : Nat) (sector cipher : Bytes) :
    encryptSector crates key1 key2 index sector = .ok cipher ↔
      decryptSector crates key1 key2 cipher index = .ok sector := by
  unfold encryptSector decryptSector
  by_cases hindex : 2 ^ 128 ≤ index
  · rw [if_pos hindex, if_pos hindex]
    constructor
    · intro h
      cases h
    · intro h
      cases h
  rw [if_neg hindex, if_neg hindex]
  constructor
  · intro h
    by_cases hlen : sector.length < 16
    · simp [if_pos hlen, panicked] at h
    · rw [if_neg hlen] at h
      obtain rfl := Except.ok.inj h
      rw [crates.encryptSector_length, if_neg hlen,
        invertible.decrypt_encrypt _ _ _ _ (not_lt.mp hlen)]
  · intro h
    by_cases hlen : cipher.length < 16
    · simp [if_pos hlen, panicked] at h
    · rw [if_neg hlen] at h
      obtain rfl := Except.ok.inj h
      rw [crates.decryptSector_length, if_neg hlen,
        invertible.encrypt_decrypt _ _ _ _ (not_lt.mp hlen)]

theorem encryptSector_length {index : Nat} {sector out : Bytes}
    (h : encryptSector crates key1 key2 index sector = .ok out) : out.length = sector.length := by
  unfold encryptSector at h
  split at h
  · cases h
  · split at h
    · cases h
    · obtain rfl := Except.ok.inj h
      exact crates.encryptSector_length ..

theorem decryptSector_length {index : Nat} {sector out : Bytes}
    (h : decryptSector crates key1 key2 sector index = .ok out) : out.length = sector.length := by
  unfold decryptSector at h
  split at h
  · cases h
  · split at h
    · cases h
    · obtain rfl := Except.ok.inj h
      exact crates.decryptSector_length ..

/-- Encryption and decryption want the same of a sector. -/
theorem sector_lengths (crates : Crates) (key1 key2 : ByteArr 16) (index : Nat)
    {sector sector' : Bytes} (hlen : sector.length = sector'.length) :
    (encryptSector crates key1 key2 index sector).map List.length =
      (decryptSector crates key1 key2 sector' index).map List.length := by
  unfold encryptSector decryptSector
  by_cases hindex : 2 ^ 128 ≤ index
  · rw [if_pos hindex, if_pos hindex]
  rw [if_neg hindex, if_neg hindex, hlen]
  by_cases hshort : sector'.length < 16
  · rw [if_pos hshort, if_pos hshort]
  · rw [if_neg hshort, if_neg hshort]
    exact congrArg Except.ok ((crates.encryptSector_length ..).trans
      (hlen.trans (crates.decryptSector_length ..).symm))

/-- Encryption and decryption want the same of a buffer. -/
theorem encryptUnits_lengths (crates : Crates) (key1 key2 : ByteArr 16) (unitSize first : Nat)
    (buffer : Bytes) :
    (encryptUnits crates buffer key1 key2 unitSize first).map List.length =
      (decryptUnits crates buffer key1 key2 unitSize first).map List.length := by
  by_cases hunit : 0 < unitSize
  · rw [encryptUnits_eq_walk hunit, decryptUnits_eq_walk hunit]
    exact walkUnits_lengths
      (fun index _ _ hlen => sector_lengths crates key1 key2 index hlen) rfl
  · rw [encryptUnits, encryptArea, decryptUnits, decryptArea, if_pos (by omega),
      if_pos (by omega)]

/-- Runs that stop alike and have results of the same length panic together. -/
theorem panicked_alike {x y : Run Bytes} (h : x.map List.length = y.map List.length) :
    x = panicked ↔ y = panicked := by
  cases x with
  | error stop =>
      cases y with
      | error stop' =>
          obtain rfl : stop = stop' := Except.error.inj h
          rfl
      | ok out' => cases h
  | ok out =>
      cases y with
      | error stop' => cases h
      | ok out' => simp [panicked]

/-- Runs that stop alike and have results of the same length return together. -/
theorem returns_alike {x y : Run Bytes} (h : x.map List.length = y.map List.length) :
    (∃ out, x = .ok out) ↔ ∃ out, y = .ok out := by
  cases x with
  | error stop =>
      cases y with
      | error stop' => simp
      | ok out' => cases h
  | ok out =>
      cases y with
      | error stop' => cases h
      | ok out' => simp

/-- A buffer is encrypted to what decrypts to it. -/
theorem encryptUnits_ok_iff (invertible : crates.Invertible) (key1 key2 : ByteArr 16)
    (unitSize first : Nat) (buffer cipher : Bytes) :
    encryptUnits crates buffer key1 key2 unitSize first = .ok cipher ↔
      decryptUnits crates cipher key1 key2 unitSize first = .ok buffer := by
  by_cases hunit : 0 < unitSize
  · rw [encryptUnits_eq_walk hunit, decryptUnits_eq_walk hunit]
    constructor
    · intro h
      have keeps := fun index ys zs (h : encryptSector crates key1 key2 index ys = .ok zs) =>
        encryptSector_length h
      rw [walkUnits_length keeps (Nat.div_mul_le_self _ _) h]
      exact walkUnits_inverse keeps
        (fun index ys zs => (encryptSector_ok_iff invertible key1 key2 index ys zs).mp)
        (Nat.div_mul_le_self _ _) h
    · intro h
      have keeps := fun index ys zs (h : decryptSector crates key1 key2 ys index = .ok zs) =>
        decryptSector_length h
      rw [walkUnits_length keeps (Nat.div_mul_le_self _ _) h]
      exact walkUnits_inverse keeps
        (fun index ys zs => (encryptSector_ok_iff invertible key1 key2 index zs ys).mpr)
        (Nat.div_mul_le_self _ _) h
  · -- no unit size, no walk
    rw [encryptUnits, encryptArea, decryptUnits, decryptArea, if_pos (by omega),
      if_pos (by omega)]
    constructor
    · intro h
      cases h
    · intro h
      cases h

/-- Decryption returns on a sector of a cipher block or more whose tweak has 128 bits. -/
theorem decryptSector_returns_iff {index : Nat} {sector : Bytes} :
    (∃ out, decryptSector crates key1 key2 sector index = .ok out) ↔
      16 ≤ sector.length ∧ index < 2 ^ 128 := by
  constructor
  · rintro ⟨out, h⟩
    unfold decryptSector at h
    split at h
    · cases h
    · split at h
      · cases h
      · omega
  · rintro ⟨hlen, hindex⟩
    exact ⟨_, decryptSector_eq hindex hlen⟩

/-- A buffer that can be decrypted, and encrypted, in units from index `first` on. Where there is a
whole unit, units have a cipher block at least, and their tweaks are in range; what is left after
them has a cipher block as well, and a tweak. -/
def UnitsFit (length unitSize first : Nat) : Prop :=
  0 < unitSize ∧
    (length / unitSize = 0 ∨ 16 ≤ unitSize ∧ first + length / unitSize ≤ 2 ^ 128) ∧
    (length % unitSize = 0 ∨ 16 ≤ length % unitSize ∧ first + length / unitSize < 2 ^ 128)

/-- Decryption returns on exactly the buffers whose units fit. -/
theorem decryptUnits_returns_iff {first : Nat} {buffer : Bytes} :
    (∃ plain, decryptUnits crates buffer key1 key2 unitSize first = .ok plain) ↔
      UnitsFit buffer.length unitSize first := by
  unfold UnitsFit
  by_cases hunit : 0 < unitSize
  swap
  · rw [decryptUnits, decryptArea, if_pos (by omega)]
    simp [panicked, hunit]
  have hsplit := Nat.div_add_mod' buffer.length unitSize
  have rest : (buffer.drop (buffer.length / unitSize * unitSize)).length =
      buffer.length % unitSize := by
    rw [List.length_drop]
    omega
  have noRest : buffer.drop (buffer.length / unitSize * unitSize) = [] ↔
      buffer.length % unitSize = 0 := by
    rw [← List.length_eq_zero_iff, rest]
  have unitLength : ∀ k < buffer.length / unitSize,
      (slice buffer (k * unitSize) unitSize).length = unitSize := by
    intro k hk
    apply slice_length_of_le
    calc k * unitSize + unitSize = (k + 1) * unitSize := (Nat.succ_mul k unitSize).symm
      _ ≤ buffer.length / unitSize * unitSize := Nat.mul_le_mul_right _ hk
      _ ≤ buffer.length := Nat.div_mul_le_self _ _
  rw [decryptUnits_eq_walk hunit, walkUnits_returns_iff, noRest]
  simp only [decryptSector_returns_iff, rest, hunit, true_and]
  generalize buffer.length / unitSize = whole at unitLength ⊢
  refine and_congr_left fun _ => ?_
  constructor
  · intro units
    cases whole with
    | zero => exact .inl rfl
    | succ last =>
        -- the last unit has the highest tweak
        have tweak := units last (by omega)
        rw [unitLength last (by omega)] at tweak
        exact .inr (by omega)
  · intro units k hk
    rw [unitLength k hk]
    omega

/-- Encryption and decryption undo one another, whatever the buffer, the unit size and the index of
the first unit: they return on the same buffers, to which a last unit of a cipher block or more
belongs, and panic on all others. -/
theorem encrypt_decrypt_units (invertible : crates.Invertible) (key1 key2 : ByteArr 16)
    (unitSize first : Nat) (buffer : Bytes) :
    (∀ cipher, encryptUnits crates buffer key1 key2 unitSize first = .ok cipher ↔
      decryptUnits crates cipher key1 key2 unitSize first = .ok buffer) ∧
    ((∃ cipher, encryptUnits crates buffer key1 key2 unitSize first = .ok cipher) ↔
      UnitsFit buffer.length unitSize first) ∧
    ((∃ plain, decryptUnits crates buffer key1 key2 unitSize first = .ok plain) ↔
      UnitsFit buffer.length unitSize first) ∧
    (¬ UnitsFit buffer.length unitSize first →
      encryptUnits crates buffer key1 key2 unitSize first = panicked ∧
      decryptUnits crates buffer key1 key2 unitSize first = panicked) := by
  have alike := encryptUnits_lengths crates key1 key2 unitSize first buffer
  have decrypts : (∃ plain, decryptUnits crates buffer key1 key2 unitSize first = .ok plain) ↔
      UnitsFit buffer.length unitSize first := decryptUnits_returns_iff
  refine ⟨encryptUnits_ok_iff invertible key1 key2 unitSize first buffer,
    (returns_alike alike).trans decrypts, decrypts, ?_⟩
  intro unfit
  have stops : decryptUnits crates buffer key1 key2 unitSize first = panicked := by
    cases hdecrypt : decryptUnits crates buffer key1 key2 unitSize first with
    | ok plain => exact absurd (decrypts.mp ⟨plain, hdecrypt⟩) unfit
    | error stop => exact congrArg Except.error (decryptUnits_error hdecrypt)
  exact ⟨(panicked_alike alike).mpr stops, stops⟩

/-- Over the primitives themselves, on a buffer that ends within a unit. -/
theorem encrypt_decrypt_units_standard :
    let key := ByteArr.fill 16 0x20
    let buffer := List.replicate 49 0x11
    (∀ cipher, encryptUnits standardCrates buffer key key 32 7 = .ok cipher ↔
      decryptUnits standardCrates cipher key key 32 7 = .ok buffer) ∧
    ((∃ cipher, encryptUnits standardCrates buffer key key 32 7 = .ok cipher) ↔
      UnitsFit buffer.length 32 7) ∧
    ((∃ plain, decryptUnits standardCrates buffer key key 32 7 = .ok plain) ↔
      UnitsFit buffer.length 32 7) ∧
    (¬ UnitsFit buffer.length 32 7 →
      encryptUnits standardCrates buffer key key 32 7 = panicked ∧
      decryptUnits standardCrates buffer key key 32 7 = panicked) :=
  encrypt_decrypt_units standardCrates_invertible _ _ 32 7 _

end

/-! ## A volume at once -/

/-- The sectors of a volume, one after the other, as far as the image has them. -/
def DecryptedVolume.sectors (vol : DecryptedVolume) : Bytes :=
  sliceD vol.reader.data vol.physicalBase.toNat
    ((vol.size.toNat + (sectorSize - 1)) / sectorSize * sectorSize) 0

/-- The sectors of a volume decrypted at once are the plaintext, and the rest of the last sector. -/
theorem DecryptedVolume.decryptUnits_sectors (crates : Crates) (vol : DecryptedVolume) :
    ∃ plain, decryptUnits crates vol.sectors vol.keys.vmk vol.keys.tweakKey sectorSize 0 =
        .ok plain ∧ plain.take vol.size.toNat = (vol.cursor crates).data := by
  have hsize := vol.size.toNat_lt
  have usize := usizeSize_eq
  have hindex : 0 + (vol.size.toNat + (sectorSize - 1)) / sectorSize ≤ 2 ^ 128 := by
    unfold sectorSize
    omega
  refine ⟨_, decryptUnits_whole (by decide) (sliceD_length ..) hindex, ?_⟩
  rw [mapUnits_eq_flatMap]
  show _ = plaintextOf crates vol.keys vol.reader.data vol.physicalBase.toNat vol.size.toNat
  unfold plaintextOf
  congr 1
  -- sector by sector
  apply List.flatMap_congr
  intro k hk
  have hk' := List.mem_range.mp hk
  have inside : k * sectorSize + sectorSize ≤
      (vol.size.toNat + (sectorSize - 1)) / sectorSize * sectorSize := by
    rw [← Nat.succ_mul]
    exact Nat.mul_le_mul_right _ hk'
  rw [Nat.zero_add, sectors, slice_sliceD inside, Nat.mul_comm k]
  rfl

/-- A read decrypts the sectors around its request only, and gets what one decryption of the whole
volume has there; or the device fails. -/
theorem readAt_of_whole (crates : Crates) (vol : DecryptedVolume) (fits : vol.Fits) :
    ∃ plain, decryptUnits crates vol.sectors vol.keys.vmk vol.keys.tweakKey sectorSize 0 =
        .ok plain ∧ ∀ offset buf,
      let wanted := slice (plain.take vol.size.toNat) offset.toNat buf.length
      ∃ reader, (vol.readAt crates offset buf =
          (.ok wanted.length, splice buf 0 wanted, { vol with reader })) ∨
        reader.faults < vol.reader.faults ∧
          ∃ e, vol.readAt crates offset buf = (fail (.io e), buf, { vol with reader }) := by
  obtain ⟨plain, hplain, hdata⟩ := vol.decryptUnits_sectors crates
  refine ⟨plain, hplain, ?_⟩
  intro offset buf
  rw [hdata]
  rcases vol.readAt_rested crates offset buf with
    ⟨reader, -, heq⟩ | ⟨e, reader, failed, onward, heq⟩
  · have healthy : vol.rested.reader.Healthy := Reader.healthy_cursor vol.reader.data
    obtain ⟨reader', -, hread⟩ := readAt_cursor crates healthy fits offset buf
    refine ⟨reader, .inl ?_⟩
    rw [heq, hread]
    rfl
  · exact ⟨reader, .inr ⟨onward.faults_lt failed, e, heq⟩⟩

/-- The flaky volume, whose last sector reaches past the image. -/
theorem flakyVolume_readAt_of_whole :
    ∃ plain, decryptUnits standardCrates flakyVolume.sectors flakyVolume.keys.vmk
        flakyVolume.keys.tweakKey sectorSize 0 = .ok plain ∧ ∀ offset buf,
      let wanted := slice (plain.take flakyVolume.size.toNat) offset.toNat buf.length
      ∃ reader, (flakyVolume.readAt standardCrates offset buf =
          (.ok wanted.length, splice buf 0 wanted, { flakyVolume with reader })) ∨
        reader.faults < flakyVolume.reader.faults ∧
          ∃ e, flakyVolume.readAt standardCrates offset buf =
            (fail (.io e), buf, { flakyVolume with reader }) :=
  readAt_of_whole standardCrates flakyVolume (by unfold DecryptedVolume.Fits; decide)

end FileVault
