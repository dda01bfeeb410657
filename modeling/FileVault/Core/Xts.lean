import FileVault.Core.Crates
import FileVault.Lib.Units

/-!
# AES-XTS units (`xts.rs`)

`decrypt_units` hands its buffer to `xts-mode`'s `decrypt_area`, which walks the
whole units with increasing tweaks and then, when bytes are left over, decrypts
them as one shorter sector. A sector of fewer than 16 bytes fails an assertion.
-/

namespace FileVault

open Lib

section

variable (crates : Crates) (key1 key2 : ByteArr 16)

/-- `Xts128::decrypt_sector`, with the tweak of unit `index`. -/
def decryptSector (sector : Bytes) (index : Nat) : Run Bytes :=
  if 2 ^ 128 ≤ index then panicked
  else if sector.length < 16 then panicked
  else .ok (crates.decryptSector key1 key2 index sector)

/-- What `decrypt_area` does with the bytes after the last full sector. -/
def decryptRemainder (rest : Bytes) (index : Nat) : Run Bytes :=
  if rest = [] then .ok [] else decryptSector crates key1 key2 rest index

/-- The chunk loop of `decrypt_area`: `whole` full sectors, then the remainder. -/
def decryptChunks (sectorSize : Nat) : (whole : Nat) → (area : Bytes) → (index : Nat) → Run Bytes
  | 0, area, index => decryptRemainder crates key1 key2 area index
  | whole + 1, area, index => do
      let head ← decryptSector crates key1 key2 (area.take sectorSize) index
      let tail ← decryptChunks sectorSize whole (area.drop sectorSize) (index + 1)
      return head ++ tail

/-- `Xts128::decrypt_area`. -/
def decryptArea (area : Bytes) (sectorSize firstSectorIndex : Nat) : Run Bytes :=
  if sectorSize = 0 then panicked
  else decryptChunks crates key1 key2 sectorSize (area.length / sectorSize) area firstSectorIndex

end

/-- `decrypt_units`. -/
def decryptUnits (crates : Crates) (buffer : Bytes) (key1 key2 : ByteArr 16)
    (unitSize firstUnitIndex : Nat) : Run Bytes :=
  decryptArea crates key1 key2 buffer unitSize firstUnitIndex

section

variable (crates : Crates) (key1 key2 : ByteArr 16)

/-- `Xts128::encrypt_sector`, with the tweak of unit `index`. -/
def encryptSector (index : Nat) (sector : Bytes) : Run Bytes :=
  if 2 ^ 128 ≤ index then panicked
  else if sector.length < 16 then panicked
  else .ok (crates.encryptSector key1 key2 index sector)

/-- `Xts128::encrypt_area`: the same walk as that of `decrypt_area`. -/
def encryptArea (area : Bytes) (sectorSize firstSectorIndex : Nat) : Run Bytes :=
  if sectorSize = 0 then panicked
  else walkUnits sectorSize (encryptSector crates key1 key2) (area.length / sectorSize)
    firstSectorIndex area

end

/-- `encrypt_units`, which writes the images of the tests. -/
def encryptUnits (crates : Crates) (buffer : Bytes) (key1 key2 : ByteArr 16)
    (unitSize firstUnitIndex : Nat) : Run Bytes :=
  encryptArea crates key1 key2 buffer unitSize firstUnitIndex

section

variable {crates : Crates} {key1 key2 : ByteArr 16}

theorem decryptSector_eq {sector : Bytes} {index : Nat} (hindex : index < 2 ^ 128)
    (hlen : 16 ≤ sector.length) :
    decryptSector crates key1 key2 sector index =
      .ok (crates.decryptSector key1 key2 index sector) := by
  rw [decryptSector, if_neg (by omega), if_neg (by omega)]

/-- Decryption gives no error; all that can go wrong with it is a panic. -/
theorem decryptChunks_ne_fail (e : FileVaultError) {sectorSize whole : Nat} {area : Bytes}
    {index : Nat} :
    decryptChunks crates key1 key2 sectorSize whole area index ≠ fail e := by
  have sector : ∀ sector index, decryptSector crates key1 key2 sector index ≠ fail e := by
    intro sector index
    unfold decryptSector
    split_ifs <;> simp [fail, panicked]
  induction whole generalizing area index with
  | zero =>
      rw [decryptChunks, decryptRemainder]
      split_ifs
      · simp [fail]
      · exact sector _ _
  | succ whole ih =>
      rw [decryptChunks]
      cases hhead : decryptSector crates key1 key2 (area.take sectorSize) index with
      | error stop =>
          intro h
          exact sector _ _ (hhead.trans h)
      | ok head =>
          cases htail : decryptChunks crates key1 key2 sectorSize whole (area.drop sectorSize)
              (index + 1) with
          | error stop =>
              intro h
              exact ih (htail.trans h)
          | ok tail => simp [fail]

/-- The chunk loop is the unit-wise decryption of the whole sectors followed by
whatever the remainder becomes. -/
theorem decryptChunks_eq {sectorSize whole index : Nat} {area : Bytes}
    (hsize : 16 ≤ sectorSize) (hlen : whole * sectorSize ≤ area.length)
    (hindex : index + whole ≤ 2 ^ 128) :
    decryptChunks crates key1 key2 sectorSize whole area index = do
      let tail ← decryptRemainder crates key1 key2 (area.drop (whole * sectorSize))
        (index + whole)
      return mapUnits sectorSize (crates.decryptSector key1 key2) whole index area ++ tail := by
  induction whole generalizing area index with
  | zero =>
      simp only [decryptChunks, Nat.zero_mul, List.drop_zero, mapUnits, List.nil_append,
        Nat.add_zero]
      exact (bind_pure _).symm
  | succ whole ih =>
      rw [Nat.succ_mul] at hlen
      rw [decryptChunks, decryptSector_eq (by omega) (by simp; omega), ok_bind,
        ih (by simp; omega) (by omega), mapUnits]
      simp only [List.drop_drop, Nat.succ_mul, bind_assoc, pure_run, ok_bind]
      rw [Nat.add_comm sectorSize, show index + 1 + whole = index + (whole + 1) by omega]
      simp [List.append_assoc]

/-- A buffer of whole units is decrypted unit by unit. -/
theorem decryptUnits_whole {buffer : Bytes} {unitSize first count : Nat}
    (hsize : 16 ≤ unitSize) (hlen : buffer.length = count * unitSize)
    (hindex : first + count ≤ 2 ^ 128) :
    decryptUnits crates buffer key1 key2 unitSize first =
      .ok (mapUnits unitSize (crates.decryptSector key1 key2) count first buffer) := by
  have hcount : buffer.length / unitSize = count := by
    rw [hlen, Nat.mul_div_cancel _ (by omega)]
  have hrest : buffer.drop (count * unitSize) = [] := by simp [hlen]
  rw [decryptUnits, decryptArea, if_neg (by omega), hcount,
    decryptChunks_eq hsize (by omega) hindex, hrest]
  simp [decryptRemainder]

/-- A buffer that is not decrypted is panicked over. -/
theorem decryptUnits_error {buffer : Bytes} {unitSize first : Nat} {stop : Stop}
    (h : decryptUnits crates buffer key1 key2 unitSize first = .error stop) : stop = .panic := by
  cases stop with
  | panic => rfl
  | error e =>
      unfold decryptUnits decryptArea at h
      split at h
      · cases h
      · exact absurd h (decryptChunks_ne_fail e)

/-- A buffer of whole units is encrypted unit by unit. -/
theorem encryptUnits_whole {buffer : Bytes} {unitSize first count : Nat}
    (hsize : 16 ≤ unitSize) (hlen : buffer.length = count * unitSize)
    (hindex : first + count ≤ 2 ^ 128) :
    encryptUnits crates buffer key1 key2 unitSize first =
      .ok (mapUnits unitSize (crates.encryptSector key1 key2) count first buffer) := by
  have hcount : buffer.length / unitSize = count := by
    rw [hlen, Nat.mul_div_cancel _ (by omega)]
  rw [encryptUnits, encryptArea, if_neg (by omega), hcount]
  refine walkUnits_whole ?_ hlen
  intro k hk _ hsector
  rw [encryptSector, if_neg (by omega), if_neg (by omega)]

/-- Encryption keeps the length of the buffer. -/
theorem encryptUnits_length {buffer cipher : Bytes} {unitSize first : Nat}
    (h : encryptUnits crates buffer key1 key2 unitSize first = .ok cipher) :
    cipher.length = buffer.length := by
  unfold encryptUnits encryptArea at h
  split at h
  · cases h
  · refine walkUnits_length ?_ (Nat.div_mul_le_self _ _) h
    intro index sector out hsector
    unfold encryptSector at hsector
    split at hsector
    · cases hsector
    · split at hsector
      · cases hsector
      · obtain rfl := Except.ok.inj hsector
        exact crates.encryptSector_length ..

/-- In general the remainder decides: none, and the units are all there is; fewer
than 16 bytes, and the call panics; otherwise it is decrypted as one more sector. -/
theorem decryptUnits_eq {buffer : Bytes} {unitSize first : Nat}
    (hsize : 16 ≤ unitSize) (hindex : first + buffer.length < 2 ^ 128) :
    decryptUnits crates buffer key1 key2 unitSize first =
      (if buffer.length % unitSize = 0 then
        .ok (mapUnits unitSize (crates.decryptSector key1 key2) (buffer.length / unitSize)
          first buffer)
      else if buffer.length % unitSize < 16 then panicked
      else .ok (mapUnits unitSize (crates.decryptSector key1 key2) (buffer.length / unitSize)
          first buffer ++
        crates.decryptSector key1 key2 (first + buffer.length / unitSize)
          (buffer.drop (buffer.length / unitSize * unitSize)))) := by
  have hdiv : buffer.length / unitSize ≤ buffer.length := Nat.div_le_self _ _
  have hsplit := Nat.div_add_mod' buffer.length unitSize
  have hrest : (buffer.drop (buffer.length / unitSize * unitSize)).length =
      buffer.length % unitSize := by
    rw [List.length_drop]
    omega
  rw [decryptUnits, decryptArea, if_neg (by omega),
    decryptChunks_eq hsize (by omega) (by omega), decryptRemainder]
  by_cases h0 : buffer.length % unitSize = 0
  · rw [if_pos h0, if_pos (List.length_eq_zero_iff.mp (by omega))]
    simp
  · rw [if_neg h0, if_neg (by intro h; rw [h] at hrest; simp at hrest; omega)]
    by_cases h16 : buffer.length % unitSize < 16
    · rw [if_pos h16, decryptSector, if_neg (by omega), if_pos (by omega)]
      rfl
    · rw [if_neg h16, decryptSector_eq (by omega) (by omega)]
      rfl

/-- Decryption keeps the length of the buffer. -/
theorem decryptUnits_length {buffer plain : Bytes} {unitSize first : Nat}
    (hsize : 16 ≤ unitSize) (hindex : first + buffer.length < 2 ^ 128)
    (h : decryptUnits crates buffer key1 key2 unitSize first = .ok plain) :
    plain.length = buffer.length := by
  have hsplit := Nat.div_add_mod' buffer.length unitSize
  have units : (mapUnits unitSize (crates.decryptSector key1 key2) (buffer.length / unitSize) first
      buffer).length = buffer.length / unitSize * unitSize :=
    mapUnits_length (crates.decryptSector_keeps key1 key2) (by omega)
  rw [decryptUnits_eq hsize hindex] at h
  split at h
  · simp only [Except.ok.injEq] at h
    rw [← h, units]
    omega
  · split at h
    · simp [panicked] at h
    · simp only [Except.ok.injEq] at h
      rw [← h, List.length_append, units, crates.decryptSector_length, List.length_drop]
      omega

end

end FileVault
