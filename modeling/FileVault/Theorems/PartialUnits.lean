import FileVault.Core.Metadata
import FileVault.Logic.Primitives

/-!
# The bytes after the last unit

`decrypt_units` is for buffers of whole units, and a partial unit at the end is to be left as
it is. The library takes it for one more sector instead: too short for a cipher block it stops
the program, and otherwise it is decrypted. It is left alone where there is none, or where the
cipher happens to map it to itself.
-/

namespace FileVault

open Lib

section

variable (crates : Crates) (key1 key2 : ByteArr 16) (unitSize first : Nat) (buffer : Bytes)

/-- What is left of the buffer after its whole units. -/
def partialUnit : Bytes := buffer.drop (buffer.length / unitSize * unitSize)

/-- Every whole unit is decrypted under its own tweak, and the rest is as it was. -/
structure UnitsDecrypted (plain : Bytes) : Prop where
  length : plain.length = buffer.length
  whole : ∀ i < buffer.length / unitSize, slice plain (i * unitSize) unitSize =
    crates.decryptSector key1 key2 (first + i) (slice buffer (i * unitSize) unitSize)
  rest : plain.drop (buffer.length / unitSize * unitSize) = partialUnit unitSize buffer

/-- There is no partial unit, or it is one that decryption does not change. -/
def PartialUnchanged : Prop :=
  partialUnit unitSize buffer = [] ∨
    (16 ≤ (partialUnit unitSize buffer).length ∧ first + buffer.length / unitSize < 2 ^ 128 ∧
      crates.decryptSector key1 key2 (first + buffer.length / unitSize)
        (partialUnit unitSize buffer) = partialUnit unitSize buffer)

end

section

variable {crates : Crates} {key1 key2 : ByteArr 16} {unitSize first : Nat} {buffer : Bytes}

/-- The remainder stays as it is if it is empty, or long enough and mapped to itself. -/
theorem decryptRemainder_self_iff {rest : Bytes} {index : Nat} :
    decryptRemainder crates key1 key2 rest index = .ok rest ↔
      rest = [] ∨ (16 ≤ rest.length ∧ index < 2 ^ 128 ∧
        crates.decryptSector key1 key2 index rest = rest) := by
  unfold decryptRemainder
  by_cases hempty : rest = []
  · simp [hempty]
  rw [if_neg hempty]
  constructor
  · intro h
    right
    unfold decryptSector at h
    split at h
    · exact absurd h.symm (ok_ne_panicked rest)
    · split at h
      · exact absurd h.symm (ok_ne_panicked rest)
      · exact ⟨by omega, by omega, Except.ok.inj h⟩
  · rintro (h | ⟨hlen, hindex, hself⟩)
    · exact absurd h hempty
    · rw [decryptSector_eq hindex hlen, hself]

/-- The units come first, and then what becomes of the remainder. -/
theorem decryptUnits_split (hsize : 16 ≤ unitSize)
    (hindex : first + buffer.length / unitSize ≤ 2 ^ 128) :
    decryptUnits crates buffer key1 key2 unitSize first = (do
      let rest ← decryptRemainder crates key1 key2 (partialUnit unitSize buffer)
        (first + buffer.length / unitSize)
      return mapUnits unitSize (crates.decryptSector key1 key2) (buffer.length / unitSize) first
        buffer ++ rest) := by
  rw [decryptUnits, decryptArea, if_neg (by omega)]
  exact decryptChunks_eq hsize (Nat.div_mul_le_self _ _) hindex

theorem units_length : (mapUnits unitSize (crates.decryptSector key1 key2)
    (buffer.length / unitSize) first buffer).length = buffer.length / unitSize * unitSize :=
  mapUnits_length (crates.decryptSector_keeps key1 key2) (Nat.div_mul_le_self _ _)

/-- The units of the result are the decrypted ones, whatever comes after them. -/
theorem slice_units_append {rest : Bytes} {i : Nat} (hi : i < buffer.length / unitSize) :
    slice (mapUnits unitSize (crates.decryptSector key1 key2) (buffer.length / unitSize) first
        buffer ++ rest) (i * unitSize) unitSize =
      crates.decryptSector key1 key2 (first + i) (slice buffer (i * unitSize) unitSize) := by
  have inside : i * unitSize + unitSize ≤ buffer.length / unitSize * unitSize := by
    rw [← Nat.succ_mul]
    exact Nat.mul_le_mul_right _ hi
  rw [slice_append_left (by rw [units_length]; exact inside)]
  exact mapUnits_slice (crates.decryptSector_keeps key1 key2) (Nat.div_mul_le_self _ _) hi

/-- The rest is left alone exactly if the library maps it to itself. -/
theorem unitsDecrypted_iff (hsize : 16 ≤ unitSize)
    (hindex : first + buffer.length / unitSize ≤ 2 ^ 128) :
    (∃ plain, decryptUnits crates buffer key1 key2 unitSize first = .ok plain ∧
        UnitsDecrypted crates key1 key2 unitSize first buffer plain) ↔
      PartialUnchanged crates key1 key2 unitSize first buffer := by
  have hroom : buffer.length / unitSize * unitSize ≤ buffer.length := Nat.div_mul_le_self _ _
  rw [decryptUnits_split hsize hindex, PartialUnchanged, ← decryptRemainder_self_iff]
  constructor
  · rintro ⟨plain, hplain, decrypted⟩
    obtain ⟨rest, hrest, happend⟩ := bind_eq_ok.mp hplain
    obtain rfl := Except.ok.inj happend
    have left := decrypted.rest
    rw [List.drop_left' units_length] at left
    rw [hrest, left]
  · intro hself
    rw [hself]
    refine ⟨_, rfl, ?_, ?_, ?_⟩
    · rw [List.length_append, units_length, partialUnit, List.length_drop]
      omega
    · intro i hi
      exact slice_units_append hi
    · rw [List.drop_left' units_length]

end

/-- `decrypt_units` leaves a partial unit alone exactly if there is none, or the cipher maps it
to itself; and so does `decrypt_metadata`, whose units are of 8192 bytes. -/
theorem partialUnit_kept_iff (crates : Crates) (key1 key2 : ByteArr 16) {unitSize first : Nat}
    {buffer : Bytes} (hsize : 16 ≤ unitSize) (hlen : buffer.length < usizeSize)
    (hindex : first + buffer.length / unitSize ≤ 2 ^ 128) :
    ((∃ plain, decryptUnits crates buffer key1 key2 unitSize first = .ok plain ∧
        UnitsDecrypted crates key1 key2 unitSize first buffer plain) ↔
      PartialUnchanged crates key1 key2 unitSize first buffer) ∧
    ∀ header : VolumeHeader,
      (∃ plain, decryptMetadata crates header buffer = .ok plain ∧
        UnitsDecrypted crates header.keyData header.physicalVolumeIdentifier 8192 0 buffer
          plain) ↔
      PartialUnchanged crates header.keyData header.physicalVolumeIdentifier 8192 0 buffer := by
  refine ⟨unitsDecrypted_iff hsize hindex, ?_⟩
  intro header
  have usize := usizeSize_eq
  have hunit : metadataUnitSize = 8192 := rfl
  have hcount : buffer.length / 8192 ≤ buffer.length := Nat.div_le_self _ _
  exact unitsDecrypted_iff (by decide) (by rw [hunit]; omega)

/-- A unit and a byte. -/
def unitAndByte : Bytes := List.replicate 17 0

/-- A unit, and two thirds of one. -/
def unitAndRest : Bytes := List.replicate 40 0

theorem unitAndRest_kept_iff :
    (∃ plain, decryptUnits standardCrates unitAndRest (ByteArr.fill 16 0x11) (ByteArr.fill 16 0x22)
        24 7 = .ok plain ∧ UnitsDecrypted standardCrates (ByteArr.fill 16 0x11)
          (ByteArr.fill 16 0x22) 24 7 unitAndRest plain) ↔
      PartialUnchanged standardCrates (ByteArr.fill 16 0x11) (ByteArr.fill 16 0x22) 24 7
        unitAndRest :=
  (partialUnit_kept_iff standardCrates (ByteArr.fill 16 0x11) (ByteArr.fill 16 0x22)
    (by decide) (by decide +kernel) (by decide +kernel)).1

/-- A byte too many stops the program, and a longer rest is decrypted. -/
theorem partialUnit_not_kept :
    (decryptUnits standardCrates unitAndByte (ByteArr.fill 16 0x11) (ByteArr.fill 16 0x22) 16 0 =
        panicked) ∧
    ¬ ∃ plain, decryptUnits standardCrates unitAndRest (ByteArr.fill 16 0x11)
        (ByteArr.fill 16 0x22) 24 7 = .ok plain ∧ UnitsDecrypted standardCrates
          (ByteArr.fill 16 0x11) (ByteArr.fill 16 0x22) 24 7 unitAndRest plain := by
  constructor
  · decide +kernel
  · rw [unitsDecrypted_iff (by decide) (by decide +kernel)]
    rintro (hempty | ⟨-, -, hself⟩)
    · exact absurd hempty (by decide +kernel)
    · exact absurd hself (by decide +kernel)

end FileVault
