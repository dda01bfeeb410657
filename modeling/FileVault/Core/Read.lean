import FileVault.Core.Error
import FileVault.Lib.LittleEndian

/-!
# Bounds-checked readers (`read.rs`)

Every accessor returns `0` (or zeroed bytes) for a field that does not lie inside
the slice. The end of the range is computed with a plain `usize` addition before
the bounds check, so an offset at the very top of the address range is the one
case in which a reader does not return.
-/

namespace FileVault

open Lib

/-- `data.get(start..stop)`. -/
def getRange (data : Bytes) (start stop : Nat) : Option Bytes :=
  if start ≤ stop ∧ stop ≤ data.length then some (slice data start (stop - start)) else none

/-- `out.copy_from_slice(src)` for `out: [u8; n]`. -/
def copyFromSlice (n : Nat) (src : Bytes) : Run (ByteArr n) :=
  if h : src.length = n then .ok ⟨src, h⟩ else panicked

/-- The common body of the integer readers: `width` little-endian bytes at `off`,
or `0` when they are not all inside `data`. -/
def leAt (width : Nat) (data : Bytes) (off : Nat) : Run Nat := do
  let stop ← uadd off width
  match getRange data off stop with
  | some s => return leNat s
  | none => return 0

/-- `le_u16`. -/
def leU16 (data : Bytes) (off : Nat) : Run UInt16 := do
  return UInt16.ofNat (← leAt 2 data off)

/-- `le_u32`. -/
def leU32 (data : Bytes) (off : Nat) : Run UInt32 := do
  return UInt32.ofNat (← leAt 4 data off)

/-- `le_u64`. -/
def leU64 (data : Bytes) (off : Nat) : Run UInt64 := do
  return UInt64.ofNat (← leAt 8 data off)

/-- `le_u48`: six bytes, widened one by one. -/
def leU48 (data : Bytes) (off : Nat) : Run UInt64 := do
  let stop ← uadd off 6
  match getRange data off stop with
  | some [b0, b1, b2, b3, b4, b5] =>
      return b0.toUInt64 ||| (b1.toUInt64 <<< 8) ||| (b2.toUInt64 <<< 16) |||
        (b3.toUInt64 <<< 24) ||| (b4.toUInt64 <<< 32) ||| (b5.toUInt64 <<< 40)
  -- an index out of bounds
  | some _ => panicked
  | none => return 0

/-- `bytes16`. -/
def bytes16 (data : Bytes) (off : Nat) : Run (ByteArr 16) := do
  let stop ← uadd off 16
  match getRange data off stop with
  | some s => copyFromSlice 16 s
  | none => return ByteArr.zero 16

/-! ## What the readers return

`fieldAt` and `bytesAt` are the pure values; away from the top of the address
range a reader is its value. -/

/-- The value of the `width`-byte field at `off`, `0` when it is not inside. -/
def fieldAt (width : Nat) (data : Bytes) (off : Nat) : Nat :=
  if off + width ≤ data.length then leNat (slice data off width) else 0

/-- The 16 bytes at `off`, zeros when they are not inside. -/
def bytesAt (data : Bytes) (off : Nat) : ByteArr 16 :=
  if h : off + 16 ≤ data.length then ⟨slice data off 16, slice_length_of_le h⟩
  else ByteArr.zero 16

theorem getRange_add (data : Bytes) (off width : Nat) :
    getRange data off (off + width) =
      if off + width ≤ data.length then some (slice data off width) else none := by
  simp [getRange]

/-- A range that lies inside the slice is there. -/
theorem getRange_eq {data : Bytes} {off width : Nat} (h : off + width ≤ data.length) :
    getRange data off (off + width) = some (slice data off width) := by
  rw [getRange_add, if_pos h]

theorem leAt_eq {width off : Nat} (data : Bytes) (h : off + width < usizeSize) :
    leAt width data off = .ok (fieldAt width data off) := by
  unfold leAt fieldAt
  rw [uadd_eq h, ok_bind, getRange_add]
  split <;> simp_all

theorem leU16_eq {off : Nat} (data : Bytes) (h : off + 2 < usizeSize) :
    leU16 data off = .ok (UInt16.ofNat (fieldAt 2 data off)) := by
  simp [leU16, leAt_eq data h]

theorem leU32_eq {off : Nat} (data : Bytes) (h : off + 4 < usizeSize) :
    leU32 data off = .ok (UInt32.ofNat (fieldAt 4 data off)) := by
  simp [leU32, leAt_eq data h]

theorem leU64_eq {off : Nat} (data : Bytes) (h : off + 8 < usizeSize) :
    leU64 data off = .ok (UInt64.ofNat (fieldAt 8 data off)) := by
  simp [leU64, leAt_eq data h]

theorem bytes16_eq {off : Nat} (data : Bytes) (h : off + 16 < usizeSize) :
    bytes16 data off = .ok (bytesAt data off) := by
  unfold bytes16 bytesAt copyFromSlice
  rw [uadd_eq h, ok_bind, getRange_add]
  by_cases inside : off + 16 ≤ data.length
  · simp [inside, slice_length_of_le inside]
  · simp [inside]

/-- A widened byte keeps all its bits when it is shifted to its place. -/
theorem toNat_shifted_byte (b : UInt8) {k : UInt64} (hk : k.toNat ≤ 40) :
    (b.toUInt64 <<< k).toNat = b.toNat <<< k.toNat := by
  have hb := b.toNat_lt
  have hpow : 2 ^ k.toNat ≤ 2 ^ 40 := Nat.pow_le_pow_right (by decide) hk
  have hlt : b.toNat * 2 ^ k.toNat < 2 ^ 64 := by nlinarith
  rw [UInt64.toNat_shiftLeft, UInt8.toNat_toUInt64, Nat.mod_eq_of_lt (show k.toNat < 64 by omega),
    Nat.shiftLeft_eq, Nat.mod_eq_of_lt hlt]

/-- The six bytes put together are the number they spell. -/
theorem or_shifted_bytes (b0 b1 b2 b3 b4 b5 : UInt8) :
    b0.toUInt64 ||| (b1.toUInt64 <<< 8) ||| (b2.toUInt64 <<< 16) |||
        (b3.toUInt64 <<< 24) ||| (b4.toUInt64 <<< 32) ||| (b5.toUInt64 <<< 40) =
      UInt64.ofNat (leNat [b0, b1, b2, b3, b4, b5]) := by
  have h0 := b0.toNat_lt
  have h1 := b1.toNat_lt
  have h2 := b2.toNat_lt
  have h3 := b3.toNat_lt
  have h4 := b4.toNat_lt
  have h5 := b5.toNat_lt
  apply UInt64.toNat_inj.mp
  simp only [UInt64.toNat_or, UInt8.toNat_toUInt64]
  rw [toNat_shifted_byte b1 (by decide), toNat_shifted_byte b2 (by decide),
    toNat_shifted_byte b3 (by decide), toNat_shifted_byte b4 (by decide),
    toNat_shifted_byte b5 (by decide), UInt64.toNat_ofNat']
  show b0.toNat ||| b1.toNat <<< 8 ||| b2.toNat <<< 16 ||| b3.toNat <<< 24 ||| b4.toNat <<< 32 |||
    b5.toNat <<< 40 = _
  -- byte by byte: what is there already lies below the place of the next
  rw [or_shiftLeft 8 h0]
  rw [or_shiftLeft 16 (show b0.toNat + 2 ^ 8 * b1.toNat < 2 ^ 16 by omega)]
  rw [or_shiftLeft 24 (show b0.toNat + 2 ^ 8 * b1.toNat + 2 ^ 16 * b2.toNat < 2 ^ 24 by omega)]
  rw [or_shiftLeft 32 (show b0.toNat + 2 ^ 8 * b1.toNat + 2 ^ 16 * b2.toNat +
    2 ^ 24 * b3.toNat < 2 ^ 32 by omega)]
  rw [or_shiftLeft 40 (show b0.toNat + 2 ^ 8 * b1.toNat + 2 ^ 16 * b2.toNat +
    2 ^ 24 * b3.toNat + 2 ^ 32 * b4.toNat < 2 ^ 40 by omega)]
  simp only [leNat]
  omega

/-- `le_u48` reads six bytes as the other readers read theirs. -/
theorem leU48_eq_leAt (data : Bytes) (off : Nat) :
    leU48 data off = (do return UInt64.ofNat (← leAt 6 data off)) := by
  unfold leU48 leAt
  cases hstop : uadd off 6 with
  | error stop => rfl
  | ok stop =>
      simp only [ok_bind]
      cases hrange : getRange data off stop with
      | none => rfl
      | some s =>
          have hstop' : stop = off + 6 := by
            unfold uadd at hstop
            split at hstop
            · exact (Except.ok.inj hstop).symm
            · simp [panicked] at hstop
          subst hstop'
          have hlen : s.length = 6 := by
            rw [getRange_add] at hrange
            split at hrange
            · next inside =>
                obtain rfl := Option.some.inj hrange
                exact slice_length_of_le inside
            · simp at hrange
          rcases s with _ | ⟨b0, _ | ⟨b1, _ | ⟨b2, _ | ⟨b3, _ | ⟨b4, _ | ⟨b5, _ | ⟨b6, s⟩⟩⟩⟩⟩⟩⟩ <;>
            simp only [List.length_cons, List.length_nil] at hlen <;> try omega
          simp only [pure_run, ok_bind, or_shifted_bytes]

theorem fieldAt_lt (width : Nat) (data : Bytes) (off : Nat) :
    fieldAt width data off < 256 ^ width := by
  unfold fieldAt
  split
  · next h => simpa [slice_length_of_le h] using leNat_lt (slice data off width)
  · exact Nat.pow_pos (by decide)

@[simp] theorem toNat_fieldAt_u32 (data : Bytes) (off : Nat) :
    (UInt32.ofNat (fieldAt 4 data off)).toNat = fieldAt 4 data off := by
  have := fieldAt_lt 4 data off
  rw [UInt32.toNat_ofNat']
  omega

@[simp] theorem toNat_fieldAt_u64 (data : Bytes) (off : Nat) :
    (UInt64.ofNat (fieldAt 8 data off)).toNat = fieldAt 8 data off := by
  have := fieldAt_lt 8 data off
  rw [UInt64.toNat_ofNat']
  omega

/-- A field is a function of the bytes it lies on. -/
theorem fieldAt_congr {width off off' : Nat} {data data' : Bytes}
    (inside : off + width ≤ data.length) (inside' : off' + width ≤ data'.length)
    (same : slice data off width = slice data' off' width) :
    fieldAt width data off = fieldAt width data' off' := by
  rw [fieldAt, fieldAt, if_pos inside, if_pos inside', same]

/-- Reading a number back from where it was written. -/
theorem fieldAt_of_slice {width off n : Nat} {data : Bytes}
    (inside : off + width ≤ data.length) (h : n < 256 ^ width)
    (written : slice data off width = leBytes width n) : fieldAt width data off = n := by
  rw [fieldAt, if_pos inside, written, leNat_leBytes h]

end FileVault
