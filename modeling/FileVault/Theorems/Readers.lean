import FileVault.Core.Read

/-!
# The bounds-checked readers

A reader compares the end of its range with the length of the slice, and the end is a plain
sum. It has no answer for an offset so close to the top of the address range that the sum is
no address; for every other offset it returns the field, or zero where there is none.
-/

namespace FileVault

open Lib

/-- A reader of `read.rs`: the field it reads, what the field stands for, and what is there
when the field is not. -/
structure FieldReader (Meaning : Type) where
  Field : Type
  read : Bytes → Nat → Run Field
  meaning : Field → Meaning
  width : Nat
  decode : Bytes → Meaning
  missing : Meaning

def u16Reader : FieldReader Nat := ⟨UInt16, leU16, UInt16.toNat, 2, leNat, 0⟩

def u32Reader : FieldReader Nat := ⟨UInt32, leU32, UInt32.toNat, 4, leNat, 0⟩

def u64Reader : FieldReader Nat := ⟨UInt64, leU64, UInt64.toNat, 8, leNat, 0⟩

def u48Reader : FieldReader Nat := ⟨UInt64, leU48, UInt64.toNat, 6, leNat, 0⟩

def bytes16Reader : FieldReader Bytes :=
  ⟨ByteArr 16, bytes16, Subtype.val, 16, id, List.replicate 16 0⟩

/-- The reader returns, with what the bytes of the field stand for if they are all inside the
slice, and with what stands for a missing field otherwise. -/
def FieldReader.ReturnsField {Meaning : Type} (reader : FieldReader Meaning) (data : Bytes)
    (off : Nat) : Prop :=
  ∃ field, reader.read data off = .ok field ∧ reader.meaning field =
    if off + reader.width ≤ data.length then reader.decode (slice data off reader.width)
    else reader.missing

/-- The end of the range is computed first, and it is no address at the top of the address
range. -/
theorem uadd_panicked {a b : Nat} (h : usizeSize ≤ a + b) : uadd a b = panicked :=
  if_neg (by omega)

theorem not_returnsField {Meaning : Type} {reader : FieldReader Meaning} {data : Bytes} {off : Nat}
    (h : reader.read data off = panicked) : ¬ reader.ReturnsField data off := by
  rintro ⟨field, hread, -⟩
  rw [h] at hread
  exact ok_ne_panicked field hread.symm

/-- An integer reader returns exactly when the end of its range is an address. -/
theorem integerReader_iff {reader : FieldReader Nat} (ofNat : Nat → reader.Field)
    (hread : ∀ data off, reader.read data off = (do return ofNat (← leAt reader.width data off)))
    (hmeaning : ∀ n < 256 ^ reader.width, reader.meaning (ofNat n) = n)
    (hdecode : reader.decode = leNat) (hmissing : reader.missing = 0) (data : Bytes) (off : Nat) :
    reader.ReturnsField data off ↔ off + reader.width < usizeSize := by
  constructor
  · intro returns
    by_contra hge
    refine not_returnsField ?_ returns
    rw [hread, leAt, uadd_panicked (by omega)]
    rfl
  · intro h
    refine ⟨ofNat (fieldAt reader.width data off), ?_, ?_⟩
    · rw [hread, leAt_eq data h]
      rfl
    · rw [hmeaning _ (fieldAt_lt _ _ _), hdecode, hmissing]
      rfl

theorem bytes16Reader_iff (data : Bytes) (off : Nat) :
    bytes16Reader.ReturnsField data off ↔ off + 16 < usizeSize := by
  constructor
  · intro returns
    by_contra hge
    refine not_returnsField ?_ returns
    show bytes16 data off = panicked
    rw [bytes16, uadd_panicked (by omega)]
    rfl
  · intro h
    refine ⟨bytesAt data off, bytes16_eq data h, ?_⟩
    show (bytesAt data off).val =
      if off + 16 ≤ data.length then slice data off 16 else List.replicate 16 0
    unfold bytesAt
    by_cases inside : off + 16 ≤ data.length
    · rw [dif_pos inside, if_pos inside]
    · rw [dif_neg inside, if_neg inside]
      rfl

/-- Every reader returns its field exactly when the end of its range is an address. -/
theorem readers_return_iff (data : Bytes) (off : Nat) :
    (u16Reader.ReturnsField data off ↔ off + 2 < usizeSize) ∧
      (u32Reader.ReturnsField data off ↔ off + 4 < usizeSize) ∧
      (u64Reader.ReturnsField data off ↔ off + 8 < usizeSize) ∧
      (u48Reader.ReturnsField data off ↔ off + 6 < usizeSize) ∧
      (bytes16Reader.ReturnsField data off ↔ off + 16 < usizeSize) := by
  refine ⟨?_, ?_, ?_, ?_, bytes16Reader_iff data off⟩
  · refine @integerReader_iff u16Reader UInt16.ofNat (fun _ _ => rfl) ?_ rfl rfl data off
    intro n hn
    exact UInt16.toNat_ofNat_of_lt' hn
  · refine @integerReader_iff u32Reader UInt32.ofNat (fun _ _ => rfl) ?_ rfl rfl data off
    intro n hn
    exact UInt32.toNat_ofNat_of_lt' hn
  · refine @integerReader_iff u64Reader UInt64.ofNat (fun _ _ => rfl) ?_ rfl rfl data off
    intro n hn
    exact UInt64.toNat_ofNat_of_lt' hn
  · refine @integerReader_iff u48Reader UInt64.ofNat leU48_eq_leAt ?_ rfl rfl data off
    intro n hn
    have hlt : n < 256 ^ 6 := hn
    exact UInt64.toNat_ofNat_of_lt' (by show n < 2 ^ 64; omega)

/-- At the top of the address range even an empty slice is no reason to return. -/
theorem readers_panic_at_top :
    leU16 [] (usizeSize - 1) = panicked ∧ ¬ u16Reader.ReturnsField [] (usizeSize - 1) := by
  have top : leU16 [] (usizeSize - 1) = panicked := by decide +kernel
  exact ⟨top, not_returnsField top⟩

end FileVault
