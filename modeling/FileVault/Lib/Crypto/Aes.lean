import FileVault.Lib.Slice

/-!
# AES-128

The block cipher over a state of four columns. Decryption undoes encryption step by
step: the substitution is a permutation of the bytes, the row shift one of the
places, and the two column maps are inverse because multiplication by `x` in the
field of 256 elements is additive.
-/

namespace FileVault.Lib.Aes

/-- The substitution table, in rows of sixteen bytes. -/
def sboxRows : List Nat := [
  0x637c777bf26b6fc53001672bfed7ab76, 0xca82c97dfa5947f0add4a2af9ca472c0,
  0xb7fd9326363ff7cc34a5e5f171d83115, 0x04c723c31896059a071280e2eb27b275,
  0x09832c1a1b6e5aa0523bd6b329e32f84, 0x53d100ed20fcb15b6acbbe394a4c58cf,
  0xd0efaafb434d338545f9027f503c9fa8, 0x51a3408f929d38f5bcb6da2110fff3d2,
  0xcd0c13ec5f974417c4a77e3d645d1973, 0x60814fdc222a908846eeb814de5e0bdb,
  0xe0323a0a4906245cc2d3ac629195e479, 0xe7c8376d8dd54ea96c56f4ea657aae08,
  0xba78252e1ca6b4c6e8dd741f4bbd8b8a, 0x703eb5664803f60e613557b986c11d9e,
  0xe1f8981169d98e949b1e87e9ce5528df, 0x8ca1890dbfe6426841992d0fb054bb16]

/-- The inverse table. -/
def invSboxRows : List Nat := [
  0x52096ad53036a538bf40a39e81f3d7fb, 0x7ce339829b2fff87348e4344c4dee9cb,
  0x547b9432a6c2233dee4c950b42fac34e, 0x082ea16628d924b2765ba2496d8bd125,
  0x72f8f66486689816d4a45ccc5d65b692, 0x6c704850fdedb9da5e154657a78d9d84,
  0x90d8ab008cbcd30af7e45805b8b34506, 0xd02c1e8fca3f0f02c1afbd0301138a6b,
  0x3a9111414f67dcea97f2cfcef0b4e673, 0x96ac7422e7ad3585e2f937e81c75df6e,
  0x47f11a711d29c5896fb7620eaa18be1b, 0xfc563e4bc6d279209adbc0fe78cd5af4,
  0x1fdda8338807c731b11210592780ec5f, 0x60517fa919b54a0d2de57a9f93c99cef,
  0xa0e03b4dae2af5b0c8ebbb3c83539961, 0x172b047eba77d626e169146355210c7d]

/-- An entry of a table. -/
def entry (rows : List Nat) (b : UInt8) : UInt8 :=
  .ofNat (rows.getD (b.toNat / 16) 0 >>> (8 * (15 - b.toNat % 16)))

def sbox (b : UInt8) : UInt8 := entry sboxRows b

def invSbox (b : UInt8) : UInt8 := entry invSboxRows b

/-- Multiplication by `x`, modulo `x^8 + x^4 + x^3 + x + 1`. -/
def xtime (b : UInt8) : UInt8 := (b <<< 1) ^^^ (if b.toBitVec.msb then 0x1b else 0)

/-- A column of the state. -/
structure Word where
  b0 : UInt8
  b1 : UInt8
  b2 : UInt8
  b3 : UInt8
  deriving DecidableEq, Repr

namespace Word

def map (f : UInt8 → UInt8) (w : Word) : Word := ⟨f w.b0, f w.b1, f w.b2, f w.b3⟩

def xor (v w : Word) : Word := ⟨v.b0 ^^^ w.b0, v.b1 ^^^ w.b1, v.b2 ^^^ w.b2, v.b3 ^^^ w.b3⟩

/-- One byte of `MixColumns`: the coefficients 2, 3, 1, 1. -/
def mixByte (a b c d : UInt8) : UInt8 := xtime a ^^^ (xtime b ^^^ b) ^^^ c ^^^ d

def mix (w : Word) : Word :=
  ⟨mixByte w.b0 w.b1 w.b2 w.b3, mixByte w.b1 w.b2 w.b3 w.b0, mixByte w.b2 w.b3 w.b0 w.b1,
    mixByte w.b3 w.b0 w.b1 w.b2⟩

/-- One byte of the inverse: the coefficients 14, 11, 13, 9. -/
def invMixByte (a b c d : UInt8) : UInt8 :=
  (xtime (xtime (xtime a)) ^^^ xtime (xtime a) ^^^ xtime a) ^^^
  (xtime (xtime (xtime b)) ^^^ xtime b ^^^ b) ^^^
  (xtime (xtime (xtime c)) ^^^ xtime (xtime c) ^^^ c) ^^^
  (xtime (xtime (xtime d)) ^^^ d)

def invMix (w : Word) : Word :=
  ⟨invMixByte w.b0 w.b1 w.b2 w.b3, invMixByte w.b1 w.b2 w.b3 w.b0,
    invMixByte w.b2 w.b3 w.b0 w.b1, invMixByte w.b3 w.b0 w.b1 w.b2⟩

end Word

/-- The state, column by column; a key has the same shape. -/
structure Block where
  c0 : Word
  c1 : Word
  c2 : Word
  c3 : Word
  deriving DecidableEq, Repr

namespace Block

def map (f : Word → Word) (s : Block) : Block := ⟨f s.c0, f s.c1, f s.c2, f s.c3⟩

def xor (s t : Block) : Block :=
  ⟨s.c0.xor t.c0, s.c1.xor t.c1, s.c2.xor t.c2, s.c3.xor t.c3⟩

/-- Row `r` moves by `r` columns. -/
def shiftRows (s : Block) : Block where
  c0 := ⟨s.c0.b0, s.c1.b1, s.c2.b2, s.c3.b3⟩
  c1 := ⟨s.c1.b0, s.c2.b1, s.c3.b2, s.c0.b3⟩
  c2 := ⟨s.c2.b0, s.c3.b1, s.c0.b2, s.c1.b3⟩
  c3 := ⟨s.c3.b0, s.c0.b1, s.c1.b2, s.c2.b3⟩

def invShiftRows (s : Block) : Block where
  c0 := ⟨s.c0.b0, s.c3.b1, s.c2.b2, s.c1.b3⟩
  c1 := ⟨s.c1.b0, s.c0.b1, s.c3.b2, s.c2.b3⟩
  c2 := ⟨s.c2.b0, s.c1.b1, s.c0.b2, s.c3.b3⟩
  c3 := ⟨s.c3.b0, s.c2.b1, s.c1.b2, s.c0.b3⟩

def subBytes (s : Block) : Block := s.map (·.map sbox)

def invSubBytes (s : Block) : Block := s.map (·.map invSbox)

/-- Sixteen bytes in column order. -/
def bytes (s : Block) : List UInt8 :=
  [s.c0.b0, s.c0.b1, s.c0.b2, s.c0.b3, s.c1.b0, s.c1.b1, s.c1.b2, s.c1.b3,
    s.c2.b0, s.c2.b1, s.c2.b2, s.c2.b3, s.c3.b0, s.c3.b1, s.c3.b2, s.c3.b3]

/-- The block with these bytes, zero where there are none. -/
def ofBytes (xs : List UInt8) : Block :=
  let at_ := fun i => xs.getD i 0
  ⟨⟨at_ 0, at_ 1, at_ 2, at_ 3⟩, ⟨at_ 4, at_ 5, at_ 6, at_ 7⟩,
    ⟨at_ 8, at_ 9, at_ 10, at_ 11⟩, ⟨at_ 12, at_ 13, at_ 14, at_ 15⟩⟩

end Block

/-! ## Key schedule and rounds -/

/-- The round constants. -/
def roundConstants : List UInt8 := [0x01, 0x02, 0x04, 0x08, 0x10, 0x20, 0x40, 0x80, 0x1b, 0x36]

/-- The round key after `k`. -/
def nextKey (constant : UInt8) (k : Block) : Block :=
  let turned : Word := ⟨sbox k.c3.b1 ^^^ constant, sbox k.c3.b2, sbox k.c3.b3, sbox k.c3.b0⟩
  let c0 := k.c0.xor turned
  let c1 := k.c1.xor c0
  let c2 := k.c2.xor c1
  ⟨c0, c1, c2, k.c3.xor c2⟩

/-- The round keys from `k` on. -/
def schedule : List UInt8 → Block → List Block
  | [], k => [k]
  | constant :: constants, k => k :: schedule constants (nextKey constant k)

/-- The rounds with these keys; the last one does not mix columns. -/
def encryptRounds : List Block → Block → Block
  | [], s => s
  | [last], s => s.subBytes.shiftRows.xor last
  | k :: k' :: keys, s => encryptRounds (k' :: keys) ((s.subBytes.shiftRows.map Word.mix).xor k)

def decryptRounds : List Block → Block → Block
  | [], s => s
  | [last], s => (s.xor last).invShiftRows.invSubBytes
  | k :: k' :: keys, s =>
      (((decryptRounds (k' :: keys) s).xor k).map Word.invMix).invShiftRows.invSubBytes

/-- The round keys of a key, without the key itself. -/
def roundKeys (key : Block) : List Block := (schedule roundConstants key).tail

def encryptBlock (key s : Block) : Block := encryptRounds (roundKeys key) (s.xor key)

def decryptBlock (key s : Block) : Block := (decryptRounds (roundKeys key) s).xor key

/-- AES-128 on byte strings: a 16-byte key and a 16-byte block. -/
def encrypt (key block : List UInt8) : List UInt8 :=
  (encryptBlock (.ofBytes key) (.ofBytes block)).bytes

def decrypt (key block : List UInt8) : List UInt8 :=
  (decryptBlock (.ofBytes key) (.ofBytes block)).bytes

/-! ## Every step is undone -/

theorem invSbox_inverse :
    (List.range 256).all (fun n => invSbox (sbox (.ofNat n)) == .ofNat n) = true := by
  decide +kernel

@[simp] theorem invSbox_sbox (b : UInt8) : invSbox (sbox b) = b := by
  have undone := List.all_eq_true.mp invSbox_inverse b.toNat (List.mem_range.mpr b.toNat_lt)
  rw [UInt8.ofNat_toNat] at undone
  exact eq_of_beq undone

theorem xor_left_comm (a b c : UInt8) : a ^^^ (b ^^^ c) = b ^^^ (a ^^^ c) := by
  rw [← UInt8.xor_assoc, UInt8.xor_comm a b, UInt8.xor_assoc]

/-- Multiplication by `x` is additive. -/
theorem xtime_xor (a b : UInt8) : xtime (a ^^^ b) = xtime a ^^^ xtime b := by
  unfold xtime
  rw [UInt8.shiftLeft_xor, UInt8.toBitVec_xor, BitVec.msb_xor]
  cases a.toBitVec.msb <;> cases b.toBitVec.msb <;>
    simp [UInt8.xor_assoc, UInt8.xor_comm, xor_left_comm]

theorem mixByte_xor (a b c d a' b' c' d' : UInt8) :
    Word.mixByte (a ^^^ a') (b ^^^ b') (c ^^^ c') (d ^^^ d') =
      Word.mixByte a b c d ^^^ Word.mixByte a' b' c' d' := by
  simp only [Word.mixByte, xtime_xor]
  ac_rfl

theorem invMixByte_xor (a b c d a' b' c' d' : UInt8) :
    Word.invMixByte (a ^^^ a') (b ^^^ b') (c ^^^ c') (d ^^^ d') =
      Word.invMixByte a b c d ^^^ Word.invMixByte a' b' c' d' := by
  simp only [Word.invMixByte, xtime_xor]
  ac_rfl

/-- One byte of a column, mixed and mixed back. -/
def mixedBack (a b c d : UInt8) : UInt8 :=
  Word.invMixByte (Word.mixByte a b c d) (Word.mixByte b c d a) (Word.mixByte c d a b)
    (Word.mixByte d a b c)

theorem mixedBack_xor (a b c d a' b' c' d' : UInt8) :
    mixedBack (a ^^^ a') (b ^^^ b') (c ^^^ c') (d ^^^ d') =
      mixedBack a b c d ^^^ mixedBack a' b' c' d' := by
  simp only [mixedBack, mixByte_xor, invMixByte_xor]

@[simp] theorem xtime_zero : xtime 0 = 0 := rfl

/-- In columns with one byte, what comes back is that byte in its place and nothing
elsewhere. -/
theorem mixedBack_single (x : UInt8) :
    mixedBack x 0 0 0 = x ∧ mixedBack 0 x 0 0 = 0 ∧ mixedBack 0 0 x 0 = 0 ∧
      mixedBack 0 0 0 x = 0 := by
  simp only [mixedBack, Word.mixByte, Word.invMixByte, xtime_zero, xtime_xor, UInt8.xor_zero,
    UInt8.zero_xor]
  generalize xtime (xtime (xtime (xtime x))) = x4
  generalize xtime (xtime (xtime x)) = x3
  generalize xtime (xtime x) = x2
  generalize xtime x = x1
  have cancel : ∀ a b : UInt8, a ^^^ (a ^^^ b) = b := fun a b => by
    rw [← UInt8.xor_assoc, UInt8.xor_self, UInt8.zero_xor]
  refine ⟨?_, ?_, ?_, ?_⟩ <;>
    simp only [UInt8.xor_comm, xor_left_comm, cancel, UInt8.xor_self, UInt8.xor_zero]

theorem mixedBack_eq (a b c d : UInt8) : mixedBack a b c d = a := by
  -- a column is the sum of its four columns with one byte
  have front := mixedBack_xor a 0 0 0 0 b 0 0
  have back := mixedBack_xor 0 0 c 0 0 0 0 d
  have both := mixedBack_xor a b 0 0 0 0 c d
  simp only [UInt8.xor_zero, UInt8.zero_xor, (mixedBack_single a).1,
    (mixedBack_single b).2.1] at front
  simp only [UInt8.xor_zero, UInt8.zero_xor, (mixedBack_single c).2.2.1,
    (mixedBack_single d).2.2.2] at back
  simp only [UInt8.xor_zero, UInt8.zero_xor, front, back] at both
  exact both

namespace Word

theorem invMix_mix (w : Word) : w.mix.invMix = w := by
  have back : w.mix.invMix = ⟨mixedBack w.b0 w.b1 w.b2 w.b3, mixedBack w.b1 w.b2 w.b3 w.b0,
      mixedBack w.b2 w.b3 w.b0 w.b1, mixedBack w.b3 w.b0 w.b1 w.b2⟩ := rfl
  rw [back]
  simp only [mixedBack_eq]

theorem xor_xor (v w : Word) : (v.xor w).xor w = v := by
  simp only [xor, UInt8.xor_assoc, UInt8.xor_self, UInt8.xor_zero]

theorem map_invSbox_sbox (w : Word) : (w.map sbox).map invSbox = w := by
  simp only [map, invSbox_sbox]

end Word

namespace Block

theorem xor_xor (s t : Block) : (s.xor t).xor t = s := by
  simp only [xor, Word.xor_xor]

theorem invShiftRows_shiftRows (s : Block) : s.shiftRows.invShiftRows = s := rfl

theorem invSubBytes_subBytes (s : Block) : s.subBytes.invSubBytes = s := by
  simp only [subBytes, invSubBytes, map, Word.map_invSbox_sbox]

theorem map_invMix_mix (s : Block) : (s.map Word.mix).map Word.invMix = s := by
  simp only [map, Word.invMix_mix]

@[simp] theorem ofBytes_bytes (s : Block) : ofBytes s.bytes = s := rfl

theorem bytes_ofBytes {xs : List UInt8} (h : xs.length = 16) : (ofBytes xs).bytes = xs := by
  match xs, h with
  | [_, _, _, _, _, _, _, _, _, _, _, _, _, _, _, _], _ => rfl

@[simp] theorem bytes_length (s : Block) : s.bytes.length = 16 := rfl

end Block

theorem decryptRounds_encryptRounds (keys : List Block) (s : Block) :
    decryptRounds keys (encryptRounds keys s) = s := by
  fun_induction encryptRounds keys s with
  | case1 s => rfl
  | case2 last s =>
      rw [decryptRounds, Block.xor_xor, Block.invShiftRows_shiftRows, Block.invSubBytes_subBytes]
  | case3 k k' keys s ih =>
      rw [decryptRounds, ih, Block.xor_xor, Block.map_invMix_mix, Block.invShiftRows_shiftRows,
        Block.invSubBytes_subBytes]

theorem decryptBlock_encryptBlock (key s : Block) : decryptBlock key (encryptBlock key s) = s := by
  rw [decryptBlock, encryptBlock, decryptRounds_encryptRounds, Block.xor_xor]

@[simp] theorem encrypt_length (key block : List UInt8) : (encrypt key block).length = 16 := rfl

@[simp] theorem decrypt_length (key block : List UInt8) : (decrypt key block).length = 16 := rfl

/-- Decryption undoes encryption, under any key. -/
theorem decrypt_encrypt (key : List UInt8) {block : List UInt8} (h : block.length = 16) :
    decrypt key (encrypt key block) = block := by
  rw [decrypt, encrypt, Block.ofBytes_bytes, decryptBlock_encryptBlock, Block.bytes_ofBytes h]

end FileVault.Lib.Aes
