import FileVault.Core.Error
import FileVault.Lib.Slice

/-!
# The third-party crates

The primitives the crate takes from elsewhere (`xts-mode` over `aes`, `pbkdf2`,
`aes-kw`, `sha2`, `base64`, `uuid`), as one parameter of the model. Encryption
and wrapping are there for the fixture builder, which writes the images that the
crate reads.
-/

namespace FileVault

/-- The primitives, as the crate calls them. Sector encryption and decryption
work in place, so they keep the length of their sector; the tweak is the 128-bit
unit index that `get_tweak_default` encodes. -/
structure Crates where
  decryptSector : (key1 key2 : ByteArr 16) → (tweak : Nat) → Bytes → Bytes
  encryptSector : (key1 key2 : ByteArr 16) → (tweak : Nat) → Bytes → Bytes
  pbkdf2 : (password : Bytes) → (salt : ByteArr 16) → (rounds : Nat) → ByteArr 16
  kwWrap : (kek key : ByteArr 16) → ByteArr 24
  kwUnwrap : (kek : ByteArr 16) → (wrapped : ByteArr 24) → Option (ByteArr 16)
  sha256 : Bytes → ByteArr 32
  base64Encode : Bytes → Bytes
  base64Decode : Bytes → Option Bytes
  uuidHyphenated : ByteArr 16 → String
  uuidParseStr : String → Option (ByteArr 16)
  decryptSector_length : ∀ key1 key2 tweak sector,
    (decryptSector key1 key2 tweak sector).length = sector.length
  encryptSector_length : ∀ key1 key2 tweak sector,
    (encryptSector key1 key2 tweak sector).length = sector.length

/-- Sectors of one length stay sectors of that length. -/
theorem Crates.decryptSector_keeps (crates : Crates) (key1 key2 : ByteArr 16) {unit : Nat}
    (tweak : Nat) (sector : Bytes) (h : sector.length = unit) :
    (crates.decryptSector key1 key2 tweak sector).length = unit :=
  (crates.decryptSector_length key1 key2 tweak sector).trans h

theorem Crates.encryptSector_keeps (crates : Crates) (key1 key2 : ByteArr 16) {unit : Nat}
    (tweak : Nat) (sector : Bytes) (h : sector.length = unit) :
    (crates.encryptSector key1 key2 tweak sector).length = unit :=
  (crates.encryptSector_length key1 key2 tweak sector).trans h

/-- An ASCII letter, digit, `+`, `/` or `=`: what the standard base64 alphabet
encodes to. -/
def isBase64Byte (b : UInt8) : Bool :=
  (65 ≤ b && b ≤ 90) || (97 ≤ b && b ≤ 122) || (48 ≤ b && b ≤ 57) ||
    b == 43 || b == 47 || b == 61

/-- A lower-case hexadecimal digit or the `-` between the groups of a UUID. -/
def isUuidChar (c : Char) : Bool :=
  ('0' ≤ c && c ≤ '9') || ('a' ≤ c && c ≤ 'f') || c == '-'

/-- What the crates document about undoing one another: XTS decryption inverts
encryption of a sector of whole cipher blocks, unwrapping with the wrapping
key gives the key back, `decode` inverts `encode`, and a formatted UUID parses to
itself. -/
structure Crates.Lawful (crates : Crates) : Prop where
  decrypt_encrypt : ∀ key1 key2 tweak sector, 16 ∣ sector.length →
    crates.decryptSector key1 key2 tweak (crates.encryptSector key1 key2 tweak sector) = sector
  unwrap_wrap : ∀ kek key, crates.kwUnwrap kek (crates.kwWrap kek key) = some key
  decode_encode : ∀ blob, crates.base64Decode (crates.base64Encode blob) = some blob
  encode_alphabet : ∀ blob, ∀ b ∈ crates.base64Encode blob, isBase64Byte b = true
  encode_length : ∀ blob,
    (crates.base64Encode blob).length = 4 * ((blob.length + 2) / 3)
  parse_hyphenated : ∀ uuid, crates.uuidParseStr (crates.uuidHyphenated uuid) = some uuid
  hyphenated_chars : ∀ uuid, ∀ c ∈ (crates.uuidHyphenated uuid).toList, isUuidChar c = true

/-- The two directions of `xts-mode` on a sector of a cipher block or more, ciphertext
stealing included: each undoes the other. -/
structure Crates.Invertible (crates : Crates) : Prop where
  decrypt_encrypt : ∀ key1 key2 tweak sector, 16 ≤ sector.length →
    crates.decryptSector key1 key2 tweak (crates.encryptSector key1 key2 tweak sector) = sector
  encrypt_decrypt : ∀ key1 key2 tweak sector, 16 ≤ sector.length →
    crates.encryptSector key1 key2 tweak (crates.decryptSector key1 key2 tweak sector) = sector

/-- XTS works block by block: a block of the plaintext of a sector of whole cipher blocks is
decided by the block of ciphertext at its place, and decides it. -/
structure Crates.BlockWise (crates : Crates) : Prop where
  decrypt_block : ∀ key1 key2 tweak (sector sector' : Bytes) j, sector'.length = sector.length →
    16 ∣ sector.length → j < sector.length / 16 →
    (Lib.slice (crates.decryptSector key1 key2 tweak sector') (j * 16) 16 =
        Lib.slice (crates.decryptSector key1 key2 tweak sector) (j * 16) 16 ↔
      Lib.slice sector' (j * 16) 16 = Lib.slice sector (j * 16) 16)

end FileVault
