import FileVault.Core.Crates
import FileVault.Lib.Base64
import FileVault.Lib.Crypto.Aes
import FileVault.Lib.Crypto.Sha256
import FileVault.Lib.Uuid

/-!
# The primitives themselves

The parameter of the model, filled in: AES-128 in XTS and key-wrap mode, PBKDF2 over
HMAC-SHA-256, standard base64, UUIDs. They keep what the third-party crates document,
so the results of the development hold of them.
-/

namespace FileVault

open Lib

/-- An array of this length, if that is what the bytes are. -/
def ByteArr.ofBytes? (n : Nat) (bytes : Bytes) : Option (ByteArr n) :=
  if h : bytes.length = n then some ⟨bytes, h⟩ else none

theorem ByteArr.ofBytes?_val {n : Nat} (arr : ByteArr n) : ByteArr.ofBytes? n arr.val = some arr :=
  dif_pos arr.property

/-- The primitives of `xts-mode`, `aes`, `pbkdf2`, `aes-kw`, `sha2`, `base64` and
`uuid`. -/
def standardCrates : Crates where
  decryptSector key1 key2 tweak sector :=
    xtsSector (Aes.decrypt key1.val) true (Aes.encrypt key2.val (leBytes 16 tweak)) sector
  encryptSector key1 key2 tweak sector :=
    xtsSector (Aes.encrypt key1.val) false (Aes.encrypt key2.val (leBytes 16 tweak)) sector
  pbkdf2 password salt rounds :=
    ⟨(Sha256.pbkdf2 password salt.val rounds).take 16, by simp⟩
  kwWrap kek key :=
    ⟨wrapKey (Aes.encrypt kek.val) key.val, wrapKey_length (Aes.encrypt_length _) key.property⟩
  kwUnwrap kek wrapped := (unwrapKey (Aes.decrypt kek.val) wrapped.val).bind (ByteArr.ofBytes? 16)
  sha256 message := ⟨Sha256.sha256 message, Sha256.sha256_length message⟩
  base64Encode := Base64.encode
  base64Decode := Base64.decode
  uuidHyphenated uuid := .ofList (Uuid.hyphenated uuid.val)
  uuidParseStr text := (Uuid.parse text.toList).bind (ByteArr.ofBytes? 16)
  decryptSector_length _ _ _ _ := xtsSector_length (Aes.decrypt_length _) _ _ _
  encryptSector_length _ _ _ _ := xtsSector_length (Aes.encrypt_length _) _ _ _

theorem isBase64Byte_digit : ∀ n < 64, isBase64Byte (Base64.digit n) = true := by
  decide

theorem isUuidChar_hexDigit : ∀ d < 16, isUuidChar (hexDigit d) = true := by
  decide

theorem standardCrates_lawful : standardCrates.Lawful where
  decrypt_encrypt key1 _ _ sector _ :=
    xtsSector_undo (Aes.encrypt_length _) (fun _ => Aes.decrypt_encrypt key1.val) _ sector
  unwrap_wrap kek key := by
    simp only [standardCrates, unwrapKey_wrapKey (Aes.encrypt_length _)
      (fun _ => Aes.decrypt_encrypt kek.val) key.property, Option.bind_some, ByteArr.ofBytes?_val]
  decode_encode := Base64.decode_encode
  encode_alphabet blob b hb := by
    rcases Base64.mem_encode hb with ⟨n, hn, rfl⟩ | rfl
    · exact isBase64Byte_digit n hn
    · decide
  encode_length := Base64.encode_length
  parse_hyphenated uuid := by
    simp only [standardCrates, String.toList_ofList, Uuid.parse_hyphenated uuid.property,
      Option.bind_some, ByteArr.ofBytes?_val]
  hyphenated_chars uuid c hc := by
    simp only [standardCrates, String.toList_ofList] at hc
    rcases Uuid.mem_hyphenated hc with rfl | ⟨d, hd, rfl⟩
    · decide
    · exact isUuidChar_hexDigit d hd

theorem standardCrates_invertible : standardCrates.Invertible where
  decrypt_encrypt key1 key2 tweak sector _ :=
    xtsSector_undo (Aes.encrypt_length _) (fun _ => Aes.decrypt_encrypt key1.val) _ sector
  encrypt_decrypt key1 key2 tweak sector _ :=
    redo_of_undo
      (fun block hblock => (standardCrates.encryptSector_length _ _ _ block).trans hblock)
      (fun block _ =>
        xtsSector_undo (Aes.encrypt_length _) (fun _ => Aes.decrypt_encrypt key1.val) _ block) rfl

/-- A cipher block of an encrypted sector. -/
theorem standardCrates_encryptSector_block (key1 key2 : ByteArr 16) (tweak : Nat) {sector : Bytes}
    {j : Nat} (hwhole : sector.length % 16 = 0) (hj : j < sector.length / 16) :
    slice (standardCrates.encryptSector key1 key2 tweak sector) (j * 16) 16 =
      xtsBlock (Aes.encrypt key1.val) (blockTweak (Aes.encrypt key2.val (leBytes 16 tweak)) j)
        (slice sector (j * 16) 16) :=
  xtsSector_slice (Aes.encrypt_length key1.val) false _ hwhole hj

/-- A cipher block of a decrypted sector. -/
theorem standardCrates_decryptSector_block (key1 key2 : ByteArr 16) (tweak : Nat) {sector : Bytes}
    {j : Nat} (hwhole : sector.length % 16 = 0) (hj : j < sector.length / 16) :
    slice (standardCrates.decryptSector key1 key2 tweak sector) (j * 16) 16 =
      xtsBlock (Aes.decrypt key1.val) (blockTweak (Aes.encrypt key2.val (leBytes 16 tweak)) j)
        (slice sector (j * 16) 16) :=
  xtsSector_slice (Aes.decrypt_length key1.val) true _ hwhole hj

theorem standardCrates_blockWise : standardCrates.BlockWise where
  decrypt_block key1 key2 tweak sector sector' j hlen hwhole hj := by
    have block : ∀ xs : Bytes, xs.length = sector.length → (slice xs (j * 16) 16).length = 16 := by
      intro xs hxs
      apply slice_length_of_le
      omega
    have redo : ∀ block : Bytes, block.length = 16 →
        Aes.encrypt key1.val (Aes.decrypt key1.val block) = block := by
      intro block hblock
      exact redo_of_undo (fun block _ => Aes.encrypt_length key1.val block)
        (fun block hblock => Aes.decrypt_encrypt key1.val hblock) hblock
    rw [standardCrates_decryptSector_block _ _ _ (by omega) (by omega),
      standardCrates_decryptSector_block _ _ _ (by omega) hj]
    exact xtsBlock_inj (Aes.decrypt_length _) redo (blockTweak_length _ _) (block _ hlen)
      (block _ rfl)

end FileVault
