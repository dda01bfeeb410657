import FileVault.Core.Unlock
import FileVault.Logic.Primitives

/-!
# Which wrapped keys a password opens

Key unwrapping undoes key wrapping, and what passes its integrity check was wrapped: AES is a
permutation of its blocks, so unwrapping can be walked back step by step. So a password opens
exactly the keys that were wrapped, under keys that were, with the key derived from it.
-/

namespace FileVault

open Lib

theorem aes_encrypt_decrypt (key : Bytes) {block : Bytes} (hblock : block.length = 16) :
    Aes.encrypt key (Aes.decrypt key block) = block := by
  have undo : ∀ block : Bytes, block.length = 16 →
      Aes.decrypt key (Aes.encrypt key block) = block := fun _ => Aes.decrypt_encrypt key
  exact redo_of_undo (fun block _ => Aes.encrypt_length key block) undo hblock

/-- A wrapped key opens to what was wrapped, and to nothing else. -/
theorem kwUnwrap_iff (kek key : ByteArr 16) (wrapped : ByteArr 24) :
    standardCrates.kwUnwrap kek wrapped = some key ↔ wrapped = standardCrates.kwWrap kek key := by
  constructor
  · intro h
    obtain ⟨bytes, hbytes, hkey⟩ := Option.bind_eq_some_iff.mp h
    have val : bytes = key.val := by
      unfold ByteArr.ofBytes? at hkey
      split at hkey
      · exact congrArg Subtype.val (Option.some.inj hkey)
      · cases hkey
    rw [val] at hbytes
    exact Subtype.ext (wrapKey_of_unwrapKey (Aes.decrypt_length kek.val)
      (fun _ => aes_encrypt_decrypt kek.val) wrapped.property hbytes).symm
  · rintro rfl
    exact standardCrates_lawful.unwrap_wrap kek key

/-- One key wraps two keys differently. -/
theorem kwWrap_inj {kek key key' : ByteArr 16}
    (h : standardCrates.kwWrap kek key = standardCrates.kwWrap kek key') : key = key' := by
  have unwrapped := standardCrates_lawful.unwrap_wrap kek key
  rw [h, standardCrates_lawful.unwrap_wrap kek key'] at unwrapped
  exact (Option.some.inj unwrapped).symm

/-- `aes_kw_unwrap` returns what was wrapped, and fails on whatever was not wrapped with this
key. -/
theorem aesKwUnwrap_cases (kek : ByteArr 16) (wrapped : ByteArr 24) (what : String) :
    (∃ key, wrapped = standardCrates.kwWrap kek key ∧
      aesKwUnwrap standardCrates kek wrapped what = .ok key) ∨
    ((∀ key, wrapped ≠ standardCrates.kwWrap kek key) ∧
      aesKwUnwrap standardCrates kek wrapped what = fail (.keyUnwrap what)) := by
  unfold aesKwUnwrap
  cases hunwrap : standardCrates.kwUnwrap kek wrapped with
  | some key => exact .inl ⟨key, (kwUnwrap_iff kek key wrapped).mp hunwrap, rfl⟩
  | none =>
      refine .inr ⟨?_, rfl⟩
      intro key hwrapped
      rw [(kwUnwrap_iff kek key wrapped).mpr hwrapped] at hunwrap
      cases hunwrap

/-- Key derivation returns the keys that were wrapped one under the other, with the tweak key of
the family; it fails at the first of the two that was not wrapped so. -/
theorem deriveVolumeKeys_wrapped (password : String) (context : EncryptionContext)
    (familyUuid : ByteArr 16) :
    let wrap := standardCrates.kwWrap
    let pk := passphraseKey standardCrates password context.salt context.iterations
    let derived := deriveVolumeKeys standardCrates password context familyUuid
    (∀ keys, derived = .ok keys ↔ ∃ kek, context.wrappedKek = wrap pk kek ∧
      context.wrappedVmk = wrap kek keys.vmk ∧
      keys.tweakKey = tweakKeyOf standardCrates keys.vmk familyUuid) ∧
    (derived = fail (.keyUnwrap "KEK") ↔ ∀ kek, context.wrappedKek ≠ wrap pk kek) ∧
    (derived = fail (.keyUnwrap "VMK") ↔ ∃ kek, context.wrappedKek = wrap pk kek ∧
      ∀ vmk, context.wrappedVmk ≠ wrap kek vmk) := by
  dsimp only
  unfold deriveVolumeKeys
  generalize passphraseKey standardCrates password context.salt context.iterations = pk
  dsimp only
  rcases aesKwUnwrap_cases pk context.wrappedKek "KEK" with ⟨kek, hkek, hunwrap⟩ | ⟨hkek, hunwrap⟩
  swap
  · rw [hunwrap, fail_bind]
    refine ⟨?_, ⟨fun _ => hkek, fun _ => rfl⟩, ?_⟩
    · intro keys
      constructor
      · intro h
        cases h
      · rintro ⟨kek, h, -⟩
        exact absurd h (hkek kek)
    · constructor
      · intro h
        simp [fail] at h
      · rintro ⟨kek, h, -⟩
        exact absurd h (hkek kek)
  -- no other key can have been wrapped there
  have only : ∀ kek', context.wrappedKek = standardCrates.kwWrap pk kek' → kek' = kek :=
    fun kek' h => kwWrap_inj (h.symm.trans hkek)
  rw [hunwrap, ok_bind]
  rcases aesKwUnwrap_cases kek context.wrappedVmk "VMK" with ⟨vmk, hvmk, hopen⟩ | ⟨hvmk, hopen⟩
  · rw [hopen, ok_bind]
    refine ⟨?_, ?_, ?_⟩
    · intro keys
      constructor
      · intro h
        obtain rfl := Except.ok.inj h
        exact ⟨kek, hkek, hvmk, rfl⟩
      · obtain ⟨vmk', tweakKey⟩ := keys
        rintro ⟨kek', h, h', htweak⟩
        obtain rfl := only kek' h
        obtain rfl : vmk = vmk' := kwWrap_inj (hvmk.symm.trans h')
        rw [show tweakKey = tweakKeyOf standardCrates vmk familyUuid from htweak]
        rfl
    · constructor
      · intro h
        cases h
      · intro h
        exact absurd hkek (h kek)
    · constructor
      · intro h
        cases h
      · rintro ⟨kek', h, h'⟩
        obtain rfl := only kek' h
        exact absurd hvmk (h' vmk)
  · rw [hopen, fail_bind]
    refine ⟨?_, ?_, ⟨fun _ => ⟨kek, hkek, hvmk⟩, fun _ => rfl⟩⟩
    · intro keys
      constructor
      · intro h
        cases h
      · rintro ⟨kek', h, h', -⟩
        obtain rfl := only kek' h
        exact absurd h' (hvmk keys.vmk)
    · constructor
      · intro h
        simp [fail] at h
      · intro h
        exact absurd hkek (h kek)

/-- The passphrase key is the first half of a PBKDF2 block, of one round at least. -/
theorem passphraseKey_val (password : String) (salt : ByteArr 16) (iterations : UInt32) :
    (passphraseKey standardCrates password salt iterations).val =
      (Sha256.pbkdf2 (asBytes password) salt.val (max iterations.toNat 1)).take 16 := rfl

/-- The tweak key is the first half of the digest of master key and family. -/
theorem eq_tweakKeyOf_iff (tweakKey vmk familyUuid : ByteArr 16) :
    tweakKey = tweakKeyOf standardCrates vmk familyUuid ↔
      tweakKey.val = (Sha256.sha256 (vmk.val ++ familyUuid.val)).take 16 :=
  Subtype.ext_iff

theorem eq_kwWrap_iff (wrapped : ByteArr 24) (kek key : ByteArr 16) :
    wrapped = standardCrates.kwWrap kek key ↔
      wrapped.val = wrapKey (Aes.encrypt kek.val) key.val :=
  Subtype.ext_iff

/-- The key hierarchy on bytes: PBKDF2 over SHA-256 stretches the password, RFC 3394 over AES-128
wraps the KEK under what comes of it and the master key under the KEK, and the tweak key is half a
SHA-256 digest of master key and family. Key derivation returns the keys that belong together so,
and fails at the first of the two that was not wrapped so. -/
theorem deriveVolumeKeys_exact (password : String) (context : EncryptionContext)
    (familyUuid : ByteArr 16) :
    let rounds := max context.iterations.toNat 1
    let stretched := (Sha256.pbkdf2 (asBytes password) context.salt.val rounds).take 16
    let wrap (kek key : Bytes) : Bytes := wrapKey (Aes.encrypt kek) key
    let derived := deriveVolumeKeys standardCrates password context familyUuid
    (∀ keys, derived = .ok keys ↔ ∃ kek : ByteArr 16,
      context.wrappedKek.val = wrap stretched kek.val ∧
      context.wrappedVmk.val = wrap kek.val keys.vmk.val ∧
      keys.tweakKey.val = (Sha256.sha256 (keys.vmk.val ++ familyUuid.val)).take 16) ∧
    (derived = fail (.keyUnwrap "KEK") ↔
      ∀ kek : ByteArr 16, context.wrappedKek.val ≠ wrap stretched kek.val) ∧
    (derived = fail (.keyUnwrap "VMK") ↔ ∃ kek : ByteArr 16,
      context.wrappedKek.val = wrap stretched kek.val ∧
      ∀ vmk : ByteArr 16, context.wrappedVmk.val ≠ wrap kek.val vmk.val) := by
  dsimp only
  have exact := deriveVolumeKeys_wrapped password context familyUuid
  dsimp only at exact
  simp only [ne_eq, eq_kwWrap_iff, eq_tweakKeyOf_iff, passphraseKey_val] at exact
  exact exact

end FileVault
