import FileVault.Core.Context

/-!
# The key hierarchy (`unlock.rs`)

Passphrase key by PBKDF2, KEK and volume master key by AES key unwrap, tweak key
by SHA-256 over the master key and the family UUID.
-/

namespace FileVault

/-- The volume master key and its XTS tweak key. -/
structure VolumeKeys where
  vmk : ByteArr 16
  tweakKey : ByteArr 16
  deriving DecidableEq

/-- `passphrase_key`: at least one round always runs. -/
def passphraseKey (crates : Crates) (password : String) (salt : ByteArr 16)
    (iterations : UInt32) : ByteArr 16 :=
  crates.pbkdf2 (asBytes password) salt (max iterations.toNat 1)

/-- `aes_kw_unwrap`. -/
def aesKwUnwrap (crates : Crates) (kek : ByteArr 16) (wrapped : ByteArr 24) (what : String) :
    Run (ByteArr 16) :=
  okOr (crates.kwUnwrap kek wrapped) (.keyUnwrap what)

/-- The first 16 bytes of `SHA256(vmk || family_uuid)`. -/
def tweakKeyOf (crates : Crates) (vmk familyUuid : ByteArr 16) : ByteArr 16 :=
  let digest := crates.sha256 (vmk.val ++ familyUuid.val)
  ⟨digest.val.take 16, by simp [digest.property]⟩

/-- `derive_volume_keys`. -/
def deriveVolumeKeys (crates : Crates) (password : String) (context : EncryptionContext)
    (familyUuid : ByteArr 16) : Run VolumeKeys := do
  let pk := passphraseKey crates password context.salt context.iterations
  let kek ← aesKwUnwrap crates pk context.wrappedKek "KEK"
  let vmk ← aesKwUnwrap crates kek context.wrappedVmk "VMK"
  return { vmk, tweakKey := tweakKeyOf crates vmk familyUuid }

/-- Key derivation fails in one way only. -/
theorem deriveVolumeKeys_error {crates : Crates} {password : String}
    {context : EncryptionContext} {familyUuid : ByteArr 16} {stop : Stop}
    (h : deriveVolumeKeys crates password context familyUuid = .error stop) :
    ∃ what, stop = .error (.keyUnwrap what) := by
  unfold deriveVolumeKeys aesKwUnwrap at h
  cases hkek : crates.kwUnwrap (passphraseKey crates password context.salt context.iterations)
      context.wrappedKek with
  | none => exact ⟨"KEK", by simpa [hkek, fail] using h.symm⟩
  | some kek =>
      cases hvmk : crates.kwUnwrap kek context.wrappedVmk with
      | none => exact ⟨"VMK", by simpa [hkek, hvmk, fail] using h.symm⟩
      | some vmk => simp [hkek, hvmk] at h

end FileVault
