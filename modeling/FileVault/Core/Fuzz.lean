import FileVault.Core.FileVaultVolume

/-!
# The fuzz target (`fuzz_targets/fuzz_metadata.rs`)

One input goes through the whole password-free parse, and then through each of its stages by
itself: as a header, as the pointer block and the region that the header speaks of, as decrypted
metadata. What the stages return is dropped; the target is there to find panics.
-/

namespace FileVault

/-- `let _ = call;` -/
def dropped {α : Type} (call : Run α) : Run Unit :=
  match call with
  | .ok _ => .ok ()
  | .error (.error _) => .ok ()
  | .error .panic => panicked

/-- The stages behind the header: the same bytes as the first block and as the region. -/
def fuzzHeader (data : Bytes) : Run Unit :=
  match VolumeHeader.parse data with
  | .ok header => do
      dropped (plaintextMetadataSize header data)
      dropped (locateEncryptedMetadata header data)
  | .error (.error _) => .ok ()
  | .error .panic => panicked

/-- The target. -/
def fuzzMetadata (crates : Crates) (data : Bytes) : Run Unit := do
  dropped (parseInfo crates (.cursor data))
  fuzzHeader data
  dropped (parseSegments data 4096)
  dropped (parseSegments data 0)
  dropped (EncryptionContext.extract crates data)
  dropped (LogicalVolumeInfo.extract data)

end FileVault
