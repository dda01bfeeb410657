import FileVault.Core.Read

/-!
# The physical volume header (`volume_header.rs`)
-/

namespace FileVault

open Lib

/-- The `"CS"` signature read little-endian at offset 88. -/
def csSignatureLe : UInt16 := 0x5343

/-- Encryption method code for AES-XTS-128. -/
def encryptionMethodAesXts128 : UInt32 := 2

/-- The parsed physical volume header. -/
structure VolumeHeader where
  blockSize : UInt32
  bytesPerSector : UInt32
  physicalVolumeSize : UInt64
  metadataBlockNumbers : List.Vector UInt64 4
  keyData : ByteArr 16
  physicalVolumeIdentifier : ByteArr 16
  deriving DecidableEq

namespace VolumeHeader

/-- `VolumeHeader::parse`. -/
def parse (data : Bytes) : Run VolumeHeader := do
  let signature ← leU16 data 88
  if signature ≠ csSignatureLe then
    fail (.notCoreStorage signature)
  else
    let encryptionMethod ← leU32 data 172
    if encryptionMethod ≠ encryptionMethodAesXts128 then
      fail (.unsupportedEncryptionMethod encryptionMethod)
    else
      let block0 ← leU64 data (104 + 0 * 8)
      let block1 ← leU64 data (104 + 1 * 8)
      let block2 ← leU64 data (104 + 2 * 8)
      let block3 ← leU64 data (104 + 3 * 8)
      let blockSize ← leU32 data 96
      let bytesPerSector ← leU32 data 48
      let physicalVolumeSize ← leU64 data 64
      let keyData ← bytes16 data 176
      let physicalVolumeIdentifier ← bytes16 data 304
      return {
        blockSize, bytesPerSector, physicalVolumeSize
        metadataBlockNumbers := ⟨[block0, block1, block2, block3], rfl⟩
        keyData, physicalVolumeIdentifier }

/-- The header whose fields are the bytes of `data`, whatever its signature. -/
def ofFields (data : Bytes) : VolumeHeader where
  blockSize := UInt32.ofNat (fieldAt 4 data 96)
  bytesPerSector := UInt32.ofNat (fieldAt 4 data 48)
  physicalVolumeSize := UInt64.ofNat (fieldAt 8 data 64)
  metadataBlockNumbers := ⟨[UInt64.ofNat (fieldAt 8 data 104), UInt64.ofNat (fieldAt 8 data 112),
    UInt64.ofNat (fieldAt 8 data 120), UInt64.ofNat (fieldAt 8 data 128)], rfl⟩
  keyData := bytesAt data 176
  physicalVolumeIdentifier := bytesAt data 304

/-- The parser checks the signature, then the method, and then reads the fields;
it never panics. -/
theorem parse_eq (data : Bytes) :
    parse data =
      if UInt16.ofNat (fieldAt 2 data 88) ≠ csSignatureLe then
        fail (.notCoreStorage (UInt16.ofNat (fieldAt 2 data 88)))
      else if UInt32.ofNat (fieldAt 4 data 172) ≠ encryptionMethodAesXts128 then
        fail (.unsupportedEncryptionMethod (UInt32.ofNat (fieldAt 4 data 172)))
      else .ok (ofFields data) := by
  have size := usizeSize_eq
  unfold parse
  rw [leU16_eq data (by omega), leU32_eq data (by omega), leU64_eq data (by omega),
    leU64_eq data (by omega), leU64_eq data (by omega), leU64_eq data (by omega),
    leU32_eq data (by omega), leU32_eq data (by omega), leU64_eq data (by omega),
    bytes16_eq data (by omega), bytes16_eq data (by omega)]
  simp only [ok_bind, pure_run, ofFields]

end VolumeHeader

end FileVault
