import FileVault.Core.VolumeHeader
import FileVault.Core.Xts

/-!
# The encrypted metadata region (`metadata.rs`)

Locating the region: the header names the block of the plaintext metadata, whose
first block (type `0x0011`) carries the region size and the offset of the
volume-groups descriptor, which in turn carries the count and the first block of
the encrypted metadata. Decrypting it, and decoding the segment map (block type
`0x0305`) from the result.
-/

namespace FileVault

open Lib

def blockTypeEncryptedMetadataPointer : UInt16 := 0x0011
def metadataUnitSize : Nat := 8192
def blockHeaderSize : Nat := 64
def blockHeaderTypeOffset : Nat := 10
def payloadMetadataSizeOffset : Nat := 0
def payloadVgDescriptorOffset : Nat := 156
def vgCountOffset : Nat := 8
def vgPrimaryBlockOffset : Nat := 32
def blockNumberMask : UInt64 := 0x0000ffffffffffff
def maxMetadataBlocks : Nat := 1 <<< 20
def maxEncryptedMetadataBlocks : Nat := 1 <<< 20

/-- The located encrypted-metadata region. -/
structure EncryptedMetadataLocation where
  primaryOffset : Nat
  blockCount : Nat
  length : Nat
  deriving DecidableEq, Repr

/-- `plaintext_metadata_region`: the product saturates. -/
def plaintextMetadataRegion (header : VolumeHeader) : Nat × Nat :=
  let block := (header.metadataBlockNumbers.toList.head?.getD 0).toNat
  (saturatingMul block header.blockSize.toNat, 0)

/-- `plaintext_metadata_size`. -/
def plaintextMetadataSize (header : VolumeHeader) (firstBlock : Bytes) : Run Nat := do
  let blockType ← leU16 firstBlock blockHeaderTypeOffset
  if blockType ≠ blockTypeEncryptedMetadataPointer then
    fail (.metadataStructureMissing "0x0011 encrypted-metadata pointer block")
  else
    let size ← leU32 firstBlock (blockHeaderSize + payloadMetadataSizeOffset)
    let size := size.toNat
    let blockSize := header.blockSize.toNat
    if blockSize = 0 then
      fail (.outOfRange "block size is zero")
    -- the cap counts blocks, whatever their size
    else if size = 0 ∨ maxMetadataBlocks < size / blockSize then
      fail (.outOfRange "plaintext metadata region size")
    else
      return size

/-- `locate_encrypted_metadata`. -/
def locateEncryptedMetadata (header : VolumeHeader) (region : Bytes) :
    Run EncryptedMetadataLocation := do
  let blockType ← leU16 region blockHeaderTypeOffset
  if blockType ≠ blockTypeEncryptedMetadataPointer then
    fail (.metadataStructureMissing "0x0011 encrypted-metadata pointer block")
  else
    let descriptorOffset ← leU32 region (blockHeaderSize + payloadVgDescriptorOffset)
    let descriptorOffset := descriptorOffset.toNat
    -- the descriptor must sit within the region with room for its fields
    if (checkedAdd descriptorOffset (vgPrimaryBlockOffset + 8)).all (region.length < ·) then
      fail (.metadataStructureMissing "volume-groups descriptor (offset out of region)")
    else
      let blockCount ← leU64 region (descriptorOffset + vgCountOffset)
      let primaryBlock ← leU64 region (descriptorOffset + vgPrimaryBlockOffset)
      let blockCount := blockCount.toNat
      let primaryBlock := (primaryBlock &&& blockNumberMask).toNat
      if blockCount = 0 ∨ maxEncryptedMetadataBlocks < blockCount then
        fail (.outOfRange "encrypted-metadata block count")
      else
        let blockSize := header.blockSize.toNat
        let primaryOffset ← okOr (checkedMul primaryBlock blockSize)
          (.outOfRange "encrypted-metadata primary offset")
        let length ← okOr (checkedMul blockCount blockSize)
          (.outOfRange "encrypted-metadata length")
        return { primaryOffset, blockCount, length }

/-- `decrypt_metadata`: 8192-byte units, tweak = unit index from 0. -/
def decryptMetadata (crates : Crates) (header : VolumeHeader) (ciphertext : Bytes) : Run Bytes :=
  decryptUnits crates ciphertext header.keyData header.physicalVolumeIdentifier
    metadataUnitSize 0

/-! ## The segment map -/

def blockTypeSegmentDescriptor : UInt16 := 0x0305
def segFirstEntryPayloadOffset : Nat := 8
def segEntryStride : Nat := 40
def segLogicalBlockOffset : Nat := 8
def segNumBlocksOffset : Nat := 16
def segPhysicalBlockOffset : Nat := 32
def maxSegments : UInt32 := 65536

/-- One logical→physical segment mapping decoded from a `0x0305` block. -/
structure SegmentEntry where
  logicalBlock : UInt64
  physicalBlock : UInt64
  numberOfBlocks : UInt32
  deriving DecidableEq, Repr

/-- The loop of `find_block_of_type`, for a non-zero block size. -/
def findBlockFrom (metadata : Bytes) (blockSize : Nat) (blockType : UInt16) (offset : Nat) :
    Run (Option Nat) :=
  match uadd offset blockSize with
  | .error stop => .error stop
  | .ok _ =>
      if _h : 0 < blockSize ∧ offset + blockSize ≤ metadata.length then do
        let found ← leU16 metadata (offset + blockHeaderTypeOffset)
        if found = blockType then return some offset
        else findBlockFrom metadata blockSize blockType (offset + blockSize)
      else .ok none
termination_by metadata.length - offset

/-- `find_block_of_type`. -/
def findBlockOfType (metadata : Bytes) (blockSize : Nat) (blockType : UInt16) :
    Run (Option Nat) :=
  if blockSize = 0 then .ok none
  else findBlockFrom metadata blockSize blockType 0

/-- The entry loop of `parse_segments`: iteration `i` and the `remaining - 1`
after it. It stops where an entry would run past the end of the block. -/
def readSegments (metadata : Bytes) (blockSize blockOffset payload : Nat) :
    (remaining : Nat) → (i : Nat) → Run (List SegmentEntry)
  | 0, _ => .ok []
  | remaining + 1, i => do
      let first ← uadd payload segFirstEntryPayloadOffset
      let step ← umul i segEntryStride
      let entry ← uadd first step
      let entryEnd ← uadd entry segEntryStride
      let blockEnd ← uadd blockOffset blockSize
      if blockEnd < entryEnd then
        return []
      else
        let physical ← leU64 metadata (entry + segPhysicalBlockOffset)
        let logicalBlock ← leU64 metadata (entry + segLogicalBlockOffset)
        let numberOfBlocks ← leU32 metadata (entry + segNumBlocksOffset)
        let rest ← readSegments metadata blockSize blockOffset payload remaining (i + 1)
        return { logicalBlock, physicalBlock := physical &&& blockNumberMask,
                 numberOfBlocks } :: rest

/-- `parse_segments`. -/
def parseSegments (metadata : Bytes) (blockSize : Nat) : Run (List SegmentEntry) := do
  match ← findBlockOfType metadata blockSize blockTypeSegmentDescriptor with
  | none => return []
  | some blockOffset =>
      let payload ← uadd blockOffset blockHeaderSize
      let declared ← leU32 metadata payload
      let count := min declared maxSegments
      readSegments metadata blockSize blockOffset payload count.toNat 0

end FileVault
