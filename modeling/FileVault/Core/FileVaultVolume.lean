import FileVault.Core.Metadata
import FileVault.Core.Volume

/-!
# Opening a volume (`lib.rs`)

`unlock_with_password` and `parse_info` are two pipelines over the same steps:
the first goes on to derive the keys, the second stops at what can be said
without them.
-/

namespace FileVault

open Lib

/-- Physical volume header length. -/
def volumeHeaderLen : Nat := 512

/-- `FileVaultInfo`: the password-independent metadata. -/
structure FileVaultInfo where
  physicalVolumeIdentifier : String
  pbkdf2Iterations : UInt32
  pbkdf2Salt : ByteArr 16
  familyUuid : String
  lvIdentifier : Option String
  lvName : Option String
  lvSize : UInt64
  encryptionMethod : String
  conversionStatus : Option String
  protectors : List Protector
  deriving DecidableEq

/-- `FileVaultVolume`. -/
structure FileVaultVolume where
  decrypted : DecryptedVolume
  info : FileVaultInfo
  deriving DecidableEq

/-- `Read::read_exact`: `Interrupted` is retried, and an end of the data before the
buffer is full is an error. -/
def Reader.readExact (reader : Reader) (buf : Bytes) (filled : Nat) :
    Except IoError Unit × Bytes × Reader :=
  if _hroom : filled < buf.length then
    match _hread : reader.read (buf.length - filled) with
    | (.bytes bs, reader') =>
        if _hne : bs = [] then (.error .unexpectedEof, buf, reader')
        else reader'.readExact (splice buf filled bs) (filled + bs.length)
    | (.interrupted, reader') => reader'.readExact buf filled
    | (.failed e, reader') => (.error e, buf, reader')
  else (.ok (), buf, reader)
termination_by reader.reads.length + (buf.length - filled)
decreasing_by
  · have := Reader.read_bytes_lt _hread _hne
    have := Reader.read_length_le _hread
    rw [splice_length (by omega)]
    omega
  · have := Reader.read_interrupted_lt _hread
    omega

/-- `reader.seek(SeekFrom::Start(offset))?`. -/
def seekStart (reader : Reader) (offset : Nat) : Run Reader :=
  match reader.seek offset with
  | (.error e, _) => fail (.io e)
  | (.ok _, reader') => .ok reader'

/-- `read_exact_or_err`: the buffer read, and the reader after it. -/
def readExactOrErr (reader : Reader) (buf : Bytes) : Run (Bytes × Reader) :=
  match reader.readExact buf 0 with
  | (.error e, _, _) => fail (.io e)
  | (.ok _, buf', reader') => .ok (buf', reader')

/-- `decrypt_metadata_region`. -/
def decryptMetadataRegion (crates : Crates) (reader : Reader) (header : VolumeHeader) :
    Run (Bytes × Reader) := do
  let (regionOffset, _) := plaintextMetadataRegion header
  -- the first plaintext block tells the region size
  let blockSize := header.blockSize.toNat
  if blockSize = 0 then
    fail (.outOfRange "block size is zero")
  else
    let firstBlock ← vecZeroed blockSize
    let reader ← seekStart reader regionOffset
    let (firstBlock, reader) ← readExactOrErr reader firstBlock
    let regionSize ← plaintextMetadataSize header firstBlock
    let region ← vecZeroed regionSize
    let reader ← seekStart reader regionOffset
    let (region, reader) ← readExactOrErr reader region
    let location ← locateEncryptedMetadata header region
    let ciphertext ← vecZeroed location.length
    let reader ← seekStart reader location.primaryOffset
    let (ciphertext, reader) ← readExactOrErr reader ciphertext
    let plaintext ← decryptMetadata crates header ciphertext
    return (plaintext, reader)

/-- `resolve_lv_extent`: physical base and size of the LV. -/
def resolveLvExtent (metadata : Bytes) (header : VolumeHeader) (lv : LogicalVolumeInfo) :
    Run (UInt64 × UInt64) := do
  let blockSize := header.blockSize.toNat
  let segments ← parseSegments metadata header.blockSize.toNat
  match segments.head? with
  | some first =>
      let base := saturatingMul first.physicalBlock.toNat blockSize
      -- the size in the plist goes before the one of the segment
      let size :=
        if lv.size ≠ 0 then lv.size
        else UInt64.ofNat (saturatingMul first.numberOfBlocks.toNat blockSize)
      return (UInt64.ofNat base, size)
  | none => return (0, lv.size)

/-- `build_info`. -/
def buildInfo (crates : Crates) (header : VolumeHeader) (context : EncryptionContext)
    (lv : LogicalVolumeInfo) (size : UInt64) : FileVaultInfo where
  physicalVolumeIdentifier := crates.uuidHyphenated header.physicalVolumeIdentifier
  pbkdf2Iterations := context.iterations
  pbkdf2Salt := context.salt
  familyUuid := lv.familyUuid
  lvIdentifier := lv.lvIdentifier
  lvName := lv.name
  lvSize := size
  encryptionMethod := "AES-XTS-128"
  conversionStatus := context.conversionStatus
  protectors := context.protectors

/-- `parse_uuid_bytes`. -/
def parseUuidBytes (crates : Crates) (text : String) : Option (ByteArr 16) :=
  crates.uuidParseStr text

/-- `FileVaultVolume::unlock_with_password`. -/
def unlockWithPassword (crates : Crates) (reader : Reader) (password : String) :
    Run FileVaultVolume := do
  let reader ← seekStart reader 0
  let (headerBytes, reader) ← readExactOrErr reader (List.replicate volumeHeaderLen 0)
  let header ← VolumeHeader.parse headerBytes
  let (plaintext, reader) ← decryptMetadataRegion crates reader header
  let context ← EncryptionContext.extract crates plaintext
  let lv ← LogicalVolumeInfo.extract plaintext
  let familyUuidBytes ← okOr (parseUuidBytes crates lv.familyUuid)
    (.metadataStructureMissing "parseable family UUID")
  let keys ← deriveVolumeKeys crates password context familyUuidBytes
  let (physicalBase, size) ← resolveLvExtent plaintext header lv
  let info := buildInfo crates header context lv size
  return { decrypted := .new reader keys physicalBase size, info }

/-- `parse_info`. -/
def parseInfo (crates : Crates) (reader : Reader) : Run FileVaultInfo := do
  let reader ← seekStart reader 0
  let (headerBytes, reader) ← readExactOrErr reader (List.replicate volumeHeaderLen 0)
  let header ← VolumeHeader.parse headerBytes
  let (plaintext, _) ← decryptMetadataRegion crates reader header
  let context ← EncryptionContext.extract crates plaintext
  let lv ← LogicalVolumeInfo.extract plaintext
  let (_, size) ← resolveLvExtent plaintext header lv
  return buildInfo crates header context lv size

namespace FileVaultVolume

/-- `FileVaultVolume::size`. -/
def size (vol : FileVaultVolume) : UInt64 := vol.decrypted.size

/-- `FileVaultVolume::read_at`. -/
def readAt (crates : Crates) (vol : FileVaultVolume) (offset : UInt64) (buf : Bytes) :
    Run Nat × Bytes × FileVaultVolume :=
  let (result, buf', decrypted) := vol.decrypted.readAt crates offset buf
  (result, buf', { vol with decrypted })

/-- `Read::read`, that of the decrypted volume. -/
def read (crates : Crates) (vol : FileVaultVolume) (buf : Bytes) :
    Run Nat × Bytes × FileVaultVolume :=
  let (result, buf', decrypted) := vol.decrypted.read crates buf
  (result, buf', { vol with decrypted })

/-- `Seek::seek`, that of the decrypted volume. -/
def seek (vol : FileVaultVolume) (pos : SeekFrom) : Option UInt64 × FileVaultVolume :=
  let (new, decrypted) := vol.decrypted.seek pos
  (new, { vol with decrypted })

/-- `FileVaultVolume::into_decrypted`. -/
def intoDecrypted (vol : FileVaultVolume) : DecryptedVolume := vol.decrypted

end FileVaultVolume

end FileVault
