import FileVault.Core.FileVaultVolume
import FileVault.Lib.Writes
import FileVault.Logic.Plist

/-!
# The image builder (`test_support.rs`)

The synthetic CoreStorage image of the test fixtures, with the constants of the
fixture as parameters: header, plaintext metadata region, AES-XTS-encrypted
metadata, encrypted logical volume. The text of the two property lists, the
offsets of the fields and the order of the writes are the builder's own.
-/

namespace FileVault

open Lib

/-- The parameters of an image. The two block-number fields are the raw 64-bit
values on disk, volume index and all. -/
structure Fixture where
  password : String
  salt : ByteArr 16
  iterations : UInt32
  kek : ByteArr 16
  vmk : ByteArr 16
  key1 : ByteArr 16
  pvId : ByteArr 16
  family : ByteArr 16
  lvName : String
  lvIdentifier : String
  status : String
  lvSize : UInt64
  blockSize : UInt32
  bytesPerSector : UInt32
  regionBlock : UInt64
  regionSize : UInt32
  descriptorOffset : UInt32
  metadataBlock : UInt64
  metadataBlocks : Nat
  logicalBlock : UInt64
  lvBlocks : UInt32
  lvPhysicalBlock : UInt64
  lvPlain : Bytes
  total : Nat

/-- `vec![0u8; n]` filled in by the writes. -/
def filled (n : Nat) (writes : List (Nat × Bytes)) : Bytes :=
  writeAll (List.replicate n 0) writes

section

variable {n : Nat} {writes : List (Nat × Bytes)}

theorem filled_length (h : FitIn n writes) : (filled n writes).length = n := by
  have blank : (List.replicate n (0 : UInt8)).length = n := List.length_replicate
  rw [filled, writeAll_length (blank.symm ▸ h), blank]

theorem slice_filled {off width : Nat} {bytes : Bytes} (h : FitIn n writes)
    (hw : (off, bytes) ∈ writes) (hwidth : bytes.length = width) :
    slice (filled n writes) off width = bytes := by
  have blank : (List.replicate n (0 : UInt8)).length = n := List.length_replicate
  exact slice_writeAll (blank.symm ▸ h) hw hwidth

theorem slice_filled_apart {off width : Nat} (h : FitIn n writes)
    (apart : ∀ w ∈ writes, off + width ≤ w.1 ∨ w.1 + w.2.length ≤ off) :
    slice (filled n writes) off width = slice (List.replicate n 0) off width := by
  have blank : (List.replicate n (0 : UInt8)).length = n := List.length_replicate
  exact slice_writeAll_apart (blank.symm ▸ h) apart

end

/-- The writes of a metadata block: its type at offset 10, its payload behind the
header. -/
def blockWrites (blockType : UInt16) (payload : Bytes) : List (Nat × Bytes) :=
  [(10, leBytes 2 blockType.toNat), (64, payload)]

/-- A metadata block. -/
def metadataBlockOf (blockSize : Nat) (blockType : UInt16) (payload : Bytes) : Bytes :=
  filled blockSize (blockWrites blockType payload)

/-- The buffer that a call of `encrypt_units` leaves to the builder. A call that panics
leaves none, and takes the builder with it. -/
def leftBy : Run Bytes → Bytes
  | .ok buffer => buffer
  | .error _ => []

@[simp] theorem leftBy_ok (buffer : Bytes) : leftBy (.ok buffer) = buffer := rfl

namespace Fixture

/-- `PassphraseWrappedKEKStruct` (284 bytes): salt@8, wrapped KEK@32, iterations@168. -/
def passphraseWrites (salt : ByteArr 16) (wrappedKek : ByteArr 24) (iterations : UInt32) :
    List (Nat × Bytes) :=
  [(8, salt.val), (32, wrappedKek.val), (168, leBytes 4 iterations.toNat)]

def passphraseStruct (salt : ByteArr 16) (wrappedKek : ByteArr 24) (iterations : UInt32) :
    Bytes :=
  filled 284 (passphraseWrites salt wrappedKek iterations)

/-- `KEKWrappedVolumeKeyStruct` (256 bytes): wrapped VMK@8. -/
def kekWrappedStruct (wrappedVmk : ByteArr 24) : Bytes := filled 256 [(8, wrappedVmk.val)]

section

variable (crates : Crates) (p : Fixture)

/-- The KEK, wrapped under the passphrase key. -/
def wrappedKek : ByteArr 24 :=
  crates.kwWrap (crates.pbkdf2 (asBytes p.password) p.salt p.iterations.toNat) p.kek

/-- The volume master key, wrapped under the KEK. -/
def wrappedVmk : ByteArr 24 := crates.kwWrap p.kek p.vmk

/-- The entries of the encryption-context plist. -/
def passphraseField : Bytes :=
  tagged "PassphraseWrappedKEKStruct" (asBytes "<data ID=") (asBytes "\"4\"")
    (crates.base64Encode (passphraseStruct p.salt (p.wrappedKek crates) p.iterations))
    (asBytes "</data>")

def userTypeField : Bytes :=
  tagged "UserType" (asBytes "<integer") (asBytes " size=\"32\" ID=\"5\"")
    (asBytes "0x10000001") (asBytes "</integer>")

def algorithmField : Bytes :=
  tagged "BlockAlgorithm" (asBytes "<string ID=") (asBytes "\"6\"") (asBytes "AES-XTS")
    (asBytes "</string>")

def kekField : Bytes :=
  tagged "KEKWrappedVolumeKeyStruct" (asBytes "<data ID=") (asBytes "\"7\"")
    (crates.base64Encode (kekWrappedStruct (p.wrappedVmk crates))) (asBytes "</data>")

def statusField : Bytes :=
  tagged "ConversionStatus" (asBytes "<string ID=") (asBytes "\"8\"") (asBytes p.status)
    (asBytes "</string>")

/-- The encryption-context plist. -/
def contextPlist : Bytes :=
  asBytes "<dict ID=\"0\">" ++ (keyElement "CryptoUsers" ++
  (asBytes "<array ID=\"2\"><dict ID=\"3\">" ++
  (p.passphraseField crates ++ (userTypeField ++ (algorithmField ++ (p.kekField crates ++
  (asBytes "</dict></array>" ++ (p.statusField ++ asBytes "</dict>"))))))))

/-- The text of the family UUID. -/
def familyText : String := crates.uuidHyphenated p.family

/-- The text of the volume size. -/
def sizeText : String := String.ofList ('0' :: 'x' :: lowerHex p.lvSize.toNat)

/-- The entries of the logical-volume plist. -/
def familyField : Bytes :=
  tagged "com.apple.corestorage.lv.familyUUID" (asBytes "<string ID=") (asBytes "\"1\"")
    (asBytes (p.familyText crates)) (asBytes "</string>")

def nameField : Bytes :=
  tagged "com.apple.corestorage.lv.name" (asBytes "<string ID=") (asBytes "\"2\"")
    (asBytes p.lvName) (asBytes "</string>")

def identifierField : Bytes :=
  tagged "com.apple.corestorage.lv.uuid" (asBytes "<string ID=") (asBytes "\"3\"")
    (asBytes p.lvIdentifier) (asBytes "</string>")

def sizeField : Bytes :=
  tagged "com.apple.corestorage.lv.size" (asBytes "<integer")
    (asBytes " size=\"64\" ID=\"4\"") (asBytes p.sizeText) (asBytes "</integer>")

/-- The logical-volume plist. -/
def lvPlist : Bytes :=
  asBytes "<dict ID=\"0\">" ++ (p.familyField crates ++ (p.nameField ++
  (p.identifierField ++ (p.sizeField ++ asBytes "</dict>"))))

/-- The payload of the segment block: the count, and one entry. -/
def segmentWrites : List (Nat × Bytes) :=
  [(0, leBytes 4 1), (16, leBytes 8 p.logicalBlock.toNat), (24, leBytes 4 p.lvBlocks.toNat),
    (40, leBytes 8 p.lvPhysicalBlock.toNat)]

def segmentPayload : Bytes := filled 48 p.segmentWrites

/-- `build_decrypted_metadata`: context plist, LV plist, segment descriptor, and the
padding up to the declared number of blocks. -/
def buildDecryptedMetadata : Bytes :=
  metadataBlockOf p.blockSize.toNat 0x0013 (p.contextPlist crates) ++
  (metadataBlockOf p.blockSize.toNat 0x001a (p.lvPlist crates) ++
  (metadataBlockOf p.blockSize.toNat 0x0305 p.segmentPayload ++
  List.replicate ((p.metadataBlocks - 3) * p.blockSize.toNat) 0))

/-- The plaintext metadata region: the pointer block and the descriptor. -/
def regionWrites : List (Nat × Bytes) := [
    (10, leBytes 2 0x0011),
    (64, leBytes 4 p.regionSize.toNat),
    (64 + 156, leBytes 4 p.descriptorOffset.toNat),
    (p.descriptorOffset.toNat + 8, leBytes 8 p.metadataBlocks),
    (p.descriptorOffset.toNat + 32, leBytes 8 p.metadataBlock.toNat)]

def region : Bytes := filled p.regionSize.toNat p.regionWrites

/-- The tweak key that the builder hashes for itself: `SHA256(VMK || FAMILY)`, of which it
takes the first 16 bytes. -/
def tweakKey : ByteArr 16 :=
  ⟨(crates.sha256 (p.vmk.val ++ p.family.val)).val.take 16, by
    simp [(crates.sha256 (p.vmk.val ++ p.family.val)).property]⟩

/-- The keys that the volume is encrypted with. -/
def keys : VolumeKeys := ⟨p.vmk, p.tweakKey crates⟩

/-- Where the parts of the image go. -/
def regionStart : Nat := p.regionBlock.toNat * p.blockSize.toNat

def metadataStart : Nat := p.metadataBlock.toNat % 2 ^ 48 * p.blockSize.toNat

def lvStart : Nat := p.lvPhysicalBlock.toNat % 2 ^ 48 * p.blockSize.toNat

/-- The encrypted metadata. -/
def encryptedMetadata : Bytes :=
  leftBy (encryptUnits crates (p.buildDecryptedMetadata crates) p.key1 p.pvId 8192 0)

/-- The encrypted logical volume. -/
def lvCipher : Bytes :=
  leftBy (encryptUnits crates p.lvPlain p.vmk (p.tweakKey crates) 512 0)

/-- The fields of the header. -/
def headerWrites : List (Nat × Bytes) := [
  (88, [0x43, 0x53]),
  (48, leBytes 4 p.bytesPerSector.toNat),
  (96, leBytes 4 p.blockSize.toNat),
  (64, leBytes 8 p.total),
  (172, leBytes 4 2),
  (104, leBytes 8 p.regionBlock.toNat),
  (176, p.key1.val),
  (304, p.pvId.val)]

/-- The writes that make up the image, in the builder's order. -/
def imageWrites : List (Nat × Bytes) :=
  p.headerWrites ++ [
    (p.regionStart, p.region),
    (p.metadataStart, p.encryptedMetadata crates),
    (p.lvStart, p.lvCipher crates)]

/-- `build_image`. -/
def buildImage : Bytes := filled p.total (p.imageWrites crates)

/-- What a volume built from these parameters reports. -/
def info : FileVaultInfo where
  physicalVolumeIdentifier := crates.uuidHyphenated p.pvId
  pbkdf2Iterations := p.iterations
  pbkdf2Salt := p.salt
  familyUuid := p.familyText crates
  lvIdentifier := some p.lvIdentifier
  lvName := some p.lvName
  lvSize := p.lvSize
  encryptionMethod := "AES-XTS-128"
  conversionStatus := some p.status
  protectors := [⟨0x10000001, .password⟩]

end

end Fixture

end FileVault
