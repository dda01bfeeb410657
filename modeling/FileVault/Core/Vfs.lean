import FileVault.Core.FileVaultVolume

/-!
# The `forensic-vfs` adapter (`vfs.rs`)

`FileVaultLayer` tries the passwords it is offered over the encrypted source, and
`FileVaultSource` presents an unlocked volume, behind a mutex, as an image source.
The source's own cursor view, the other kinds of credentials and the text of an
`std::io::Error` come from outside the crate.
-/

namespace FileVault

open Lib

/-- `0x` and the value in hexadecimal, padded to `width` digits: `{:#06x}` for four. -/
def hexPadded (width value : Nat) : String :=
  let digits := Nat.toDigits 16 value
  "0x" ++ String.ofList (List.replicate (width - digits.length) '0' ++ digits)

example : hexPadded 4 0x3a5 = "0x03a5" := by decide +kernel

/-- `Display` of `FileVaultError`; `ioText` is that of an `std::io::Error`. -/
def FileVaultError.display (ioText : IoError → String) : FileVaultError → String
  | .io e => "i/o error: " ++ ioText e
  | .notCoreStorage found =>
      "not a CoreStorage volume: signature at offset 88 was " ++ hexPadded 4 found.toNat ++
        ", expected 0x5343 (\"CS\")"
  | .unsupportedEncryptionMethod found =>
      "unsupported encryption method " ++ toString found.toNat ++
        ": only 2 (AES-XTS-128) is supported"
  | .metadataStructureMissing what => "required metadata structure not found: " ++ what
  | .base64 what => "base64 decode failed for " ++ what
  | .keyUnwrap what =>
      "key unwrap failed for " ++ what ++ ": wrong password or corrupt wrapped key"
  | .outOfRange what => "value out of range: " ++ what

/-- `VfsError`, as far as the adapter builds it. -/
inductive VfsError
  | needCredentials (scheme target : String)
  | decode (layer : String) (offset : UInt64) (detail : String) (bytes : Bytes)
  deriving DecidableEq, Repr

/-- Why a call of the adapter does not return a value. -/
inductive VfsStop
  | error (e : VfsError)
  | panic
  deriving DecidableEq, Repr

/-- `VfsResult`, or a panic. -/
abbrev VfsRun (α : Type) := Except VfsStop α

/-- `map_fvde_err`. -/
def mapFvdeErr (ioText : IoError → String) (e : FileVaultError) : VfsError :=
  .decode "filevault" 0 (e.display ioText) []

/-- `map_err(|e| map_fvde_err(&e))`. -/
def mapStop (ioText : IoError → String) {α : Type} : Run α → VfsRun α
  | .ok a => .ok a
  | .error (.error e) => .error (.error (mapFvdeErr ioText e))
  | .error .panic => .error .panic

/-! ## The decrypted volume as an image source -/

/-- `FileVaultSource`: the volume inside the mutex, and its size outside. -/
structure FileVaultSource where
  inner : FileVaultVolume
  len : UInt64
  deriving DecidableEq

namespace FileVaultSource

/-- `FileVaultSource::new`. -/
def new (vol : FileVaultVolume) : FileVaultSource := { inner := vol, len := vol.size }

/-- `read_at` up to the lock: the length of the part of the buffer to fill, if there is
anything to read. -/
def wanted (len offset : UInt64) (buf : Bytes) : Option Nat :=
  -- saturates
  let avail := len.toNat - offset.toNat
  if avail = 0 then none
  else
    let want := min buf.length avail
    (getRange buf 0 want).map List.length

/-- `read_at` from the lock on, into the first `want` bytes of the buffer. -/
def readLocked (crates : Crates) (ioText : IoError → String) (vol : FileVaultVolume)
    (offset : UInt64) (buf : Bytes) (want : Nat) : VfsRun Nat × Bytes × FileVaultVolume :=
  match vol.readAt crates offset (slice buf 0 want) with
  | (result, dst, vol') => (mapStop ioText result, splice buf 0 dst, vol')

/-- `ImageSource::read_at`. A poisoned lock hands out its guard all the same, so the call
runs whatever became of the calls before it. -/
def readAt (crates : Crates) (ioText : IoError → String) (source : FileVaultSource)
    (offset : UInt64) (buf : Bytes) : VfsRun Nat × Bytes × FileVaultSource :=
  match wanted source.len offset buf with
  | none => (.ok 0, buf, source)
  | some want =>
      match readLocked crates ioText source.inner offset buf want with
      | (result, buf', inner) => (result, buf', { source with inner })

end FileVaultSource

/-! ## Opening a layer -/

/-- `Credential`: the adapter tells passwords from everything else. -/
inductive Credential (Other : Type)
  | password (p : String)
  | other (c : Other)
  deriving DecidableEq, Repr

/-- `EncryptionScheme`, as far as the adapter names it. -/
inductive EncryptionScheme
  | fileVault
  deriving DecidableEq, Repr

/-- What an encrypted source is to the adapter: its length, and the `SourceCursor` over a
stretch of it, here one that every attempt finds as fresh as the first. -/
structure EncryptedSource (Source : Type) where
  len : Source → UInt64
  sourceCursor : Source → (base len : UInt64) → Reader

/-- `FileVaultLayer`. -/
structure FileVaultLayer (Source : Type) where
  encrypted : Source
  len : UInt64

namespace FileVaultLayer

variable {Source Other : Type}

/-- `FileVaultLayer::new`. -/
def new (sources : EncryptedSource Source) (encrypted : Source) : FileVaultLayer Source :=
  { encrypted, len := sources.len encrypted }

/-- `VfsError::NeedCredentials`, as `open` builds it. -/
def needCredentials : VfsError := .needCredentials "filevault" ""

/-- The loop of `open` over the credentials that are left, with `last_err`. The attempts share
the device, which answers each of them as it then does: `view` is the cursor of the next one, and
of those after it. -/
def tryEach (crates : Crates) (ioText : IoError → String) :
    (view : Nat → Reader) → List (Credential Other) → Option FileVaultError → VfsRun FileVaultSource
  | _, [], lastErr => .error (.error (lastErr.elim needCredentials (mapFvdeErr ioText)))
  | view, .other _ :: creds, lastErr => tryEach crates ioText view creds lastErr
  | view, .password p :: creds, _lastErr =>
      match unlockWithPassword crates (view 0) p with
      | .ok vol => .ok (.new vol)
      | .error (.error e) => tryEach crates ioText (fun n => view (n + 1)) creds (some e)
      | .error .panic => .error .panic

/-- `EncryptionLayer::open`, over the cursors that its attempts get. -/
def openOver (crates : Crates) (ioText : IoError → String) (view : Nat → Reader)
    (credentialsFor : EncryptionScheme → String → List (Credential Other)) :
    VfsRun FileVaultSource :=
  let cands := credentialsFor .fileVault ""
  if cands.isEmpty then .error (.error needCredentials)
  else tryEach crates ioText view cands none

/-- `EncryptionLayer::open`, over a source whose cursors are fresh. -/
def openLayer (crates : Crates) (ioText : IoError → String) (sources : EncryptedSource Source)
    (layer : FileVaultLayer Source)
    (credentialsFor : EncryptionScheme → String → List (Credential Other)) :
    VfsRun FileVaultSource :=
  openOver crates ioText (fun _ => sources.sourceCursor layer.encrypted 0 layer.len) credentialsFor

end FileVaultLayer

end FileVault
