import FileVault.Core.Reader
import FileVault.Core.Unlock
import FileVault.Core.Xts

/-!
# The decrypted logical volume (`volume.rs`)

`read_at` works on whole 512-byte sectors: it works out the window of sectors
around the request, reads their ciphertext from the backing image, decrypts it
with the logical sector numbers as tweaks, and copies the requested part out.
The model splits it at the first and the last call of the backing reader.
-/

namespace FileVault

open Lib

/-- AES-XTS unit for LV sector decryption. -/
def sectorSize : Nat := 512

/-- A decrypted logical volume over a backing reader. -/
structure DecryptedVolume where
  reader : Reader
  keys : VolumeKeys
  physicalBase : UInt64
  size : UInt64
  position : UInt64
  deriving DecidableEq

/-- `DecryptedVolume::new`. -/
def DecryptedVolume.new (reader : Reader) (keys : VolumeKeys) (physicalBase size : UInt64) :
    DecryptedVolume :=
  { reader, keys, physicalBase, size, position := 0 }

/-- `read_full_or_eof`, with `filled` bytes of the buffer already read: until the
buffer is full or the reader reports its end; `Interrupted` is retried. -/
def readFullOrEof (reader : Reader) (buf : Bytes) (filled : Nat) :
    Except IoError Unit × Bytes × Reader :=
  if _hroom : filled < buf.length then
    match _hread : reader.read (buf.length - filled) with
    | (.bytes bs, reader') =>
        if _hne : bs = [] then (.ok (), buf, reader')
        else readFullOrEof reader' (splice buf filled bs) (filled + bs.length)
    | (.interrupted, reader') => readFullOrEof reader' buf filled
    | (.failed e, reader') => (.error e, buf, reader')
  else (.ok (), buf, reader)
termination_by reader.reads.length + (buf.length - filled)
decreasing_by
  · have := Reader.read_bytes_lt _hread _hne
    have := Reader.read_length_le _hread
    rw [splice_length (by omega)]
    omega
  · have := Reader.read_interrupted_lt _hread
    omega

/-- The window of whole sectors around a request. -/
structure SectorWindow where
  want : Nat
  firstSector : Nat
  regionLen : Nat
  physical : Nat
  deriving DecidableEq, Repr

namespace DecryptedVolume

/-- The physical byte address of a logical sector, as `read_at` computes it. -/
def physicalAddress (vol : DecryptedVolume) (sector : Nat) : Run Nat := do
  let offset ← umul sector sectorSize
  uadd vol.physicalBase.toNat offset

/-- `read_at` up to its first call of the reader: `len` bytes at an `offset` below
the volume size. The sector buffer is at most two sectors longer than the
caller's own, and its allocation is taken to succeed. -/
def sectorWindow (vol : DecryptedVolume) (offset len : Nat) : Run SectorWindow := do
  -- the caller has compared the offset with the size
  let available ← usub vol.size.toNat offset
  let want := min len available
  let firstSector := offset / sectorSize
  let stop ← uadd offset want
  let last ← usub stop 1
  let lastSector := last / sectorSize
  let sectorCount ← uadd (← usub lastSector firstSector) 1
  let regionLen ← okOr (checkedMul sectorCount sectorSize) (.outOfRange "read region length")
  -- unlike the length, the address is a plain sum
  let physical ← vol.physicalAddress firstSector
  return { want, firstSector, regionLen, physical }

/-- `read_at` from its last call of the reader on: decrypt the region and copy the
requested window into the caller's buffer. -/
def copyWindow (crates : Crates) (vol : DecryptedVolume) (window : SectorWindow)
    (offset : Nat) (region buf : Bytes) : Run Bytes := do
  let plain ← decryptUnits crates region vol.keys.vmk vol.keys.tweakKey sectorSize
    window.firstSector
  let inner ← usub offset (← umul window.firstSector sectorSize)
  let innerEnd ← uadd inner window.want
  let slice ← okOr (getRange plain inner innerEnd) (.outOfRange "decrypted window")
  let _ ← okOr (getRange buf 0 window.want) (.outOfRange "output buffer window")
  -- `copy_from_slice` asserts that the lengths are equal
  if slice.length = window.want then return splice buf 0 slice
  else panicked

/-- `read_at`: the result, the caller's buffer and the volume afterwards. -/
def readAt (crates : Crates) (vol : DecryptedVolume) (offset : UInt64) (buf : Bytes) :
    Run Nat × Bytes × DecryptedVolume :=
  if vol.size ≤ offset ∨ buf = [] then (.ok 0, buf, vol)
  else
    match vol.sectorWindow offset.toNat buf.length with
    | .error stop => (.error stop, buf, vol)
    | .ok window =>
        match vol.reader.seek window.physical with
        | (.error e, reader) => (fail (.io e), buf, { vol with reader })
        | (.ok _, reader) =>
            match readFullOrEof reader (List.replicate window.regionLen 0) 0 with
            | (.error e, _, reader) => (fail (.io e), buf, { vol with reader })
            | (.ok _, region, reader) =>
                match copyWindow crates vol window offset.toNat region buf with
                | .error stop => (.error stop, buf, { vol with reader })
                | .ok buf' => (.ok window.want, buf', { vol with reader })

/-- `Read::read`. An error of `read_at` is wrapped by `io::Error::other`, which
keeps it as its source. -/
def read (crates : Crates) (vol : DecryptedVolume) (buf : Bytes) :
    Run Nat × Bytes × DecryptedVolume :=
  match vol.readAt crates vol.position buf with
  | (.error stop, buf', vol') => (.error stop, buf', vol')
  | (.ok n, buf', vol') =>
      match uadd vol'.position.toNat n with
      | .error stop => (.error stop, buf', vol')
      | .ok position => (.ok n, buf', { vol' with position := UInt64.ofNat position })

end DecryptedVolume

/-- `std::io::SeekFrom`. -/
inductive SeekFrom
  | start (o : UInt64)
  | fromEnd (o : Int64)
  | current (o : Int64)
  deriving DecidableEq

/-- `add_signed`: `none` is its "seek out of range" error. -/
def addSigned (base : UInt64) (offset : Int64) : Option UInt64 :=
  (if 0 ≤ offset.toInt then checkedAdd base.toNat offset.toInt.toNat
   else checkedSub base.toNat offset.toInt.natAbs).map UInt64.ofNat

/-- `Seek::seek`: the new position, or the error, and the volume afterwards. -/
def DecryptedVolume.seek (vol : DecryptedVolume) (pos : SeekFrom) :
    Option UInt64 × DecryptedVolume :=
  let target := match pos with
    | .start o => some o
    | .fromEnd o => addSigned vol.size o
    | .current o => addSigned vol.position o
  match target with
  | none => (none, vol)
  | some position => (some position, { vol with position })

end FileVault
