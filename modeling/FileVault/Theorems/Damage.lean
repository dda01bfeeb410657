import FileVault.Theorems.Confinement
import FileVault.Theorems.Transform

/-!
# Damaged images

Nothing in the format authenticates a ciphertext. Where the bytes of a volume have changed, every
read still succeeds, and what it returns is wrong in exactly the cipher blocks that have changed.
-/

namespace FileVault

open Lib

section

variable {crates : Crates}

/-! ## Block by block -/

/-- The ciphertext of block `b` of a volume at `base`, with zeros past the end of the image. -/
def cipherBlock (image : Bytes) (base b : Nat) : Bytes := sliceD image (base + 16 * b) 16 0

/-- Two images have the same ciphertext in a block behind `base`. -/
def IntactBlock (base : Nat) (image other : Bytes) (b : Nat) : Prop :=
  cipherBlock other base b = cipherBlock image base b

/-- A block of the plaintext is the same exactly if its ciphertext is. -/
theorem plainBlock_iff (blocks : crates.BlockWise) (keys : VolumeKeys) (image other : Bytes)
    (base b : Nat) :
    (∀ i < 16, plainByte? crates keys other base (16 * b + i) =
        plainByte? crates keys image base (16 * b + i)) ↔
      IntactBlock base image other b := by
  have place : ∀ xs : Bytes,
      slice (sliceD xs (base + sectorSize * (b / 32)) sectorSize 0) (b % 32 * 16) 16 =
        cipherBlock xs base b := by
    intro xs
    have inside : b % 32 * 16 + 16 ≤ sectorSize := by
      unfold sectorSize
      omega
    have address : base + sectorSize * (b / 32) + b % 32 * 16 = base + 16 * b := by
      unfold sectorSize
      omega
    rw [slice_sliceD inside, address, cipherBlock]
  have byte : ∀ (xs : Bytes) (i : Nat), i < 16 →
      plainByte? crates keys xs base (16 * b + i) =
        (slice (plainSector crates keys xs base (b / 32)) (b % 32 * 16) 16)[i]? := by
    intro xs i hi
    have sector : (16 * b + i) / sectorSize = b / 32 := by
      unfold sectorSize
      omega
    have inner : (16 * b + i) % sectorSize = b % 32 * 16 + i := by
      unfold sectorSize
      omega
    rw [plainByte?, sector, inner, slice_getElem?, if_pos hi]
  rw [IntactBlock, ← place, ← place, ← blocks.decrypt_block keys.vmk keys.tweakKey (b / 32) _ _ _
    (by rw [sliceD_length, sliceD_length]) (by rw [sliceD_length]; decide)
    (by rw [sliceD_length]; exact Nat.mod_lt b (by decide))]
  constructor
  · intro h
    apply List.ext_getElem?
    intro i
    by_cases hi : i < 16
    · exact (byte other i hi).symm.trans ((h i hi).trans (byte image i hi))
    · rw [slice_getElem?, slice_getElem?, if_neg hi, if_neg hi]
  · intro h i hi
    rw [byte other i hi, byte image i hi]
    exact congrArg (·[i]?) h

/-! ## One read -/

/-- Two buffers of which the first `n` bytes have been filled from `offset` on: they are the same,
but for the blocks that are not intact, and each of these that is in them is different. -/
structure SameBut (intact : Nat → Prop) (offset n : Nat) (buf buf' : Bytes) : Prop where
  length : buf'.length = buf.length
  same : ∀ i, (i < n → intact ((offset + i) / 16)) → buf'[i]? = buf[i]?
  differs : ∀ b, offset ≤ 16 * b → 16 * b + 16 ≤ offset + n → ¬ intact b →
    slice buf' (16 * b - offset) 16 ≠ slice buf (16 * b - offset) 16

theorem SameBut.refl (intact : Nat → Prop) (offset : Nat) (buf : Bytes) :
    SameBut intact offset 0 buf buf where
  length := rfl
  same _ _ := rfl
  differs b hlow hhigh := by omega

namespace DecryptedVolume

/-- Over a damaged image an answer is as long, and wrong in the damaged blocks. -/
theorem answer_damaged (blocks : crates.BlockWise) (vol : DecryptedVolume) (image other : Bytes)
    (offset : UInt64) (buf : Bytes) :
    (vol.answer crates other offset buf).1 =
        (vol.answer crates image offset buf).1 ∧
      SameBut (IntactBlock vol.physicalBase.toNat image other) offset.toNat
        (bytesRead (vol.answer crates image offset buf).1)
        (vol.answer crates image offset buf).2
        (vol.answer crates other offset buf).2 := by
  rcases vol.answer_cases crates offset buf with
    ⟨result, hnone, -, answer⟩ | ⟨n, hbuf, -, answer⟩
  · rw [answer image, answer other, hnone]
    exact ⟨rfl, .refl _ _ _⟩
  obtain ⟨bytes, hanswer, hbytes, plain⟩ := answer image
  obtain ⟨bytes', hanswer', hbytes', plain'⟩ := answer other
  rw [hanswer, hanswer']
  have inside : 0 + bytes.length ≤ buf.length := by omega
  have inside' : 0 + bytes'.length ≤ buf.length := by omega
  have filledByte : ∀ i < n, (splice buf 0 bytes)[i]? = bytes[i]? := by
    intro i hi
    rw [splice_getElem? inside, if_pos (by omega), Nat.sub_zero]
  have filledByte' : ∀ i < n, (splice buf 0 bytes')[i]? = bytes'[i]? := by
    intro i hi
    rw [splice_getElem? inside', if_pos (by omega), Nat.sub_zero]
  refine ⟨rfl, ?_, ?_, ?_⟩
  · rw [splice_length inside, splice_length inside']
  · intro i intact
    by_cases hi : i < n
    · have same := (plainBlock_iff blocks vol.keys image other vol.physicalBase.toNat _).mpr
        (intact hi)
      have block := same ((offset.toNat + i) % 16) (Nat.mod_lt _ (by decide))
      rw [Nat.div_add_mod] at block
      rw [filledByte i hi, filledByte' i hi, plain i hi, plain' i hi, block]
    · rw [splice_getElem? inside, splice_getElem? inside', if_neg (by omega), if_neg (by omega)]
  · intro b hlow hhigh damaged equal
    change 16 * b + 16 ≤ offset.toNat + n at hhigh
    refine damaged ((plainBlock_iff blocks vol.keys image other vol.physicalBase.toNat b).mp ?_)
    intro i hi
    -- byte `i` of the block is in the buffer
    have here : 16 * b - offset.toNat + i < n := by omega
    have place : offset.toNat + (16 * b - offset.toNat + i) = 16 * b + i := by omega
    have byte := congrArg (·[i]?) equal
    simp only [slice_getElem?, if_pos hi] at byte
    rw [filledByte _ here, filledByte' _ here, plain _ here, plain' _ here, place] at byte
    exact byte

end DecryptedVolume

/-! ## Sessions -/

/-- Where in the volume a call begins. -/
def StreamOp.origin (position : UInt64) : StreamOp → UInt64
  | .read _ => position
  | .readAt offset _ => offset
  | .seek _ => position

/-- Two replies to a call that began at `offset`: the same, but for what is not intact. -/
def StreamReply.Matches (intact : Nat → Prop) (offset : UInt64) : StreamReply → StreamReply → Prop
  | .data result buf, .data result' buf' =>
      result' = result ∧ SameBut intact offset.toNat (bytesRead result) buf buf'
  | .position new, .position new' => new' = new
  | _, _ => False

namespace DecryptedVolume

/-- A `read_at` in memory, over an image and over a damaged one. -/
theorem readAt_damaged (blocks : crates.BlockWise) (vol : DecryptedVolume) (reader : Reader)
    (offset : UInt64) (buf : Bytes) :
    ((vol.withReader reader).rested.readAt crates offset buf).1 =
        (vol.rested.readAt crates offset buf).1 ∧
      SameBut (IntactBlock vol.physicalBase.toNat vol.reader.data reader.data) offset.toNat
        (bytesRead (vol.rested.readAt crates offset buf).1)
        (vol.rested.readAt crates offset buf).2.1
        ((vol.withReader reader).rested.readAt crates offset buf).2.1 := by
  obtain ⟨result, buffer⟩ :=
    vol.rested.readAt_healthy crates (Reader.healthy_cursor _) offset buf
  obtain ⟨result', buffer'⟩ :=
    (vol.withReader reader).rested.readAt_healthy crates (Reader.healthy_cursor _)
      offset buf
  rw [result, buffer, result', buffer']
  exact answer_damaged blocks vol vol.reader.data reader.data offset buf

/-- A call over an image and over a damaged one: the replies match, and the position moves as
far. -/
theorem perform_damaged (blocks : crates.BlockWise) (vol : DecryptedVolume) (reader : Reader)
    (op : StreamOp) :
    (vol.rested.perform crates op).1.Matches
        (IntactBlock vol.physicalBase.toNat vol.reader.data reader.data) (op.origin vol.position)
        ((vol.withReader reader).rested.perform crates op).1 ∧
      ((vol.withReader reader).rested.perform crates op).2.position =
        (vol.rested.perform crates op).2.position := by
  have results := fun offset buf => (readAt_damaged blocks vol reader offset buf).1
  have size := vol.withReader_size reader
  have position := vol.withReader_position reader
  refine ⟨?_, perform_position_congr size position results op⟩
  cases op with
  | readAt offset buf => exact readAt_damaged blocks vol reader offset buf
  | read buf =>
      rw [perform_read, perform_read]
      exact readAt_damaged blocks vol reader vol.position buf
  | seek pos => exact (seek_congr size position pos).1

end DecryptedVolume

/-- The same volume twice, over an image and over another. -/
structure Twins (base : Nat) (image other : Bytes) (vol vol' : FileVaultVolume) : Prop where
  healthy : vol.reader.Healthy
  data : vol.reader.data = image
  base : vol.decrypted.physicalBase.toNat = base
  twin : ∃ reader, reader.Healthy ∧ reader.data = other ∧ vol' = vol.over reader

/-- Twins answer a call alike, but for what is damaged, and are twins afterwards. -/
theorem Twins.perform (blocks : crates.BlockWise) {base : Nat} {image other : Bytes}
    {vol vol' : FileVaultVolume}
    (twins : Twins base image other vol vol') (op : StreamOp) :
    (vol.perform crates op).1.Matches (IntactBlock base image other)
        (op.origin vol.decrypted.position) (vol'.perform crates op).1 ∧
      Twins base image other (vol.perform crates op).2
        (vol'.perform crates op).2 := by
  obtain ⟨healthy, rfl, rfl, reader, healthy', rfl, rfl⟩ := twins
  obtain ⟨reply, position⟩ := DecryptedVolume.perform_damaged blocks vol.decrypted reader op
  have rested : (vol.over reader).decrypted.rested =
      (vol.decrypted.withReader reader).rested := rfl
  rw [FileVaultVolume.perform_eq crates vol,
    FileVaultVolume.perform_eq crates (vol.over reader)]
  rcases vol.decrypted.perform_outcome crates op with
    ⟨next, serves, heq⟩ | ⟨_, _, failed, -⟩
  swap
  · exact absurd failed healthy.not_failed
  rcases (vol.over reader).decrypted.perform_outcome crates op with
    ⟨next', serves', heq'⟩ | ⟨_, _, failed, -⟩
  swap
  · exact absurd failed healthy'.not_failed
  rw [heq, heq', rested, position]
  exact ⟨reply, (serves.follows healthy).healthy, serves.data, rfl, next',
    (serves'.follows healthy').healthy, serves'.data, rfl⟩

/-- Twins are twins after any run of calls. -/
theorem Twins.runAll (blocks : crates.BlockWise) {base : Nat} {image other : Bytes}
    {vol vol' : FileVaultVolume} (twins : Twins base image other vol vol') (ops : List StreamOp) :
    Twins base image other (runAll (FileVaultVolume.perform crates) vol ops).2
      (runAll (FileVaultVolume.perform crates) vol' ops).2 :=
  runAll_keeps (R := Twins base image other)
    (fun _ _ twins op => (Twins.perform blocks twins op).2) twins ops

/-- Where the metadata is as it was, whatever has become of the rest of an image, the same password
opens a volume of the same description and size. After any run of calls the two volumes stand at
the same position, and the next call gets the same reply on both, but for the blocks whose
ciphertext has changed; and each of these that it has read as a whole is another. -/
theorem session_damaged (blocks : crates.BlockWise) {reader other : Reader} {password : String}
    {vol : FileVaultVolume} (healthy : reader.Healthy) (healthy' : other.Healthy)
    (h : unlockWithPassword crates reader password = .ok vol)
    (agree : ∀ x, ReadSet reader.data x → other.data[x]? = reader.data[x]?) :
    ∃ vol', unlockWithPassword crates other password = .ok vol' ∧ vol'.info = vol.info ∧
      vol'.size = vol.size ∧ ∀ ops op,
        let now := (runAll (FileVaultVolume.perform crates) vol ops).2
        let now' := (runAll (FileVaultVolume.perform crates) vol' ops).2
        now'.decrypted.position = now.decrypted.position ∧
          (now.perform crates op).1.Matches
            (IntactBlock vol.decrypted.physicalBase.toNat reader.data other.data)
            (op.origin now.decrypted.position) (now'.perform crates op).1 := by
  obtain ⟨working, data, reader', healthy', data', hunlock'⟩ :=
    unlock_of_agree crates healthy healthy' h agree
  refine ⟨vol.over reader', hunlock', rfl, rfl, ?_⟩
  intro ops op
  have start : Twins vol.decrypted.physicalBase.toNat reader.data other.data vol
      (vol.over reader') := ⟨working, data, rfl, reader', healthy', data', rfl⟩
  have twins := start.runAll blocks ops
  refine ⟨?_, (twins.perform blocks op).1⟩
  obtain ⟨-, -, -, last, -, -, same⟩ := twins
  rw [same]
  rfl

end

/-- Cutting an image off behind its metadata is such a damage. -/
theorem take_agrees {image : Bytes} {n : Nat} (behind : ∀ x, ReadSet image x → x < n) :
    ∀ x, ReadSet image x → (image.take n)[x]? = image[x]? := by
  intro x hx
  rw [List.getElem?_take, if_pos (behind x hx)]

/-- The synthetic image, cut off behind the first four blocks of its volume. -/
theorem session_synthetic_damaged :
    ∃ vol, unlockWithPassword standardCrates syntheticReader Fixture.synthetic.password =
        .ok vol ∧
      ∃ vol', unlockWithPassword standardCrates (.cursor (syntheticReader.data.take 65600))
          Fixture.synthetic.password = .ok vol' ∧ vol'.info = vol.info ∧ vol'.size = vol.size ∧
        ∀ ops op,
          let now := (runAll (FileVaultVolume.perform standardCrates) vol ops).2
          let now' := (runAll (FileVaultVolume.perform standardCrates) vol' ops).2
          now'.decrypted.position = now.decrypted.position ∧
            (now.perform standardCrates op).1.Matches
              (IntactBlock vol.decrypted.physicalBase.toNat syntheticReader.data
                (syntheticReader.data.take 65600))
              (op.origin now.decrypted.position) (now'.perform standardCrates op).1 := by
  have healthy : syntheticReader.Healthy := Reader.healthy_cursor _
  obtain ⟨vol, hvol, -⟩ := Fixture.synthetic_wellFormed.standsFor standardCrates_lawful healthy rfl
  refine ⟨vol, hvol, session_damaged standardCrates_blockWise healthy (Reader.healthy_cursor _) hvol
    (take_agrees ?_)⟩
  intro x hx
  have := readSet_synthetic hx
  omega

end FileVault
