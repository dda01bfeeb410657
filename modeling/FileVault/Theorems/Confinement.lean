import FileVault.Theorems.Locality
import FileVault.Theorems.Session

/-!
# What a session can see

Opening an image reads its metadata and nothing else, and the calls on the volume read the sectors
of the volume and nothing else. So a session, with all the replies of its calls, is a function of
these bytes: the rest of the image can hold anything.
-/

namespace FileVault

open Lib

/-- The sectors of a volume, as places in its image. -/
def DecryptedVolume.Extent (vol : DecryptedVolume) (x : Nat) : Prop :=
  vol.physicalBase.toNat ≤ x ∧ x < vol.physicalBase.toNat +
    (vol.size.toNat + (sectorSize - 1)) / sectorSize * sectorSize

/-- What a session on this image may look at, once it has opened this volume. -/
def SessionSet (image : Bytes) (vol : FileVaultVolume) (x : Nat) : Prop :=
  ReadSet image x ∨ vol.decrypted.Extent x

/-- Where two images have the same bytes, they have the same filled-up stretches. -/
theorem sliceD_congr {xs ys : Bytes} {off n : Nat} {fill : UInt8}
    (h : ∀ i < n, xs[off + i]? = ys[off + i]?) : sliceD xs off n fill = sliceD ys off n fill := by
  apply List.ext_getElem?
  intro i
  rw [sliceD_getElem?, sliceD_getElem?]
  by_cases hi : i < n
  · rw [if_pos hi, if_pos hi, List.getD_eq_getElem?_getD, List.getD_eq_getElem?_getD, h i hi]
  · rw [if_neg hi, if_neg hi]

namespace DecryptedVolume

/-- The sectors around a request are sectors of the volume. -/
theorem window_extent {vol : DecryptedVolume} {offset len : Nat} {window : SectorWindow}
    (hoff : offset < vol.size.toNat) (hlen : 0 < len)
    (h : vol.sectorWindow offset len = .ok window) :
    ∀ i < window.regionLen, vol.Extent (window.physical + i) := by
  rw [sectorWindow_eq hoff hlen] at h
  split at h
  · cases h
  · split at h
    · cases h
    · obtain rfl := Except.ok.inj h
      intro i hi
      have last : vol.sectorCountOf offset len + offset / sectorSize ≤
          (vol.size.toNat + (sectorSize - 1)) / sectorSize := by
        unfold sectorCountOf wantOf sectorSize
        omega
      have bytes := Nat.mul_le_mul_right sectorSize last
      rw [Nat.add_mul] at bytes
      simp only [Extent] at hi ⊢
      omega

/-- An answer is a function of the sectors of the volume. -/
theorem answer_of_agree (crates : Crates) (vol : DecryptedVolume) {image other : Bytes}
    (agree : ∀ x, vol.Extent x → other[x]? = image[x]?) (offset : UInt64) (buf : Bytes) :
    vol.answer crates other offset buf = vol.answer crates image offset buf := by
  unfold answer
  by_cases hguard : vol.size ≤ offset ∨ buf = []
  · rw [if_pos hguard, if_pos hguard]
  obtain ⟨hsize, hbuf⟩ := not_or.mp hguard
  rw [if_neg hguard, if_neg hguard]
  cases hwindow : vol.sectorWindow offset.toNat buf.length with
  | error stop => rfl
  | ok window =>
      have inside := window_extent (UInt64.not_le.mp hsize) (List.length_pos_iff.mpr hbuf) hwindow
      simp only
      rw [sliceD_congr fun i hi => agree _ (inside i hi)]

end DecryptedVolume

/-! ## What a call comes to -/

namespace DecryptedVolume

section

variable {vol vol' : DecryptedVolume} (hsize : vol'.size = vol.size)
  (hposition : vol'.position = vol.position)
include hsize hposition

/-- A seek asks for the size and the position only. -/
theorem seek_congr (pos : SeekFrom) :
    (vol'.seek pos).1 = (vol.seek pos).1 ∧
      (vol'.seek pos).2.position = (vol.seek pos).2.position := by
  cases pos with
  | start o => exact ⟨rfl, rfl⟩
  | fromEnd o =>
      simp only [seek, hsize]
      cases addSigned vol.size o with
      | none => exact ⟨rfl, hposition⟩
      | some position => exact ⟨rfl, rfl⟩
  | current o =>
      simp only [seek, hposition]
      cases addSigned vol.position o with
      | none => exact ⟨rfl, hposition⟩
      | some position => exact ⟨rfl, rfl⟩

/-- Volumes whose reads come to the same move alike. -/
theorem perform_position_congr {crates : Crates}
    (reads : ∀ offset buf, (vol'.readAt crates offset buf).1 = (vol.readAt crates offset buf).1)
    (op : StreamOp) :
    (vol'.perform crates op).2.position = (vol.perform crates op).2.position := by
  cases op with
  | readAt offset buf =>
      exact (readAt_position crates vol' offset buf).trans
        (hposition.trans (readAt_position crates vol offset buf).symm)
  | read buf => rw [read_position, read_position, hposition, reads]
  | seek pos => exact (seek_congr hsize hposition pos).2

end

end DecryptedVolume

/-! ## Calls on images that agree -/

namespace DecryptedVolume

/-- The reader has the bytes of the volume's own, as far as these are the sectors of the volume. -/
def Agrees (vol : DecryptedVolume) (reader : Reader) : Prop :=
  ∀ x, vol.Extent x → reader.data[x]? = vol.reader.data[x]?

/-- The volume over another reader. -/
def withReader (vol : DecryptedVolume) (reader : Reader) : DecryptedVolume := { vol with reader }

theorem withReader_size (vol : DecryptedVolume) (reader : Reader) :
    (vol.withReader reader).rested.size = vol.rested.size := rfl

theorem withReader_position (vol : DecryptedVolume) (reader : Reader) :
    (vol.withReader reader).rested.position = vol.rested.position := rfl

section

variable {vol : DecryptedVolume} {reader : Reader}

/-- Over a reader that agrees, a read in memory has the same answer. -/
theorem Agrees.readAt (agrees : vol.Agrees reader) (crates : Crates) (offset : UInt64)
    (buf : Bytes) :
    ((vol.withReader reader).rested.readAt crates offset buf).1 =
        (vol.rested.readAt crates offset buf).1 ∧
      ((vol.withReader reader).rested.readAt crates offset buf).2.1 =
        (vol.rested.readAt crates offset buf).2.1 := by
  obtain ⟨result, buffer⟩ := vol.rested.readAt_healthy crates (Reader.healthy_cursor _) offset buf
  obtain ⟨result', buffer'⟩ :=
    (vol.withReader reader).rested.readAt_healthy crates (Reader.healthy_cursor _) offset buf
  have answers : (vol.withReader reader).rested.answer crates reader.data offset buf =
      vol.rested.answer crates vol.reader.data offset buf :=
    answer_of_agree crates vol agrees offset buf
  exact ⟨result'.trans ((congrArg Prod.fst answers).trans result.symm),
    buffer'.trans ((congrArg Prod.snd answers).trans buffer.symm)⟩

/-- Over a reader that agrees, every call in memory has the same reply and moves the position as
far. -/
theorem Agrees.perform (agrees : vol.Agrees reader) (crates : Crates) (op : StreamOp) :
    ((vol.withReader reader).rested.perform crates op).1 = (vol.rested.perform crates op).1 ∧
      ((vol.withReader reader).rested.perform crates op).2.position =
        (vol.rested.perform crates op).2.position := by
  have results := fun offset buf => (agrees.readAt crates offset buf).1
  have size := vol.withReader_size reader
  have position := vol.withReader_position reader
  refine ⟨?_, perform_position_congr size position results op⟩
  cases op with
  | readAt offset buf =>
      obtain ⟨result, buffer⟩ := agrees.readAt crates offset buf
      exact congrArg₂ StreamReply.data result buffer
  | read buf =>
      obtain ⟨result, buffer⟩ := agrees.readAt crates vol.position buf
      rw [perform_read, perform_read]
      exact congrArg₂ StreamReply.data result buffer
  | seek pos => exact congrArg StreamReply.position (seek_congr size position pos).1

end

end DecryptedVolume

/-! ## Two sessions -/

/-- An image with the same metadata opens to the same volume, but for the reader. -/
theorem unlock_of_agree (crates : Crates) {reader other : Reader} {password : String}
    {vol : FileVaultVolume} (healthy : reader.Healthy) (healthy' : other.Healthy)
    (h : unlockWithPassword crates reader password = .ok vol)
    (agree : ∀ x, ReadSet reader.data x → other.data[x]? = reader.data[x]?) :
    vol.reader.Healthy ∧ vol.reader.data = reader.data ∧ ∃ reader', reader'.Healthy ∧
      reader'.data = other.data ∧ unlockWithPassword crates other password =
        .ok (vol.over reader') := by
  obtain ⟨next, follows, hunlock⟩ := unlockWithPassword_healthy crates healthy password
  obtain ⟨next', follows', hunlock'⟩ := unlockWithPassword_healthy crates healthy' password
  rw [h] at hunlock
  obtain ⟨⟨header, plaintext⟩, hload, hopen⟩ := bind_eq_ok.mp hunlock.symm
  have hopen' : openVolume crates password header plaintext next = .ok vol := hopen
  have opened := openVolume_ok_reader hopen'
  rw [loadMetadata_of_agree crates (accepted_of_load hload) agree, hload, ok_bind] at hunlock'
  simp only [openVolume_reader crates password header plaintext next next', hopen'] at hunlock'
  exact ⟨opened ▸ follows.healthy, (congrArg Reader.data opened).trans follows.data, next',
    follows'.healthy, follows'.data, hunlock'⟩

/-- Opened volumes that work, of which the second agrees with the first on its sectors. -/
def Alike (vol vol' : FileVaultVolume) : Prop :=
  vol.reader.Healthy ∧ ∃ reader, reader.Healthy ∧ vol.decrypted.Agrees reader ∧
    vol' = vol.over reader

/-- Volumes that are alike answer every call alike, and are alike afterwards. -/
theorem perform_alike (crates : Crates) :
    Simulates (FileVaultVolume.perform crates) (FileVaultVolume.perform crates) Alike := by
  rintro vol vol' ⟨healthy, reader, healthy', agrees, rfl⟩ op
  obtain ⟨reply, position⟩ := agrees.perform crates op
  have rested : (vol.over reader).decrypted.rested =
      (vol.decrypted.withReader reader).rested := rfl
  rw [FileVaultVolume.perform_eq crates vol, FileVaultVolume.perform_eq crates (vol.over reader)]
  rcases vol.decrypted.perform_outcome crates op with
    ⟨next, serves, heq⟩ | ⟨_, _, failed, -⟩
  swap
  · exact absurd failed healthy.not_failed
  rcases (vol.over reader).decrypted.perform_outcome crates op with
    ⟨next', serves', heq'⟩ | ⟨_, _, failed, -⟩
  swap
  · exact absurd failed healthy'.not_failed
  rw [heq, heq', rested, reply, position]
  refine ⟨rfl, (serves.follows healthy).healthy, next', (serves'.follows healthy').healthy, ?_, rfl⟩
  intro x hx
  show next'.data[x]? = next.data[x]?
  rw [serves'.data, serves.data]
  exact agrees x hx

/-- A session sees nothing of its image but the metadata and the sectors of the volume: on any
other image with the same bytes there, however it is read, the same password opens a volume of the
same description and size, and every run of calls gets the same replies. -/
theorem session_confined (crates : Crates) {reader other : Reader} {password : String}
    {vol : FileVaultVolume} (healthy : reader.Healthy) (healthy' : other.Healthy)
    (h : unlockWithPassword crates reader password = .ok vol)
    (agree : ∀ x, SessionSet reader.data vol x → other.data[x]? = reader.data[x]?) :
    ∃ vol', unlockWithPassword crates other password = .ok vol' ∧ vol'.info = vol.info ∧
      vol'.size = vol.size ∧ ∀ ops,
        (runAll (FileVaultVolume.perform crates) vol' ops).1 =
          (runAll (FileVaultVolume.perform crates) vol ops).1 := by
  obtain ⟨working, data, reader', healthy', data', hunlock'⟩ :=
    unlock_of_agree crates healthy healthy' h fun x hx => agree x (.inl hx)
  refine ⟨vol.over reader', hunlock', rfl, rfl, ?_⟩
  intro ops
  have alike : Alike vol (vol.over reader') := by
    refine ⟨working, reader', healthy', ?_, rfl⟩
    intro x hx
    have data : vol.decrypted.reader.data = reader.data := data
    rw [data', data]
    exact agree x (.inr hx)
  exact ((perform_alike crates).runAll alike ops).1.symm

/-- The synthetic image with a byte turned over in a block that nobody reads, served in pieces. -/
def strayReader : Reader :=
  ⟨syntheticReader.data.modify 30000 (~~~ ·), 9, [.short 3, .interrupted], []⟩

theorem strayReader_ne : strayReader.data[30000]? ≠ syntheticReader.data[30000]? := by
  have length : syntheticReader.data.length = Fixture.synthetic.total :=
    Fixture.buildImage_length Fixture.synthetic_fits Fixture.synthetic_placed
  have inside : 30000 < syntheticReader.data.length := by
    rw [length]
    decide
  rw [strayReader, List.getElem?_modify_eq, List.getElem?_eq_getElem inside]
  simp

/-- No session sees that byte. -/
theorem session_synthetic_confined :
    strayReader.data[30000]? ≠ syntheticReader.data[30000]? ∧
    ∃ vol, unlockWithPassword standardCrates syntheticReader Fixture.synthetic.password =
        .ok vol ∧
      ∃ vol', unlockWithPassword standardCrates strayReader Fixture.synthetic.password =
          .ok vol' ∧ vol'.info = vol.info ∧ vol'.size = vol.size ∧
        ∀ ops, (runAll (FileVaultVolume.perform standardCrates) vol' ops).1 =
          (runAll (FileVaultVolume.perform standardCrates) vol ops).1 := by
  have healthy : syntheticReader.Healthy := Reader.healthy_cursor _
  have healthy' : strayReader.Healthy := by simp [Reader.Healthy, strayReader]
  obtain ⟨next, -, hvol⟩ := Fixture.unlock_buildImage standardCrates_lawful
    Fixture.synthetic_fits Fixture.synthetic_placed (by decide) (by decide) healthy rfl
  refine ⟨strayReader_ne, _, hvol, session_confined standardCrates healthy healthy' hvol ?_⟩
  intro x hx
  have base : (UInt64.ofNat (saturatingMul
      (Fixture.synthetic.lvPhysicalBlock.toNat % 2 ^ 48)
      Fixture.synthetic.blockSize.toNat)).toNat = 65536 := by decide
  have apart : 30000 ≠ x := by
    rintro rfl
    rcases hx with read | ⟨low, -⟩
    · have := readSet_synthetic read
      omega
    · have low' : 65536 ≤ 30000 := base ▸ low
      omega
  exact List.getElem?_modify_ne _ _ apart

end FileVault
