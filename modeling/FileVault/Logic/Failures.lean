import FileVault.Logic.Backing

/-!
# Reads over a reader that may fail

A `read_at` ends in one of two ways. The reader served it, and then the answer is a
function of the image; or the reader failed, and then it is an I/O error that leaves
the caller's buffer alone. In both cases the volume is the one before, with its
reader moved over the same bytes.
-/

namespace FileVault

open Lib

namespace DecryptedVolume

/-- What `read_at` answers when its reader serves the image: the result and the buffer. -/
def answer (crates : Crates) (vol : DecryptedVolume) (image : Bytes) (offset : UInt64)
    (buf : Bytes) : Run Nat × Bytes :=
  if vol.size ≤ offset ∨ buf = [] then (.ok 0, buf)
  else
    match vol.sectorWindow offset.toNat buf.length with
    | .error stop => (.error stop, buf)
    | .ok window =>
        let region := sliceD image window.physical window.regionLen 0
        match copyWindow crates vol window offset.toNat region buf with
        | .error stop => (.error stop, buf)
        | .ok buf' => (.ok window.want, buf')

/-- The answer does not depend on the reader the volume has. -/
theorem answer_reader (crates : Crates) (vol : DecryptedVolume) (reader : Reader)
    (image : Bytes) (offset : UInt64) (buf : Bytes) :
    answer crates { vol with reader } image offset buf = answer crates vol image offset buf := rfl

/-- What a `read_at` does: it is served and gives the answer, or it ends in the I/O error
of the reader. -/
theorem readAt_outcome (crates : Crates) (vol : DecryptedVolume) (offset : UInt64)
    (buf : Bytes) :
    (∃ reader, vol.reader.Serves reader ∧ vol.readAt crates offset buf =
      ((answer crates vol vol.reader.data offset buf).1,
        (answer crates vol vol.reader.data offset buf).2, { vol with reader })) ∨
    ∃ e reader, vol.reader.FailedBefore reader ∧ reader.data = vol.reader.data ∧
      vol.readAt crates offset buf = (fail (.io e), buf, { vol with reader }) := by
  unfold readAt answer
  by_cases hguard : vol.size ≤ offset ∨ buf = []
  · simp only [if_pos hguard]
    exact .inl ⟨vol.reader, .refl _, rfl⟩
  simp only [if_neg hguard]
  cases hwindow : vol.sectorWindow offset.toNat buf.length with
  | error stop => exact .inl ⟨vol.reader, .refl _, rfl⟩
  | ok window =>
      obtain ⟨sought, reader₁, hseek⟩ : ∃ sought reader₁,
          vol.reader.seek window.physical = (sought, reader₁) := ⟨_, _, rfl⟩
      rcases Reader.seek_outcome hseek with ⟨serves, hpos, rfl⟩ | ⟨failed, hdata, e, rfl⟩
      swap
      · simp only [hseek]
        exact .inr ⟨e, reader₁, failed, hdata, rfl⟩
      rcases readFullOrEof_outcome reader₁
          (Nat.zero_le (List.replicate window.regionLen (0 : UInt8)).length) with
        ⟨reader₂, later, hread⟩ | ⟨e, region, reader₂, failed, hdata, hread⟩
      swap
      · simp only [hseek, hread]
        exact .inr ⟨e, reader₂, serves.failed failed, hdata.trans serves.data, rfl⟩
      rw [List.length_replicate, Nat.sub_zero, splice_replicate, hpos, serves.data] at hread
      simp only [hseek, hread]
      cases copyWindow crates vol window offset.toNat
          (sliceD vol.reader.data window.physical window.regionLen 0) buf with
      | error stop => exact .inl ⟨reader₂, serves.trans later, rfl⟩
      | ok copied => exact .inl ⟨reader₂, serves.trans later, rfl⟩

/-- Only the reader of the volume moves, and over the same bytes; a call that was not
served is an I/O error with the buffer untouched. -/
theorem readAt_serves (crates : Crates) (vol : DecryptedVolume) (offset : UInt64) (buf : Bytes) :
    (vol.readAt crates offset buf).2.2 =
        { vol with reader := (vol.readAt crates offset buf).2.2.reader } ∧
      (vol.readAt crates offset buf).2.2.reader.data = vol.reader.data ∧
      (vol.reader.Serves (vol.readAt crates offset buf).2.2.reader ∨
        ((∃ e, (vol.readAt crates offset buf).1 = fail (.io e)) ∧
          (vol.readAt crates offset buf).2.1 = buf)) := by
  rcases readAt_outcome crates vol offset buf with
    ⟨reader, serves, heq⟩ | ⟨e, reader, -, hdata, heq⟩
  · rw [heq]
    exact ⟨rfl, serves.data, .inl serves⟩
  · rw [heq]
    exact ⟨rfl, hdata, .inr ⟨⟨e, rfl⟩, rfl⟩⟩

/-- Over a healthy reader a `read_at` gives the answer. -/
theorem readAt_healthy (crates : Crates) (vol : DecryptedVolume) (healthy : vol.reader.Healthy)
    (offset : UInt64) (buf : Bytes) :
    (vol.readAt crates offset buf).1 = (answer crates vol vol.reader.data offset buf).1 ∧
      (vol.readAt crates offset buf).2.1 =
        (answer crates vol vol.reader.data offset buf).2 := by
  rcases readAt_outcome crates vol offset buf with ⟨reader, -, heq⟩ | ⟨_, _, failed, -⟩
  · rw [heq]
    exact ⟨rfl, rfl⟩
  · exact absurd failed healthy.not_failed

/-- Over healthy readers a `read_at` depends on the bytes that are served and on nothing
else about the reader. -/
theorem readAt_of_data (crates : Crates) (vol : DecryptedVolume) {reader reader' : Reader}
    (healthy : reader.Healthy) (healthy' : reader'.Healthy) (hdata : reader.data = reader'.data)
    (offset : UInt64) (buf : Bytes) :
    (({ vol with reader } : DecryptedVolume).readAt crates offset buf).1 =
        (({ vol with reader := reader' } : DecryptedVolume).readAt crates offset buf).1 ∧
      (({ vol with reader } : DecryptedVolume).readAt crates offset buf).2.1 =
        (({ vol with reader := reader' } : DecryptedVolume).readAt crates offset buf).2.1 := by
  obtain ⟨result, buffer⟩ := readAt_healthy crates { vol with reader } healthy offset buf
  obtain ⟨result', buffer'⟩ :=
    readAt_healthy crates { vol with reader := reader' } healthy' offset buf
  have same : answer crates { vol with reader } reader.data offset buf =
      answer crates { vol with reader := reader' } reader'.data offset buf := by
    rw [hdata, answer_reader crates vol reader]
    rfl
  exact ⟨result.trans ((congrArg Prod.fst same).trans result'.symm),
    buffer.trans ((congrArg Prod.snd same).trans buffer'.symm)⟩

end DecryptedVolume

/-- A volume whose reader delivers a short read, interrupts, and then fails. -/
def flakyVolume : DecryptedVolume where
  reader := ⟨List.replicate 2000 0x5a, 7, [.short 99, .interrupted, .fail 5 1234], []⟩
  keys := ⟨ByteArr.fill 16 0x20, ByteArr.fill 16 0x21⟩
  physicalBase := 512
  size := 1300
  position := 700

/-- The one failure of the flaky volume is the last of its answers. -/
theorem flakyVolume_failed {reader : Reader} (h : reader.reads = []) :
    flakyVolume.reader.FailedBefore reader :=
  .inl ⟨flakyVolume.reader.reads, by rw [h, List.append_nil], 5, 1234,
    show ReadStep.fail 5 1234 ∈ [.short 99, .interrupted, .fail 5 1234] by decide⟩

end FileVault
