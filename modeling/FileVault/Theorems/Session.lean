import FileVault.Theorems.Credentials
import FileVault.Theorems.FlakyDevice
import FileVault.Theorems.RoundTrip

/-!
# Sessions on a flaky device

A session opens a volume and then calls it. On a device that fails, opening gives what it gives in
memory or an I/O error, and after that the calls that are served make the run, in memory, of these
calls alone. So nothing a device does but hand out other bytes can change what a session sees.
-/

namespace FileVault

open Lib

/-! ## Opening -/

/-- The reader only ends up in the volume. -/
theorem openVolume_reader (crates : Crates) (password : String) (header : VolumeHeader)
    (plaintext : Bytes) (reader reader' : Reader) :
    openVolume crates password header plaintext reader' =
      (openVolume crates password header plaintext reader).map fun vol => vol.over reader' := by
  unfold openVolume
  cases EncryptionContext.extract crates plaintext with
  | error stop => rfl
  | ok context =>
  cases LogicalVolumeInfo.extract plaintext with
  | error stop => rfl
  | ok lv =>
  simp only [ok_bind]
  cases okOr (parseUuidBytes crates lv.familyUuid)
      (.metadataStructureMissing "parseable family UUID") with
  | error stop => rfl
  | ok family =>
  simp only [ok_bind]
  cases deriveVolumeKeys crates password context family with
  | error stop => rfl
  | ok keys =>
  simp only [ok_bind]
  cases resolveLvExtent plaintext header lv with
  | error stop => rfl
  | ok extent => rfl

theorem openVolume_ok_reader {crates : Crates} {password : String} {header : VolumeHeader}
    {plaintext : Bytes} {reader : Reader} {vol : FileVaultVolume}
    (h : openVolume crates password header plaintext reader = .ok vol) : vol.reader = reader := by
  have same := openVolume_reader crates password header plaintext reader reader
  rw [h] at same
  exact congrArg (fun vol : FileVaultVolume => vol.decrypted.reader) (Except.ok.inj same)

/-- An opened volume, and the same in memory over the same bytes. -/
def InMemory (vol mem : FileVaultVolume) : Prop :=
  ∃ reader, reader.Healthy ∧ reader.data = vol.reader.data ∧ mem = vol.over reader

/-- What opening gives in memory, for every password; or the I/O error of a device that had a
failure, for any. -/
theorem unlock_outcome (crates : Crates) (reader : Reader) :
    (∃ e, (∀ password, unlockWithPassword crates reader password = fail (.io e)) ∧
      0 < reader.faults) ∨
    ∀ password,
      (∃ stop, unlockWithPassword crates (.cursor reader.data) password = .error stop ∧
        unlockWithPassword crates reader password = .error stop) ∨
      ∃ vol mem, unlockWithPassword crates (.cursor reader.data) password = .ok mem ∧
        unlockWithPassword crates reader password = .ok vol ∧ InMemory vol mem ∧
        vol.reader.faults ≤ reader.faults := by
  rcases loadVolume_outcome crates reader with
    ⟨reader', serves, hload⟩ | ⟨e, reader', failed, hload⟩
  swap
  · refine .inl ⟨e, ?_, failed.faults_pos⟩
    intro password
    rw [unlockWithPassword_eq, hload]
    rfl
  right
  intro password
  obtain ⟨memReader, follows, hmem⟩ := unlockWithPassword_healthy crates
    (Reader.healthy_cursor reader.data) password
  have data : (Reader.cursor reader.data).data = reader.data := rfl
  rw [data] at hmem
  rw [unlockWithPassword_eq crates reader, hload, hmem]
  cases loadMetadata crates reader.data with
  | error stop => exact .inl ⟨stop, rfl, rfl⟩
  | ok found =>
      obtain ⟨header, plaintext⟩ := found
      simp only [ok_bind]
      rw [openVolume_reader crates password header plaintext reader' memReader]
      cases hopen : openVolume crates password header plaintext reader' with
      | error stop => exact .inl ⟨stop, rfl, rfl⟩
      | ok vol =>
          have opened := openVolume_ok_reader hopen
          refine .inr ⟨vol, _, rfl, rfl, ⟨memReader, follows.healthy, ?_, rfl⟩, ?_⟩
          · rw [opened, follows.data, serves.data, data]
          · rw [opened]
            exact serves.onward.faults_le

/-! ## Calling -/

/-- A call that fails has an I/O error for its result. -/
theorem failedCall_of_not_io {op : StreamOp} {result : Run Nat} {buf : Bytes}
    (h : ∀ e, result ≠ fail (.io e)) : failedCall op (.data result buf) = false := by
  cases result with
  | ok n => rfl
  | error stop =>
      cases stop with
      | panic => rfl
      | error e =>
          cases e with
          | io e => exact absurd rfl (h e)
          | _ => rfl

namespace DecryptedVolume

variable {crates : Crates} {vol : DecryptedVolume}

/-- A reader that serves the image is no cause for an I/O error. -/
theorem answer_not_io (crates : Crates) (vol : DecryptedVolume) (image : Bytes) (offset : UInt64)
    (buf : Bytes) (e : IoError) : (vol.answer crates image offset buf).1 ≠ fail (.io e) := by
  rcases vol.answer_cases crates offset buf with ⟨result, -, notIo, answer⟩ | ⟨n, -, -, answer⟩
  · rw [answer]
    exact notIo e
  · obtain ⟨bytes, hanswer, -⟩ := answer image
    rw [hanswer]
    simp [fail]

/-- No call on memory is a failed one. -/
theorem rested_fine (crates : Crates) (vol : DecryptedVolume) (op : StreamOp) :
    failedCall op (vol.rested.perform crates op).1 = false := by
  have never : ∀ offset buf e, (vol.rested.readAt crates offset buf).1 ≠ fail (.io e) := by
    intro offset buf e
    rw [(vol.rested.readAt_healthy crates (Reader.healthy_cursor _) offset buf).1]
    exact answer_not_io crates vol.rested _ offset buf e
  cases op with
  | seek pos => rfl
  | readAt offset buf => exact failedCall_of_not_io (never offset buf)
  | read buf =>
      rw [perform_read]
      exact failedCall_of_not_io (never vol.rested.position buf)

end DecryptedVolume

/-- Every step on a device is the step in memory, or a failure of the device. -/
theorem perform_inMemory (crates : Crates) :
    SimulatesUpTo failedCall (fun vol => vol.reader.faults) (FileVaultVolume.perform crates)
      (FileVaultVolume.perform crates) InMemory := by
  rintro vol mem ⟨memReader, healthy, data, rfl⟩ op
  have rested : (vol.over memReader).decrypted.rested = vol.decrypted.rested := by
    have data' : memReader.data = vol.decrypted.reader.data := data
    simp only [FileVaultVolume.over, DecryptedVolume.rested, data']
  rw [FileVaultVolume.perform_eq crates vol, FileVaultVolume.perform_eq crates (vol.over memReader)]
  rcases vol.decrypted.perform_outcome crates op with
    ⟨reader, serves, heq⟩ | ⟨e, reader, failed, onward, heq⟩
  · left
    rcases (vol.over memReader).decrypted.perform_outcome crates op with
      ⟨memReader', memServes, memEq⟩ | ⟨_, _, memFailed, -⟩
    swap
    · exact absurd memFailed healthy.not_failed
    rw [heq, memEq, rested]
    refine ⟨vol.decrypted.rested_fine crates op, rfl,
      ⟨memReader', (memServes.follows healthy).healthy, ?_, rfl⟩, serves.onward.faults_le⟩
    exact memServes.data.trans (data.trans serves.data.symm)
  · right
    rw [heq]
    exact ⟨by simp [failedCall, fail], ⟨memReader, healthy, data.trans onward.data.symm, rfl⟩,
      onward.faults_lt failed⟩

/-- On a device that may fail anywhere, a session either ends at once in an I/O error or opens as
it does in memory. The calls that are served then get the answers that they, made alone, get in
memory; the others are I/O errors that leave their buffers alone, and all in all there are no more
failures than the device has. -/
theorem session_flaky (crates : Crates) (reader : Reader) (password : String) :
    (∃ e, unlockWithPassword crates reader password = fail (.io e) ∧ 0 < reader.faults) ∨
    (∃ stop, unlockWithPassword crates (.cursor reader.data) password = .error stop ∧
      unlockWithPassword crates reader password = .error stop) ∨
    ∃ vol mem, unlockWithPassword crates (.cursor reader.data) password = .ok mem ∧
      unlockWithPassword crates reader password = .ok vol ∧ vol.info = mem.info ∧
      vol.size = mem.size ∧ ∀ ops,
        let run := transcript (FileVaultVolume.perform crates) vol ops
        (served failedCall run).map (·.2) =
            (runAll (FileVaultVolume.perform crates) mem ((served failedCall run).map (·.1))).1 ∧
          failures failedCall run ≤ reader.faults := by
  rcases unlock_outcome crates reader with ⟨e, hfail, faults⟩ | outcome
  · exact .inl ⟨e, hfail password, faults⟩
  rcases outcome password with stopped | ⟨vol, mem, hmem, hvol, related, faults⟩
  · exact .inr (.inl stopped)
  · obtain ⟨memReader, healthy, data, rfl⟩ := related
    refine .inr (.inr ⟨vol, _, hmem, hvol, rfl, rfl, ?_⟩)
    intro ops
    have start : InMemory vol (vol.over memReader) := ⟨memReader, healthy, data, rfl⟩
    have bounded := (perform_inMemory crates).failures_le start ops
    refine ⟨((perform_inMemory crates).served_run start ops).1, ?_⟩
    exact (Nat.le_add_right _ _).trans (bounded.trans faults)

/-- A built image, opened with its password: unless the device fails there, the volume reads as a
cursor over the plaintext the image was built from. -/
theorem unlock_buildImage_outcome {crates : Crates} (lawful : crates.Lawful) {p : Fixture}
    (h : p.WellFormed crates) {reader : Reader} (hdata : reader.data = p.buildImage crates) :
    (∃ e, (∀ password, unlockWithPassword crates reader password = fail (.io e)) ∧
      0 < reader.faults) ∨
    ∃ vol, unlockWithPassword crates reader p.password = .ok vol ∧ vol.size = p.lvSize ∧
      Presents crates (p.info crates) vol ⟨p.lvPlain.take p.lvSize.toNat, 0⟩ ∧
      vol.reader.faults ≤ reader.faults := by
  obtain ⟨mem, hmem, hinfo, hsize, stands⟩ := h.standsFor lawful
    (Reader.healthy_cursor (p.buildImage crates)) rfl
  rcases unlock_outcome crates reader with failed | outcome
  · exact .inl failed
  rcases outcome p.password with ⟨stop, hstop, -⟩ | ⟨vol, mem', hmem', hvol, related, faults⟩
  · rw [hdata, hmem] at hstop
    cases hstop
  rw [hdata, hmem] at hmem'
  obtain rfl := Except.ok.inj hmem'
  obtain ⟨memReader, -, data, rfl⟩ := related
  refine .inr ⟨vol, hvol, hsize, ⟨stands.fits, ?_, hinfo⟩, faults⟩
  have data' : memReader.data = vol.decrypted.reader.data := data
  rw [stands.cursor]
  simp only [DecryptedVolume.cursor, FileVaultVolume.over, data']

/-- A built image on a device that may fail anywhere: with its password it opens, unless the device
fails there, and every call that is served afterwards is answered from the plaintext the image was
built from, as a cursor at its start would. -/
theorem session_buildImage {crates : Crates} (lawful : crates.Lawful) {p : Fixture}
    (h : p.WellFormed crates) {reader : Reader} (hdata : reader.data = p.buildImage crates) :
    (∃ e, unlockWithPassword crates reader p.password = fail (.io e) ∧ 0 < reader.faults) ∨
    ∃ vol, unlockWithPassword crates reader p.password = .ok vol ∧ vol.size = p.lvSize ∧
      vol.info = p.info crates ∧ ∀ ops,
        let run := transcript (FileVaultVolume.perform crates) vol ops
        (served failedCall run).map (·.2) =
            (runAll StreamCursor.perform ⟨p.lvPlain.take p.lvSize.toNat, 0⟩
              ((served failedCall run).map (·.1))).1 ∧
          failures failedCall run ≤ reader.faults := by
  rcases unlock_buildImage_outcome lawful h hdata with
    ⟨e, hfail, faults⟩ | ⟨vol, hvol, hsize, start, faults⟩
  · exact .inl ⟨e, hfail p.password, faults⟩
  refine .inr ⟨vol, hvol, hsize, start.info, ?_⟩
  intro ops
  have sim := FileVaultVolume.perform_simulates crates (p.info crates)
  have bounded := sim.failures_le start ops
  exact ⟨(sim.served_run start ops).1, (Nat.le_add_right _ _).trans (bounded.trans faults)⟩

/-- The synthetic image on a device that interrupts and serves short reads, but does not fail. -/
theorem session_synthetic :
    let reader : Reader := ⟨Fixture.synthetic.buildImage standardCrates, 7,
      [.interrupted, .short 100, .short 0, .interrupted, .short 4000], [.ok, .ok]⟩
    ∃ vol, unlockWithPassword standardCrates reader Fixture.synthetic.password = .ok vol ∧
      vol.size = Fixture.synthetic.lvSize ∧ vol.info = Fixture.synthetic.info standardCrates ∧
      ∀ ops,
        let run := transcript (FileVaultVolume.perform standardCrates) vol ops
        (served failedCall run).map (·.2) =
            (runAll StreamCursor.perform
              ⟨Fixture.synthetic.lvPlain.take Fixture.synthetic.lvSize.toNat, 0⟩
              ((served failedCall run).map (·.1))).1 ∧
          failures failedCall run ≤ reader.faults := by
  intro reader
  have sound : reader.faults = 0 := rfl
  rcases session_buildImage standardCrates_lawful Fixture.synthetic_wellFormed
      (show reader.data = Fixture.synthetic.buildImage standardCrates from rfl) with
    ⟨e, -, faults⟩ | session
  · rw [sound] at faults
    exact absurd faults (Nat.lt_irrefl 0)
  · exact session

/-! ## Through the adapter -/

/-- A built image panics no attempt, whatever the password and the device. -/
theorem unlock_buildImage_calm {crates : Crates} (lawful : crates.Lawful) {p : Fixture}
    (h : p.WellFormed crates) {reader : Reader} (hdata : reader.data = p.buildImage crates)
    (password : String) : unlockWithPassword crates reader password ≠ panicked := by
  obtain ⟨mem, hmem, -⟩ := h.standsFor lawful (Reader.healthy_cursor (p.buildImage crates)) rfl
  intro panics
  have ragged : RaggedMetadata reader.data :=
    ((unlock_panicked_iff crates reader password).mp panics).1
  rw [hdata] at ragged
  have inMemory := (raggedView_healthy crates (Reader.healthy_cursor (p.buildImage crates))).mpr
    ragged
  rw [(unlock_panicked_iff crates _ p.password).mpr inMemory] at hmem
  cases hmem

/-- The device fails while the password is tried. -/
def FailedAttempt (crates : Crates) (password : String) (view : Reader) : Prop :=
  (∃ e, unlockWithPassword crates view password = fail (.io e)) ∧ 0 < view.faults

/-- The password of a built image unlocks it unless the device fails. -/
theorem failedAttempt_of_fails {crates : Crates} (lawful : crates.Lawful) {p : Fixture}
    (h : p.WellFormed crates) {view : Reader} (hdata : view.data = p.buildImage crates)
    (fails : ∃ e, unlockWithPassword crates view p.password = fail e) :
    FailedAttempt crates p.password view := by
  obtain ⟨e, hfail⟩ := fails
  rcases unlock_buildImage_outcome lawful h hdata with ⟨io, hio, faults⟩ | ⟨vol, hvol, -⟩
  · exact ⟨⟨io, hio p.password⟩, faults⟩
  · rw [hfail] at hvol
    cases hvol

/-- A layer over a built image, on a device that may fail each attempt in a way of its own, opened
with credentials of which only the image's password unlocks it. The first attempt with it in which
the device does not fail gives the source, of the volume's size; however the calls of its clients
come in between one another, each of them gives the plaintext the image was built from, or uses up
a failure of the device. Without such an attempt the error of the last one is left. -/
theorem layer_buildImage {Other Client : Type} [DecidableEq Client] {crates : Crates}
    (lawful : crates.Lawful) (ioText : IoError → String) {p : Fixture} (h : p.WellFormed crates)
    {view : Nat → Reader} (hdata : ∀ n, (view n).data = p.buildImage crates)
    {creds : List (Credential Other)}
    (only : ∀ q ∈ passwords creds, q ≠ p.password →
      ∀ vol, unlockWithPassword crates (.cursor (p.buildImage crates)) q ≠ .ok vol) :
    let ps := passwords creds
    let opened := FileVaultLayer.openOver crates ioText view fun _ _ => creds
    (∃ n vol, ps[n]? = some p.password ∧ unlockWithPassword crates (view n) p.password = .ok vol ∧
      (∀ m < n, ps[m]? = some p.password → FailedAttempt crates p.password (view m)) ∧
      opened = .ok (.new vol) ∧ vol.size = p.lvSize ∧
      ∀ system : Guarded.System FileVaultVolume (UInt64 × Bytes) (VfsRun Nat × Bytes) Client,
        Guarded.Reachable (FileVaultSource.guarded crates ioText vol.size) vol system →
        (∀ entry ∈ system.history,
          Exact (p.lvPlain.take p.lvSize.toNat) entry ∨ IoFailed ioText entry) ∧
        system.history.countP erred ≤ (view n).faults) ∨
    ((∀ n, ps[n]? = some p.password → FailedAttempt crates p.password (view n)) ∧
      (ps = [] → opened = .error (.error FileVaultLayer.needCredentials)) ∧
      ∀ n q, ps[n]? = some q → n + 1 = ps.length →
        ∃ e, unlockWithPassword crates (view n) q = fail e ∧
          opened = .error (.error (mapFvdeErr ioText e))) := by
  dsimp only
  have opens : FileVaultLayer.openOver crates ioText view (fun _ _ => creds) =
      FileVaultLayer.tryEach crates ioText view creds none := by
    cases creds with
    | nil => rfl
    | cons cred creds => rfl
  rw [opens]
  have calm n := unlock_buildImage_calm lawful h (hdata n)
  rcases tryEach_outcome crates ioText calm creds none with
    ⟨n, q, vol, hq, hvol, before, hopen⟩ | ⟨fails, err, hopen, none_left, last⟩
  · -- what opens on the device opens in memory, so it can only be the image's password
    obtain rfl : q = p.password := by
      by_contra hne
      rcases unlock_outcome crates (view n) with ⟨e, hfail, -⟩ | outcome
      · rw [hfail q] at hvol
        cases hvol
      rcases outcome q with ⟨stop, -, hstop⟩ | ⟨_, mem, hmem, -⟩
      · rw [hstop] at hvol
        cases hvol
      · rw [hdata n] at hmem
        exact only q (List.mem_of_getElem? hq) hne mem hmem
    rcases unlock_buildImage_outcome lawful h (hdata n) with
      ⟨e, hfail, -⟩ | ⟨vol', hvol', hsize, presents, faults⟩
    · rw [hfail] at hvol
      cases hvol
    obtain rfl := Except.ok.inj (hvol.symm.trans hvol')
    refine .inl ⟨n, vol, hq, hvol, ?_, hopen, hsize, ?_⟩
    · intro m hm hpassword
      exact failedAttempt_of_fails lawful h (hdata m) (before m hm _ hpassword)
    · intro system reached
      obtain ⟨answers, bound⟩ := serial_flaky crates ioText presents.fits reached.serial
      rw [← presents.cursor] at answers
      exact ⟨answers, (Nat.le_add_right _ _).trans (bound.trans faults)⟩
  · refine .inr ⟨?_, ?_, ?_⟩
    · intro n hpassword
      exact failedAttempt_of_fails lawful h (hdata n) (fails n _ hpassword)
    · intro hps
      rw [hopen, none_left hps]
      rfl
    · intro n q hq hlast
      obtain ⟨e, herr, hfail⟩ := last n q hq hlast
      exact ⟨e, hfail, by rw [hopen, herr]; rfl⟩

/-- A device that fails the first seek of the first attempt, and then serves short reads. -/
def recoveringView (image : Bytes) : Nat → Reader
  | 0 => ⟨image, 0, [], [.fail 5 1234]⟩
  | _ => ⟨image, 0, [.short 100, .interrupted], []⟩

/-- The synthetic image on such a device, with its password offered twice: the second attempt
opens. -/
theorem layer_synthetic :
    let image := Fixture.synthetic.buildImage standardCrates
    let creds : List (Credential Unit) := [.other (), .password Fixture.synthetic.password,
      .password Fixture.synthetic.password]
    ∃ n vol, (passwords creds)[n]? = some Fixture.synthetic.password ∧
      unlockWithPassword standardCrates (recoveringView image n) Fixture.synthetic.password =
        .ok vol ∧
      (∀ m < n, (passwords creds)[m]? = some Fixture.synthetic.password →
        FailedAttempt standardCrates Fixture.synthetic.password (recoveringView image m)) ∧
      FileVaultLayer.openOver standardCrates (fun _ => "") (recoveringView image)
        (fun _ _ => creds) = .ok (.new vol) ∧
      vol.size = Fixture.synthetic.lvSize ∧
      ∀ system : Guarded.System FileVaultVolume (UInt64 × Bytes) (VfsRun Nat × Bytes) Bool,
        Guarded.Reachable (FileVaultSource.guarded standardCrates (fun _ => "") vol.size) vol
          system →
        (∀ entry ∈ system.history,
          Exact (Fixture.synthetic.lvPlain.take Fixture.synthetic.lvSize.toNat) entry ∨
            IoFailed (fun _ => "") entry) ∧
        system.history.countP erred ≤ (recoveringView image n).faults := by
  intro image creds
  have same : ∀ n, (recoveringView image n).data = image := by
    intro n
    cases n <;> rfl
  have only : ∀ q ∈ passwords creds, q ≠ Fixture.synthetic.password →
      ∀ vol, unlockWithPassword standardCrates (.cursor image) q ≠ .ok vol := by
    intro q hq hne
    exact absurd (by simpa [creds, passwords] using hq) hne
  rcases @layer_buildImage Unit Bool _ _ standardCrates_lawful (fun _ => "") _
      Fixture.synthetic_wellFormed _ same _ only with opens | ⟨failed, -⟩
  · exact opens
  · -- the second attempt meets no failure
    have second := (failed 1 rfl).2
    exact absurd second (Nat.lt_irrefl 0)

end FileVault
