import FileVault.Lib.Faulty
import FileVault.Logic.Faults
import FileVault.Theorems.Interleaved
import FileVault.Theorems.Retry
import FileVault.Theorems.Stream

/-!
# Volumes on a flaky device

The backing reader may fail at any point, as often as its plan says. Every call on an opened volume
is then either answered as a cursor over the plaintext answers it, or an I/O error that changes
nothing, and each error uses up a failure of the device. So over any run the served calls alone
make a run of the cursor, however many calls in between have failed.
-/

namespace FileVault

open Lib

/-- The opened volume as a machine. -/
def FileVaultVolume.perform (crates : Crates) (vol : FileVaultVolume) :
    StreamOp → StreamReply × FileVaultVolume
  | .read buf =>
      let (result, buf', vol') := vol.read crates buf
      (.data result buf', vol')
  | .readAt offset buf =>
      let (result, buf', vol') := vol.readAt crates offset buf
      (.data result buf', vol')
  | .seek pos =>
      let (new, vol') := vol.seek pos
      (.position new, vol')

/-- The caller's buffer; a seek has none. -/
def StreamOp.buffer : StreamOp → Bytes
  | .read buf => buf
  | .readAt _ buf => buf
  | .seek _ => []

/-- The call ended in an I/O error that left the caller's buffer as it was. -/
def failedCall (op : StreamOp) : StreamReply → Bool
  | .data (.error (.error (.io _))) buf => buf = op.buffer
  | _ => false

/-- The opened volume does what the decrypted one in it does. -/
theorem FileVaultVolume.perform_eq (crates : Crates) (vol : FileVaultVolume) (op : StreamOp) :
    vol.perform crates op = ((vol.decrypted.perform crates op).1,
      { vol with decrypted := (vol.decrypted.perform crates op).2 }) := by
  cases op with
  | read buf => rfl
  | readAt offset buf => rfl
  | seek pos => rfl

/-! ## One call -/

namespace DecryptedVolume

/-- A `read` replies what a `read_at` at the position does. -/
theorem perform_read (crates : Crates) (vol : DecryptedVolume) (buf : Bytes) :
    (vol.perform crates (.read buf)).1 =
      .data (vol.readAt crates vol.position buf).1 (vol.readAt crates vol.position buf).2.1 := by
  simp only [DecryptedVolume.perform, read_eq]
  cases hread : (vol.readAt crates vol.position buf).1 with
  | error stop => rfl
  | ok n =>
      simp only
      rw [uadd_eq (readAt_below hread)]

/-- A `read` moves the position by what it has read. -/
theorem read_position (crates : Crates) (vol : DecryptedVolume) (buf : Bytes) :
    (vol.perform crates (.read buf)).2.position =
      .ofNat (vol.position.toNat + bytesRead (vol.readAt crates vol.position buf).1) := by
  simp only [DecryptedVolume.perform, read_eq]
  cases hread : (vol.readAt crates vol.position buf).1 with
  | error stop =>
      simp only [readAt_position, bytesRead, Nat.add_zero]
      exact UInt64.ofNat_toNat.symm
  | ok n =>
      simp only
      rw [uadd_eq (readAt_below hread)]
      rfl

/-- The volume over an in-memory reader of the same bytes. -/
def rested (vol : DecryptedVolume) : DecryptedVolume :=
  { vol with reader := .cursor vol.reader.data }

/-- A `read_at` that is served gives what it gives in memory. -/
theorem readAt_rested (crates : Crates) (vol : DecryptedVolume) (offset : UInt64) (buf : Bytes) :
    (∃ reader, vol.reader.Serves reader ∧ vol.readAt crates offset buf =
      ((vol.rested.readAt crates offset buf).1, (vol.rested.readAt crates offset buf).2.1,
        { vol with reader })) ∨
    ∃ e reader, vol.reader.FailedBefore reader ∧ vol.reader.Onward reader ∧
      vol.readAt crates offset buf = (fail (.io e), buf, { vol with reader }) := by
  have onward := vol.readAt_onward crates offset buf
  obtain ⟨result, buffer⟩ := vol.rested.readAt_healthy crates
    (Reader.healthy_cursor vol.reader.data) offset buf
  rcases vol.readAt_outcome crates offset buf with
    ⟨reader, serves, heq⟩ | ⟨e, reader, failed, -, heq⟩
  · refine .inl ⟨reader, serves, ?_⟩
    rw [heq, result, buffer]
    rfl
  · rw [heq] at onward
    exact .inr ⟨e, reader, failed, onward, heq⟩

/-- A `read` that is served is the one in memory, and moves the position as far. -/
theorem read_rested (crates : Crates) (vol : DecryptedVolume) (buf : Bytes) :
    (∃ reader, vol.reader.Serves reader ∧ vol.read crates buf =
      ((vol.rested.read crates buf).1, (vol.rested.read crates buf).2.1,
        { vol with reader, position := (vol.rested.read crates buf).2.2.position })) ∨
    ∃ e reader, vol.reader.FailedBefore reader ∧ vol.reader.Onward reader ∧
      vol.read crates buf = (fail (.io e), buf, { vol with reader }) := by
  have unmoved := readAt_position crates vol.rested vol.position buf
  rw [read_eq crates vol, read_eq crates vol.rested]
  rcases vol.readAt_rested crates vol.position buf with
    ⟨reader, serves, heq⟩ | ⟨e, reader, failed, onward, heq⟩
  · refine .inl ⟨reader, serves, ?_⟩
    rw [heq]
    cases hresult : (vol.rested.readAt crates vol.position buf).1 with
    | error stop =>
        simp only [rested] at hresult unmoved ⊢
        simp only [hresult, unmoved]
    | ok n =>
        simp only [rested] at hresult unmoved ⊢
        simp only [hresult]
        cases uadd vol.position.toNat n with
        | error stop => simp only [unmoved]
        | ok position => rfl
  · refine .inr ⟨e, reader, failed, onward, ?_⟩
    rw [heq]
    rfl

/-- A call that is served is answered as in memory, and moves the position as far; any other is an
I/O error that leaves all but the reader alone. -/
theorem perform_outcome (crates : Crates) (vol : DecryptedVolume) (op : StreamOp) :
    (∃ reader, vol.reader.Serves reader ∧ vol.perform crates op =
      ((vol.rested.perform crates op).1,
        { vol with reader, position := (vol.rested.perform crates op).2.position })) ∨
    ∃ e reader, vol.reader.FailedBefore reader ∧ vol.reader.Onward reader ∧
      vol.perform crates op = (.data (fail (.io e)) op.buffer, { vol with reader }) := by
  cases op with
  | read buf =>
      rcases vol.read_rested crates buf with
        ⟨reader, serves, heq⟩ | ⟨e, reader, failed, onward, heq⟩
      · refine .inl ⟨reader, serves, ?_⟩
        simp only [perform, heq]
      · refine .inr ⟨e, reader, failed, onward, ?_⟩
        simp only [perform, heq]
        rfl
  | readAt offset buf =>
      have unmoved := readAt_position crates vol.rested offset buf
      rcases vol.readAt_rested crates offset buf with
        ⟨reader, serves, heq⟩ | ⟨e, reader, failed, onward, heq⟩
      · refine .inl ⟨reader, serves, ?_⟩
        simp only [perform, heq, unmoved]
        rfl
      · refine .inr ⟨e, reader, failed, onward, ?_⟩
        simp only [perform, heq]
        rfl
  | seek pos =>
      refine .inl ⟨vol.reader, .refl _, ?_⟩
      simp only [perform, seek_eq crates]
      by_cases hrange : 0 ≤ (vol.cursor crates).target pos ∧ (vol.cursor crates).target pos < 2 ^ 64
      · have same : (vol.rested.cursor crates).target pos = (vol.cursor crates).target pos := rfl
        rw [if_pos hrange, if_pos (same ▸ hrange)]
        rfl
      · have same : (vol.rested.cursor crates).target pos = (vol.cursor crates).target pos := rfl
        rw [if_neg hrange, if_neg (same ▸ hrange)]
        rfl

end DecryptedVolume

/-! ## Up to failures a volume is a cursor -/

/-- The volume reads as this cursor does, and describes itself so. -/
structure Presents (crates : Crates) (info : FileVaultInfo) (vol : FileVaultVolume)
    (cursor : StreamCursor) : Prop where
  fits : vol.decrypted.Fits
  cursor : cursor = vol.decrypted.cursor crates
  info : vol.info = info

theorem StreamCursor.perform_data (cursor : StreamCursor) (op : StreamOp) :
    (cursor.perform op).2.data = cursor.data := by
  cases op with
  | read buf => rfl
  | readAt offset buf => rfl
  | seek pos =>
      simp only [perform]
      split
      · rfl
      · rfl

/-- A cursor never fails. -/
theorem StreamCursor.perform_fine (cursor : StreamCursor) (op : StreamOp) :
    failedCall op (cursor.perform op).1 = false := by
  cases op with
  | read buf => rfl
  | readAt offset buf => rfl
  | seek pos =>
      simp only [perform]
      split
      · rfl
      · rfl

/-- Every step of an opened volume is the step of the cursor, or a failure of the device. -/
theorem FileVaultVolume.perform_simulates (crates : Crates) (info : FileVaultInfo) :
    SimulatesUpTo failedCall (fun vol => vol.reader.faults) (FileVaultVolume.perform crates)
      StreamCursor.perform (Presents crates info) := by
  intro vol cursor h op
  rw [FileVaultVolume.perform_eq]
  rcases vol.decrypted.perform_outcome crates op with
    ⟨reader, serves, heq⟩ | ⟨e, reader, failed, onward, heq⟩
  · left
    have rested : StandsFor crates vol.decrypted.rested cursor :=
      ⟨Reader.healthy_cursor _, h.fits, h.cursor⟩
    obtain ⟨answer, next⟩ := FileVault.perform_simulates crates _ _ rested op
    have position := congrArg StreamCursor.position next.cursor
    rw [heq]
    refine ⟨?_, answer, ⟨h.fits, ?_, h.info⟩, serves.onward.faults_le⟩
    · simp only [answer]
      exact cursor.perform_fine op
    · -- the bytes are the same, and the positions have moved alike
      have data : (cursor.perform op).2.data = (vol.decrypted.cursor crates).data := by
        rw [StreamCursor.perform_data, h.cursor]
      calc (cursor.perform op).2
          = ⟨(cursor.perform op).2.data, (cursor.perform op).2.position⟩ := rfl
        _ = _ := by
          rw [data, position]
          simp only [DecryptedVolume.cursor, serves.data]
  · right
    rw [heq]
    refine ⟨by simp [failedCall, fail], ⟨h.fits, ?_, h.info⟩, onward.faults_lt failed⟩
    rw [h.cursor]
    simp only [DecryptedVolume.cursor, onward.data]

/-- Over any device, every run of an opened volume comes down to a run of the cursor over its
plaintext: that of the calls that were served. The calls that were not are I/O errors that left
their buffers alone, no more of them than the device had failures; the description is the same at
the end, and the stream inside stands where the cursor does. -/
theorem flaky_run_served (crates : Crates) (vol : FileVaultVolume) (fits : vol.decrypted.Fits)
    (ops : List StreamOp) :
    let run := transcript (FileVaultVolume.perform crates) vol ops
    let vol' := (runAll (FileVaultVolume.perform crates) vol ops).2
    let cursor' := runAll StreamCursor.perform (vol.decrypted.cursor crates)
      ((served failedCall run).map (·.1))
    (served failedCall run).map (·.2) = cursor'.1 ∧
      vol'.intoDecrypted.cursor crates = cursor'.2 ∧ vol'.info = vol.info ∧
      failures failedCall run + vol'.reader.faults ≤ vol.reader.faults := by
  have sim := FileVaultVolume.perform_simulates crates vol.info
  have start : Presents crates vol.info vol (vol.decrypted.cursor crates) := ⟨fits, rfl, rfl⟩
  obtain ⟨answers, last⟩ := sim.served_run start ops
  exact ⟨answers, last.cursor.symm, last.info, sim.failures_le start ops⟩

/-- A run over the flaky volume, of which one call fails. -/
def flakyOps : List StreamOp :=
  [.readAt 512 [4, 5], .seek (.start 700), .read [1, 2, 3], .seek (.fromEnd (-2000))]

theorem flakyOpened_run_served :
    failures failedCall (transcript (FileVaultVolume.perform standardCrates) flakyOpened flakyOps) =
        1 ∧
      let run := transcript (FileVaultVolume.perform standardCrates) flakyOpened flakyOps
      let vol' := (runAll (FileVaultVolume.perform standardCrates) flakyOpened flakyOps).2
      let cursor' := runAll StreamCursor.perform (flakyOpened.decrypted.cursor standardCrates)
        ((served failedCall run).map (·.1))
      (served failedCall run).map (·.2) = cursor'.1 ∧
        vol'.intoDecrypted.cursor standardCrates = cursor'.2 ∧ vol'.info = flakyOpened.info ∧
        failures failedCall run + vol'.reader.faults ≤ flakyOpened.reader.faults :=
  ⟨by decide +kernel, flaky_run_served standardCrates flakyOpened
    (by unfold DecryptedVolume.Fits; decide) flakyOps⟩

/-! ## Any number of clients -/

/-- A call of the adapter takes the reader onward. -/
theorem FileVaultSource.readAt_onward (crates : Crates) (ioText : IoError → String)
    (vol : FileVaultVolume) (offset : UInt64) (buf : Bytes) :
    vol.reader.Onward ((new vol).readAt crates ioText offset buf).2.2.inner.reader := by
  unfold readAt
  cases wanted (new vol).len offset buf with
  | none => exact .refl _
  | some want => exact vol.decrypted.readAt_onward crates offset (slice buf 0 want)

/-- What the volume as it was opened answers, where all its sectors have an address. -/
theorem answer_cursor (crates : Crates) {vol : DecryptedVolume} (fits : vol.Fits) (offset : UInt64)
    (buf : Bytes) : vol.answer crates vol.reader.data offset buf =
      (.ok (slice (vol.cursor crates).data offset.toNat buf.length).length,
        splice buf 0 (slice (vol.cursor crates).data offset.toNat buf.length)) := by
  have healthy : vol.rested.reader.Healthy := Reader.healthy_cursor vol.reader.data
  obtain ⟨result, buffer⟩ := vol.rested.readAt_healthy crates healthy offset buf
  obtain ⟨reader', -, hread⟩ := readAt_cursor crates healthy fits offset buf
  rw [hread] at result buffer
  exact Prod.ext result.symm buffer.symm

/-- The call gave the bytes of the plaintext. -/
def Exact (plain : Bytes) {Client : Type} (entry : FinishedRead Client) : Prop :=
  entry.reply = (.ok (slice plain entry.call.1.toNat entry.call.2.length).length,
    splice entry.call.2 0 (slice plain entry.call.1.toNat entry.call.2.length))

/-- The call ended in the error that an I/O error is mapped to, and left its buffer alone. -/
def IoFailed (ioText : IoError → String) {Client : Type} (entry : FinishedRead Client) : Prop :=
  ∃ e, entry.reply = (.error (.error (mapFvdeErr ioText (.io e))), entry.call.2)

/-- The call did not give a count. -/
def erred {Client : Type} (entry : FinishedRead Client) : Bool := !entry.reply.1.isOk

/-- One call, on whatever the calls before it have left. -/
theorem apply_flaky {Client : Type} (crates : Crates) (ioText : IoError → String)
    {vol vol' : FileVaultVolume} (fits : vol.decrypted.Fits) (undisturbed : Undisturbed vol vol')
    (c : Client) (call : UInt64 × Bytes) :
    let after := (FileVaultSource.guarded crates ioText vol.size).apply vol' call
    let entry : FinishedRead Client := ⟨c, call, after.1, vol', after.2⟩
    (Exact (vol.decrypted.cursor crates).data entry ∨ IoFailed ioText entry) ∧
      after.2.reader.faults ≤ vol'.reader.faults ∧
      (erred entry = true → after.2.reader.faults < vol'.reader.faults) := by
  obtain ⟨offset, buf⟩ := call
  obtain ⟨state, hdata⟩ := undisturbed
  have source : (⟨vol', vol.size⟩ : FileVaultSource) = .new vol' := by
    rw [state]
    rfl
  have fits' : vol'.decrypted.Fits := by
    rw [state]
    exact fits
  -- the bytes behind the volume are those it was opened over
  have plain : (vol'.decrypted.cursor crates).data = (vol.decrypted.cursor crates).data := by
    have hdata' : vol'.decrypted.reader.data = vol.decrypted.reader.data := hdata
    simp only [DecryptedVolume.cursor, hdata']
    rw [state]
    rfl
  have onward := FileVaultSource.readAt_onward crates ioText vol' offset buf
  dsimp only
  rw [FileVaultSource.guarded_apply, source]
  rcases FileVaultSource.readAt_outcome crates ioText vol' offset buf with
    ⟨reader, serves, heq⟩ | ⟨e, reader, failed, -, heq⟩
  · have answer := answer_cursor crates fits' offset buf
    rw [plain] at answer
    rw [heq, show vol'.reader.data = vol'.decrypted.reader.data from rfl, answer]
    refine ⟨.inl rfl, serves.onward.faults_le, ?_⟩
    intro h
    cases h
  · rw [heq] at onward ⊢
    exact ⟨.inr ⟨e, rfl⟩, onward.faults_le, fun _ => onward.faults_lt failed⟩

/-- Calls one after the other each give the plaintext or an I/O error, and every error uses up a
failure of the device. -/
theorem serial_flaky {Client : Type} (crates : Crates) (ioText : IoError → String)
    {vol vol' : FileVaultVolume} (fits : vol.decrypted.Fits) {history : List (FinishedRead Client)}
    (serial : Guarded.Serial (FileVaultSource.guarded crates ioText vol.size) vol history vol') :
    (∀ entry ∈ history, Exact (vol.decrypted.cursor crates).data entry ∨ IoFailed ioText entry) ∧
      history.countP erred + vol'.reader.faults ≤ vol.reader.faults := by
  have init : Undisturbed vol vol := ⟨rfl, rfl⟩
  have keeps : ∀ vol' (c : Client) call, Undisturbed vol vol' →
      Undisturbed vol ((FileVaultSource.guarded crates ioText vol.size).apply vol' call).2 :=
    fun _ c call undisturbed => (apply_independent crates ioText undisturbed c call).1
  constructor
  · refine (serial.invariant (Undisturbed vol)
      (fun entry => Exact (vol.decrypted.cursor crates).data entry ∨ IoFailed ioText entry) init
      ?_).2
    intro vol' c call undisturbed
    exact ⟨keeps vol' c call undisturbed, (apply_flaky crates ioText fits undisturbed c call).1⟩
  · have bounded := (serial.bounded (Undisturbed vol) (fun entry => erred entry = true)
      (fun vol => vol.reader.faults) init ?_).2
    · simp only [Bool.decide_eq_true] at bounded
      exact bounded
    · intro vol' c call undisturbed
      exact ⟨keeps vol' c call undisturbed, (apply_flaky crates ioText fits undisturbed c call).2⟩

/-- Whatever the clients do over a flaky device, every finished call gave the plaintext it asked
for or an I/O error, and there were no more errors than the device had failures: whoever repeats
a call often enough gets its bytes. -/
theorem interleaved_flaky {Client : Type} [DecidableEq Client] (crates : Crates)
    (ioText : IoError → String) (vol : FileVaultVolume) (fits : vol.decrypted.Fits)
    {system : Guarded.System FileVaultVolume (UInt64 × Bytes) (VfsRun Nat × Bytes) Client}
    (h : Guarded.Reachable
      (FileVaultSource.guarded crates ioText (FileVaultSource.new vol).len) vol system) :
    (∀ entry ∈ system.history,
      Exact (vol.decrypted.cursor crates).data entry ∨ IoFailed ioText entry) ∧
      system.history.countP erred ≤ vol.reader.faults := by
  obtain ⟨answers, bound⟩ := serial_flaky crates ioText fits h.serial
  exact ⟨answers, (Nat.le_add_right _ _).trans bound⟩

/-- Two clients, of whom the first meets the failure. -/
theorem flakyOpened_interleaved_bound :
    ∃ system : Guarded.System FileVaultVolume (UInt64 × Bytes) (VfsRun Nat × Bytes) Bool,
      system.history.map erred = [true, false] ∧
      (∀ entry ∈ system.history, Exact (flakyOpened.decrypted.cursor standardCrates).data entry ∨
        IoFailed (fun _ => "") entry) ∧
      system.history.countP erred ≤ flakyOpened.reader.faults := by
  have opened : Guarded.Reachable
      (FileVaultSource.guarded standardCrates (fun _ => "") (FileVaultSource.new flakyOpened).len)
      flakyOpened (.start flakyOpened : Guarded.System _ _ _ Bool) := .start
  have invoked := (opened.step (.invoke false (512, [1, 2, 3]) rfl)).step
    (.invoke true (40, [4, 5]) rfl)
  have failed := (invoked.step (.acquire true rfl rfl rfl)).step (.release true rfl rfl)
  have answered := (failed.step (.acquire false rfl rfl rfl)).step (.release false rfl rfl)
  exact ⟨_, by decide +kernel, interleaved_flaky standardCrates _ flakyOpened
    (by unfold DecryptedVolume.Fits; decide) answered⟩

end FileVault
