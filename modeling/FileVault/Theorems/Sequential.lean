import FileVault.Theorems.FlakyDevice

/-!
# Reading on and on

A client that calls `read` again and again, whatever its buffers and whichever of the calls fail,
is delivered the plaintext from where the stream stood: no byte is left out, none comes twice. With
one call for every byte that is left and one for every failure the device has, it gets all of it.
-/

namespace FileVault

open Lib

/-- The bytes that a call gave. -/
def delivered : StreamReply → Bytes
  | .data (.ok n) buf => buf.take n
  | _ => []

/-- All that the calls of a run gave, one after the other. -/
def allDelivered (run : List (StreamOp × StreamReply)) : Bytes :=
  run.flatMap fun entry => delivered entry.2

theorem delivered_of_failed {op : StreamOp} {reply : StreamReply}
    (h : failedCall op reply = true) : delivered reply = [] := by
  cases reply with
  | position new => rfl
  | data result buf =>
      cases result with
      | ok n => simp [failedCall] at h
      | error stop => rfl

/-- Failures give nothing. -/
theorem allDelivered_served (run : List (StreamOp × StreamReply)) :
    allDelivered (served failedCall run) = allDelivered run := by
  induction run with
  | nil => rfl
  | cons entry run ih =>
      obtain ⟨op, reply⟩ := entry
      unfold allDelivered at ih ⊢
      cases hfailed : failedCall op reply with
      | true =>
          rw [served_cons_failed hfailed, List.flatMap_cons, delivered_of_failed hfailed, ih]
          rfl
      | false => rw [served_cons_fine hfailed, List.flatMap_cons, List.flatMap_cons, ih]

theorem allDelivered_eq (run : List (StreamOp × StreamReply)) :
    allDelivered run = (run.map (·.2)).flatMap delivered := by
  unfold allDelivered
  rw [List.flatMap_map]

/-- Reads of a cursor deliver its data from where it stands, and move it past what they deliver;
each delivers something while there is anything. -/
theorem StreamCursor.reads_deliver (cursor : StreamCursor) (bufs : List Bytes) :
    let run := runAll perform cursor (bufs.map .read)
    let got := run.1.flatMap delivered
    got = slice cursor.data cursor.position got.length ∧
      run.2 = { cursor with position := cursor.position + got.length } ∧
      ((∀ buf ∈ bufs, buf ≠ []) →
        min bufs.length (cursor.data.length - cursor.position) ≤ got.length) := by
  induction bufs generalizing cursor with
  | nil => exact ⟨rfl, rfl, fun _ => by simp⟩
  | cons buf bufs ih =>
      have hlen := slice_length cursor.data cursor.position buf.length
      have hfull := slice_slice_length cursor.data cursor.position buf.length
      obtain ⟨bytes, hbytes⟩ : ∃ bytes, slice cursor.data cursor.position buf.length = bytes :=
        ⟨_, rfl⟩
      rw [hbytes] at hlen hfull
      have step : cursor.perform (.read buf) = (.data (.ok bytes.length) (splice buf 0 bytes),
          { cursor with position := cursor.position + bytes.length }) := by
        simp only [perform, hbytes]
      have taken : delivered (.data (.ok bytes.length) (splice buf 0 bytes)) = bytes := by
        simp [delivered, splice]
      obtain ⟨rest, moved, progress⟩ :=
        ih { cursor with position := cursor.position + bytes.length }
      rw [List.map_cons, runAll_cons, step]
      simp only [List.flatMap_cons, taken, List.length_append] at rest moved progress ⊢
      refine ⟨?_, ?_, ?_⟩
      · rw [slice_add, hfull, ← rest]
      · rw [moved]
        simp only [Nat.add_assoc]
      · intro nonempty
        have hbuf := List.length_pos_iff.mpr (nonempty buf List.mem_cons_self)
        have := progress fun b hb => nonempty b (List.mem_cons_of_mem _ hb)
        rw [List.length_cons]
        omega

/-- What is left of reads when some of them are taken out are reads. -/
theorem served_reads (step : FileVaultVolume → StreamOp → StreamReply × FileVaultVolume)
    (vol : FileVaultVolume) (bufs : List Bytes) :
    ∃ kept : List Bytes, kept.Sublist bufs ∧
      (served failedCall (transcript step vol (bufs.map .read))).map (·.1) =
        kept.map StreamOp.read := by
  have sub : ((served failedCall (transcript step vol (bufs.map .read))).map (·.1)).Sublist
      (bufs.map StreamOp.read) := by
    have kept : (served failedCall (transcript step vol (bufs.map .read))).Sublist
        (transcript step vol (bufs.map .read)) := List.filter_sublist
    have inputs := List.Sublist.map (fun entry => entry.1) kept
    rw [transcript_inputs] at inputs
    exact inputs
  exact List.sublist_map_iff.mp sub

/-- Over any device, what reads on an opened volume deliver is the plaintext from where the stream
stood, in one piece, and the stream has moved past it. With as many calls as there are bytes left
and failures in the device, all of it is delivered. -/
theorem sequential_reads_complete (crates : Crates) (vol : FileVaultVolume)
    (fits : vol.decrypted.Fits) (bufs : List Bytes) :
    let plain := (vol.decrypted.cursor crates).data
    let start := vol.decrypted.position.toNat
    let got := allDelivered (transcript (FileVaultVolume.perform crates) vol (bufs.map .read))
    let vol' := (runAll (FileVaultVolume.perform crates) vol (bufs.map .read)).2
    got = slice plain start got.length ∧
      vol'.decrypted.position.toNat = start + got.length ∧
      ((∀ buf ∈ bufs, buf ≠ []) → vol.reader.faults + (plain.length - start) ≤ bufs.length →
        got = plain.drop start) := by
  have sim := FileVaultVolume.perform_simulates crates vol.info
  have begin : Presents crates vol.info vol (vol.decrypted.cursor crates) := ⟨fits, rfl, rfl⟩
  obtain ⟨answers, last⟩ := sim.served_run begin (bufs.map .read)
  have spent := sim.failures_le begin (bufs.map .read)
  have count := served_length failedCall
    (transcript (FileVaultVolume.perform crates) vol (bufs.map .read))
  rw [transcript_length, List.length_map] at count
  obtain ⟨kept, hsub, hkept⟩ := served_reads (FileVaultVolume.perform crates) vol bufs
  have keptLen : (served failedCall
      (transcript (FileVaultVolume.perform crates) vol (bufs.map .read))).length = kept.length := by
    have := congrArg List.length hkept
    simpa using this
  -- the calls that were served are the run of a cursor
  obtain ⟨stretch, moved, progress⟩ :=
    (vol.decrypted.cursor crates).reads_deliver kept
  have got : allDelivered (transcript (FileVaultVolume.perform crates) vol (bufs.map .read)) =
      (runAll StreamCursor.perform (vol.decrypted.cursor crates)
        (kept.map .read)).1.flatMap delivered := by
    rw [← allDelivered_served, allDelivered_eq, answers, hkept]
  have ends := congrArg StreamCursor.position last.cursor
  rw [hkept, moved] at ends
  dsimp only
  rw [got]
  refine ⟨stretch, ends.symm, ?_⟩
  intro nonempty enough
  have all := progress fun buf hbuf => nonempty buf (hsub.subset hbuf)
  rw [stretch, slice, List.take_of_length_le]
  · rfl
  · rw [List.length_drop]
    have : (vol.decrypted.cursor crates).position = vol.decrypted.position.toNat := rfl
    omega

/-- The flaky volume, three bytes before its end. -/
def flakyEnd : FileVaultVolume :=
  (FileVaultVolume.perform standardCrates flakyOpened (.seek (.fromEnd (-3)))).2

/-- A buffer for each of the three bytes, and one for the failure. -/
def lastBuffers : List Bytes := [[0, 0], [1], [2], [3, 3, 3]]

/-- The first read fails, and the three after it get all that is left. -/
theorem flakyOpened_reads_complete :
    let plain := (flakyEnd.decrypted.cursor standardCrates).data
    let start := flakyEnd.decrypted.position.toNat
    let run := transcript (FileVaultVolume.perform standardCrates) flakyEnd
      (lastBuffers.map .read)
    let got := allDelivered run
    let vol' := (runAll (FileVaultVolume.perform standardCrates) flakyEnd
      (lastBuffers.map .read)).2
    (start = 1297 ∧ failures failedCall run = 1) ∧ got = slice plain start got.length ∧
      vol'.decrypted.position.toNat = start + got.length ∧ got = plain.drop start := by
  intro plain start run got vol'
  obtain ⟨stretch, moved, complete⟩ := sequential_reads_complete standardCrates flakyEnd
    (by unfold DecryptedVolume.Fits; decide) lastBuffers
  have length : plain.length = flakyEnd.decrypted.size.toNat :=
    flakyEnd.decrypted.cursor_length standardCrates
  have size : flakyEnd.decrypted.size.toNat = 1300 := by decide +kernel
  have stands : start = 1297 := by decide +kernel
  have faults : flakyEnd.reader.faults = 1 := by decide +kernel
  refine ⟨⟨stands, by decide +kernel⟩, stretch, moved, complete (by decide) ?_⟩
  show flakyEnd.reader.faults + (plain.length - start) ≤ 4
  rw [faults, length, size, stands]

end FileVault
