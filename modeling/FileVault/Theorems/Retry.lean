import FileVault.Logic.Failures
import FileVault.Logic.Primitives

/-!
# Failed reads leave no trace

A read during which the backing reader fails, in the seek or after any number of
short reads and interrupts, is an error that changes nothing but where the reader
stands. Repeated over a reader that works it gives what it would have given at
first.
-/

namespace FileVault

open Lib

/-- The call of a volume ends in an I/O error, leaves the caller's buffer and all of the
volume but its reader as they were, and repeated over any healthy reader of the same
bytes gives what it gives on the untouched volume. -/
structure FailsCleanly (call : DecryptedVolume → Run Nat × Bytes × DecryptedVolume)
    (vol : DecryptedVolume) (buf : Bytes) : Prop where
  error : ∃ e, (call vol).1 = fail (.io e)
  buffer : (call vol).2.1 = buf
  state : (call vol).2.2 = { vol with reader := (call vol).2.2.reader }
  contents : (call vol).2.2.reader.data = vol.reader.data
  retry : ∀ reader fresh : Reader, reader.Healthy → fresh.Healthy →
    reader.data = vol.reader.data → fresh.data = vol.reader.data →
    (call { (call vol).2.2 with reader }).1 = (call { vol with reader := fresh }).1 ∧
    (call { (call vol).2.2 with reader }).2.1 = (call { vol with reader := fresh }).2.1 ∧
    (call { (call vol).2.2 with reader }).2.2.position =
      (call { vol with reader := fresh }).2.2.position

section

variable {crates : Crates} {vol : DecryptedVolume} {buf : Bytes}

/-- `read_at` does not move the position. -/
theorem readAt_position (crates : Crates) (vol : DecryptedVolume) (offset : UInt64)
    (buf : Bytes) : (vol.readAt crates offset buf).2.2.position = vol.position := by
  obtain ⟨state, -, -⟩ := DecryptedVolume.readAt_serves crates vol offset buf
  rw [state]

/-- `Read::read` is a `read_at` at the position, and then moves it. -/
theorem read_eq (crates : Crates) (vol : DecryptedVolume) (buf : Bytes) :
    vol.read crates buf =
      match (vol.readAt crates vol.position buf).1 with
      | .error stop => (.error stop, (vol.readAt crates vol.position buf).2)
      | .ok n =>
          match uadd vol.position.toNat n with
          | .error stop => (.error stop, (vol.readAt crates vol.position buf).2)
          | .ok position => (.ok n, (vol.readAt crates vol.position buf).2.1,
              { (vol.readAt crates vol.position buf).2.2 with position := .ofNat position }) := by
  have unmoved := readAt_position crates vol vol.position buf
  unfold DecryptedVolume.read
  rcases hread : vol.readAt crates vol.position buf with ⟨result, buf', vol'⟩
  rw [hread] at unmoved
  cases result with
  | error stop => rfl
  | ok n =>
      simp only at unmoved ⊢
      cases hmove : uadd vol.position.toNat n with
      | error stop => simp only [unmoved, hmove]
      | ok position => simp only [unmoved, hmove]

/-- Over healthy readers of the same bytes `Read::read` does the same. -/
theorem read_of_data (crates : Crates) (vol : DecryptedVolume) {reader reader' : Reader}
    (healthy : reader.Healthy) (healthy' : reader'.Healthy) (hdata : reader.data = reader'.data)
    (buf : Bytes) :
    (({ vol with reader } : DecryptedVolume).read crates buf).1 =
        (({ vol with reader := reader' } : DecryptedVolume).read crates buf).1 ∧
      (({ vol with reader } : DecryptedVolume).read crates buf).2.1 =
        (({ vol with reader := reader' } : DecryptedVolume).read crates buf).2.1 ∧
      (({ vol with reader } : DecryptedVolume).read crates buf).2.2.position =
        (({ vol with reader := reader' } : DecryptedVolume).read crates buf).2.2.position := by
  obtain ⟨result, buffer⟩ :=
    DecryptedVolume.readAt_of_data crates vol healthy healthy' hdata vol.position buf
  have position := readAt_position crates { vol with reader } vol.position buf
  have position' := readAt_position crates { vol with reader := reader' } vol.position buf
  rw [read_eq, read_eq]
  simp only [result]
  cases (({ vol with reader := reader' } : DecryptedVolume).readAt crates vol.position buf).1 with
  | error stop => exact ⟨rfl, buffer, position.trans position'.symm⟩
  | ok n =>
      dsimp only
      cases uadd vol.position.toNat n with
      | error stop => exact ⟨rfl, buffer, position.trans position'.symm⟩
      | ok moved => exact ⟨rfl, buffer, rfl⟩

theorem readAt_failsCleanly (offset : UInt64)
    (failed : vol.reader.FailedBefore (vol.readAt crates offset buf).2.2.reader) :
    FailsCleanly (fun v => v.readAt crates offset buf) vol buf := by
  obtain ⟨state, contents, outcome⟩ := DecryptedVolume.readAt_serves crates vol offset buf
  rcases outcome with serves | ⟨error, buffer⟩
  · exact absurd failed serves.not_failed
  refine ⟨error, buffer, state, contents, ?_⟩
  intro reader fresh healthy healthy' hdata hdata'
  have restored : { (vol.readAt crates offset buf).2.2 with reader } = { vol with reader } := by
    rw [state]
  obtain ⟨result, same⟩ := DecryptedVolume.readAt_of_data crates vol healthy healthy'
    (hdata.trans hdata'.symm) offset buf
  simp only [restored]
  exact ⟨result, same, by rw [readAt_position, readAt_position]⟩

theorem read_failsCleanly
    (failed : vol.reader.FailedBefore (vol.read crates buf).2.2.reader) :
    FailsCleanly (fun v => v.read crates buf) vol buf := by
  obtain ⟨state, contents, outcome⟩ := DecryptedVolume.readAt_serves crates vol vol.position buf
  have hread := read_eq crates vol buf
  -- only the `read_at` in it moves the reader
  have reader : (vol.read crates buf).2.2.reader =
      (vol.readAt crates vol.position buf).2.2.reader := by
    rw [hread]
    cases (vol.readAt crates vol.position buf).1 with
    | error stop => rfl
    | ok n =>
        dsimp only
        cases uadd vol.position.toNat n with
        | error stop => rfl
        | ok position => rfl
  rcases outcome with serves | ⟨⟨e, error⟩, buffer⟩
  · exact absurd (reader ▸ failed) serves.not_failed
  rw [error] at hread
  simp only [fail] at hread
  refine ⟨⟨e, by rw [hread]; rfl⟩, by rw [hread]; exact buffer, by rw [hread]; exact state,
    by rw [hread]; exact contents, ?_⟩
  intro reader fresh healthy healthy' hdata hdata'
  have restored : { (vol.read crates buf).2.2 with reader } = { vol with reader } := by
    rw [hread]
    simp only
    rw [state]
  simp only [restored]
  exact read_of_data crates vol healthy healthy' (hdata.trans hdata'.symm) buf

end

/-- Whenever the backing reader fails during a `read_at` or a `Read::read`, the call fails
cleanly. -/
theorem failed_read_atomic (crates : Crates) (vol : DecryptedVolume) (offset : UInt64)
    (buf : Bytes) :
    (vol.reader.FailedBefore (vol.readAt crates offset buf).2.2.reader →
      FailsCleanly (fun v => v.readAt crates offset buf) vol buf) ∧
    (vol.reader.FailedBefore (vol.read crates buf).2.2.reader →
      FailsCleanly (fun v => v.read crates buf) vol buf) :=
  ⟨readAt_failsCleanly offset, read_failsCleanly⟩

/-- Both kinds of read meet the failure of the flaky volume. -/
theorem flakyVolume_failsCleanly :
    FailsCleanly (fun v => v.readAt standardCrates 0 [0, 0]) flakyVolume [0, 0] ∧
      FailsCleanly (fun v => v.read standardCrates [0, 0]) flakyVolume [0, 0] :=
  ⟨(failed_read_atomic standardCrates flakyVolume 0 [0, 0]).1
    (flakyVolume_failed (by decide +kernel)),
  (failed_read_atomic standardCrates flakyVolume 0 [0, 0]).2
    (flakyVolume_failed (by decide +kernel))⟩

end FileVault
