import FileVault.Core.Vfs
import FileVault.Lib.Guarded
import FileVault.Logic.Primitives
import FileVault.Logic.Sectors

/-!
# Interleaved reads are independent

Any number of clients read through one `FileVaultSource`, whose mutex serves them one at
a time and in any order. The bounds are clamped twice, by the adapter and by the volume,
and the two clamps agree; between two calls only the reader moves. So every call is
answered as if it were the only one, also after calls during which the reader failed.
-/

namespace FileVault

open Lib

/-- The volume over another reader. -/
def FileVaultVolume.over (vol : FileVaultVolume) (reader : Reader) : FileVaultVolume :=
  { vol with decrypted := { vol.decrypted with reader } }

/-- The reader behind the volume. -/
def FileVaultVolume.reader (vol : FileVaultVolume) : Reader := vol.decrypted.reader

/-! ## The two clamps -/

/-- Copying into the requested part of the buffer is copying into the buffer. -/
theorem copyWindow_clamp (crates : Crates) (vol : DecryptedVolume) (window : SectorWindow)
    (offset : Nat) (region : Bytes) {buf : Bytes} (hwant : window.want ≤ buf.length) :
    DecryptedVolume.copyWindow crates vol window offset region buf =
      (DecryptedVolume.copyWindow crates vol window offset region
        (slice buf 0 window.want)).map (splice buf 0) := by
  have hlen : (slice buf 0 window.want).length = window.want := by
    rw [slice_length]
    omega
  -- up to the copy the buffer plays no part
  unfold DecryptedVolume.copyWindow
  cases decryptUnits crates region vol.keys.vmk vol.keys.tweakKey sectorSize
      window.firstSector with
  | error stop => rfl
  | ok plain =>
  simp only [ok_bind]
  cases umul window.firstSector sectorSize with
  | error stop => rfl
  | ok first =>
  simp only [ok_bind]
  cases usub offset first with
  | error stop => rfl
  | ok inner =>
  simp only [ok_bind]
  cases uadd inner window.want with
  | error stop => rfl
  | ok innerEnd =>
  simp only [ok_bind]
  cases getRange plain inner innerEnd with
  | none => rfl
  | some copied =>
      have outer : getRange buf 0 window.want = some (slice buf 0 window.want) :=
        if_pos ⟨Nat.zero_le _, hwant⟩
      have whole : getRange (slice buf 0 window.want) 0 window.want =
          some (slice (slice buf 0 window.want) 0 window.want) :=
        if_pos ⟨Nat.zero_le _, hlen.ge⟩
      simp only [okOr_some, ok_bind, outer, whole]
      by_cases hcopied : copied.length = window.want
      · rw [if_pos hcopied, if_pos hcopied]
        show Except.ok _ = Except.ok _
        rw [splice_all (hlen.trans hcopied.symm)]
      · rw [if_neg hcopied, if_neg hcopied]
        rfl

/-- A read into the part of the buffer that the volume has bytes for is answered as the
read into all of it. -/
theorem answer_clamp (crates : Crates) (vol : DecryptedVolume) (image : Bytes)
    {offset : UInt64} (buf : Bytes) (hoff : offset.toNat < vol.size.toNat) :
    vol.answer crates image offset buf =
      ((vol.answer crates image offset (slice buf 0 (vol.wantOf offset.toNat buf.length))).1,
        splice buf 0
          (vol.answer crates image offset
            (slice buf 0 (vol.wantOf offset.toNat buf.length))).2) := by
  by_cases hbuf : buf = []
  · -- nothing to fill on either side
    have empty : slice buf 0 (vol.wantOf offset.toNat buf.length) = buf := by
      simp [hbuf, slice]
    have nothing : vol.answer crates image offset buf = (.ok 0, buf) := if_pos (.inr hbuf)
    rw [empty, nothing, hbuf]
    rfl
  have hlen := List.length_pos_iff.mpr hbuf
  have hwant : vol.wantOf offset.toNat buf.length =
      min buf.length (vol.size.toNat - offset.toNat) := rfl
  have hdst : (slice buf 0 (vol.wantOf offset.toNat buf.length)).length =
      vol.wantOf offset.toNat buf.length := by
    rw [slice_length]
    omega
  have hroom : slice buf 0 (vol.wantOf offset.toNat buf.length) ≠ [] := by
    intro h
    rw [h, List.length_nil] at hdst
    omega
  -- the window stops at the end of the volume, so it is the same for both buffers
  have window : vol.sectorWindow offset.toNat
        (slice buf 0 (vol.wantOf offset.toNat buf.length)).length =
      vol.sectorWindow offset.toNat buf.length := by
    have same : min (vol.wantOf offset.toNat buf.length) (vol.size.toNat - offset.toNat) =
        min buf.length (vol.size.toNat - offset.toNat) := by omega
    rw [hdst]
    unfold DecryptedVolume.sectorWindow
    rw [usub_eq hoff.le, ok_bind, ok_bind, same]
  unfold DecryptedVolume.answer
  rw [if_neg (DecryptedVolume.guard_passes hoff hbuf),
    if_neg (DecryptedVolume.guard_passes hoff hroom), window]
  cases hwindow : vol.sectorWindow offset.toNat buf.length with
  | error stop =>
      simp only
      rw [splice_slice_self]
  | ok w =>
      have want := DecryptedVolume.sectorWindow_want hoff hlen hwindow
      simp only
      rw [copyWindow_clamp crates vol w offset.toNat _ (by omega), want]
      cases vol.copyWindow crates w offset.toNat _
          (slice buf 0 (vol.wantOf offset.toNat buf.length)) with
      | error stop =>
          show (_, buf) = _
          rw [splice_slice_self]
      | ok copied => rfl

/-! ## One call of the adapter -/

namespace FileVaultSource

/-- Past the end nothing is wanted. -/
theorem wanted_past {len offset : UInt64} (buf : Bytes) (h : len.toNat ≤ offset.toNat) :
    wanted len offset buf = none := if_pos (by omega)

/-- Before the end as much is wanted as there is. -/
theorem wanted_before {len offset : UInt64} (buf : Bytes) (h : offset.toNat < len.toNat) :
    wanted len offset buf = some (min buf.length (len.toNat - offset.toNat)) := by
  have room : getRange buf 0 (min buf.length (len.toNat - offset.toNat)) =
      some (slice buf 0 (min buf.length (len.toNat - offset.toNat))) := if_pos (by omega)
  unfold wanted
  rw [if_neg (by omega)]
  simp only [room, Option.map_some, slice_length]
  congr 1
  omega

/-- What a call of the adapter does: the volume's own answer for that offset and buffer,
or the I/O error of the reader. -/
theorem readAt_outcome (crates : Crates) (ioText : IoError → String) (vol : FileVaultVolume)
    (offset : UInt64) (buf : Bytes) :
    (∃ reader, vol.reader.Serves reader ∧ (new vol).readAt crates ioText offset buf =
      (mapStop ioText (vol.decrypted.answer crates vol.reader.data offset buf).1,
        (vol.decrypted.answer crates vol.reader.data offset buf).2,
        { inner := vol.over reader, len := vol.size })) ∨
    ∃ e reader, vol.reader.FailedBefore reader ∧ reader.data = vol.reader.data ∧
      (new vol).readAt crates ioText offset buf =
        (.error (.error (mapFvdeErr ioText (.io e))), buf,
          { inner := vol.over reader, len := vol.size }) := by
  by_cases hoff : vol.size.toNat ≤ offset.toNat
  · -- the adapter answers by itself
    have nothing : vol.decrypted.answer crates vol.reader.data offset buf = (.ok 0, buf) :=
      if_pos (.inl (UInt64.le_iff_toNat_le.mpr hoff))
    refine .inl ⟨vol.reader, .refl _, ?_⟩
    unfold readAt
    simp only [new, wanted_past buf hoff, nothing]
    rfl
  have clamp := answer_clamp crates vol.decrypted vol.reader.data buf (not_le.mp hoff)
  have hwanted : wanted vol.size offset buf =
      some (vol.decrypted.wantOf offset.toNat buf.length) := wanted_before buf (not_le.mp hoff)
  rcases vol.decrypted.readAt_outcome crates offset
      (slice buf 0 (vol.decrypted.wantOf offset.toNat buf.length)) with
    ⟨reader, serves, heq⟩ | ⟨e, reader, failed, hdata, heq⟩
  · refine .inl ⟨reader, serves, ?_⟩
    unfold readAt readLocked FileVaultVolume.readAt
    simp only [new, hwanted, heq]
    rw [clamp]
    rfl
  · refine .inr ⟨e, reader, failed, hdata, ?_⟩
    unfold readAt readLocked FileVaultVolume.readAt
    simp only [new, hwanted, heq]
    rw [splice_slice_self]
    rfl

/-- Over a healthy reader the adapter and the volume give the same. -/
theorem readAt_healthy (crates : Crates) (ioText : IoError → String)
    {vol : FileVaultVolume} (healthy : vol.reader.Healthy) (offset : UInt64) (buf : Bytes) :
    ((new vol).readAt crates ioText offset buf).1 =
        mapStop ioText (vol.decrypted.answer crates vol.reader.data offset buf).1 ∧
      ((new vol).readAt crates ioText offset buf).2.1 =
        (vol.decrypted.answer crates vol.reader.data offset buf).2 := by
  rcases readAt_outcome crates ioText vol offset buf with
    ⟨reader, -, heq⟩ | ⟨_, _, failed, -⟩
  · rw [heq]
    exact ⟨rfl, rfl⟩
  · exact absurd failed healthy.not_failed

/-! ## Any number of clients -/

/-- The adapter as an object behind a lock. -/
def guarded (crates : Crates) (ioText : IoError → String) (len : UInt64) :
    Guarded FileVaultVolume (UInt64 × Bytes) (VfsRun Nat × Bytes) where
  early call :=
    match wanted len call.1 call.2 with
    | none => some (.ok 0, call.2)
    | some _ => none
  run vol call :=
    match wanted len call.1 call.2 with
    | none => ((.ok 0, call.2), vol)
    | some want =>
        match readLocked crates ioText vol call.1 call.2 want with
        | (result, buf', vol') => ((result, buf'), vol')

/-- A call on its own is `read_at`. -/
theorem guarded_apply (crates : Crates) (ioText : IoError → String)
    (len : UInt64) (vol : FileVaultVolume) (offset : UInt64) (buf : Bytes) :
    (guarded crates ioText len).apply vol (offset, buf) =
      (((readAt crates ioText ⟨vol, len⟩ offset buf).1,
        (readAt crates ioText ⟨vol, len⟩ offset buf).2.1),
        (readAt crates ioText ⟨vol, len⟩ offset buf).2.2.inner) := by
  unfold Guarded.apply guarded readAt
  dsimp only
  cases wanted len offset buf with
  | none => rfl
  | some want => rfl

end FileVaultSource

/-- A finished `read_at` of some client. -/
abbrev FinishedRead (Client : Type) :=
  Guarded.Finished FileVaultVolume (UInt64 × Bytes) (VfsRun Nat × Bytes) Client

/-- The backing reader failed during the call. -/
def FinishedRead.Failed {Client : Type} (entry : FinishedRead Client) : Prop :=
  entry.before.reader.FailedBefore entry.after.reader

/-- The call is answered as if it were made alone, on the volume as it was opened: as the
adapter over a fresh volume answers it, and as the volume's own `read_at` does. If the
reader fails during it, it is an error that leaves the buffer alone. -/
structure Independent (crates : Crates) (ioText : IoError → String) (vol : FileVaultVolume)
    {Client : Type} (entry : FinishedRead Client) : Prop where
  alone : ¬ entry.Failed → ∀ fresh : Reader, fresh.Healthy → fresh.data = vol.reader.data →
    entry.reply.1 = ((FileVaultSource.new (vol.over fresh)).readAt crates ioText
      entry.call.1 entry.call.2).1 ∧
    entry.reply.2 = ((FileVaultSource.new (vol.over fresh)).readAt crates ioText
      entry.call.1 entry.call.2).2.1
  direct : ¬ entry.Failed → ∀ fresh : Reader, fresh.Healthy → fresh.data = vol.reader.data →
    entry.reply.1 = mapStop ioText ((vol.over fresh).readAt crates
      entry.call.1 entry.call.2).1 ∧
    entry.reply.2 = ((vol.over fresh).readAt crates entry.call.1 entry.call.2).2.1
  failed : entry.Failed → (∃ e, entry.reply.1 = .error (.error (mapFvdeErr ioText (.io e)))) ∧
    entry.reply.2 = entry.call.2

/-- Between two calls only the reader has moved, over the same bytes. -/
def Undisturbed (vol vol' : FileVaultVolume) : Prop :=
  vol' = vol.over vol'.reader ∧ vol'.reader.data = vol.reader.data

/-- One call, on whatever the calls before it have left. -/
theorem apply_independent {Client : Type} (crates : Crates) (ioText : IoError → String)
    {vol vol' : FileVaultVolume} (undisturbed : Undisturbed vol vol') (c : Client)
    (call : UInt64 × Bytes) :
    Undisturbed vol ((FileVaultSource.guarded crates ioText vol.size).apply vol' call).2 ∧
      Independent crates ioText vol
        (⟨c, call, ((FileVaultSource.guarded crates ioText vol.size).apply vol' call).1, vol',
          ((FileVaultSource.guarded crates ioText vol.size).apply vol' call).2⟩ :
          FinishedRead Client) := by
  obtain ⟨offset, buf⟩ := call
  obtain ⟨state, hdata⟩ := undisturbed
  have source : (⟨vol', vol.size⟩ : FileVaultSource) = .new vol' := by
    rw [state]
    rfl
  -- an answer is a function of the bytes, whichever reader serves them
  have same (fresh : Reader) (hfresh : fresh.data = vol.reader.data) :
      vol'.decrypted.answer crates vol'.reader.data offset buf =
        (vol.over fresh).decrypted.answer crates (vol.over fresh).reader.data offset buf := by
    have hdata' : vol'.reader.data = fresh.data := hdata.trans hfresh.symm
    rw [hdata', state]
    rfl
  rw [FileVaultSource.guarded_apply, source]
  rcases FileVaultSource.readAt_outcome crates ioText vol' offset buf with
    ⟨reader, serves, heq⟩ | ⟨e, reader, failed, hdata', heq⟩
  · rw [heq]
    refine ⟨⟨by rw [state]; rfl, serves.data.trans hdata⟩, ⟨?_, ?_, ?_⟩⟩
    · intro _ fresh healthy hfresh
      obtain ⟨result, buffer⟩ := FileVaultSource.readAt_healthy crates ioText
        (show (vol.over fresh).reader.Healthy from healthy) offset buf
      simp only [same fresh hfresh]
      exact ⟨result.symm, buffer.symm⟩
    · intro _ fresh healthy hfresh
      obtain ⟨result, buffer⟩ := (vol.over fresh).decrypted.readAt_healthy crates healthy
        offset buf
      simp only [same fresh hfresh]
      exact ⟨congrArg (mapStop ioText) result.symm, buffer.symm⟩
    · intro failed
      exact absurd failed serves.not_failed
  · rw [heq]
    refine ⟨⟨by rw [state]; rfl, hdata'.trans hdata⟩, ⟨?_, ?_, ?_⟩⟩
    · intro fine
      exact absurd failed fine
    · intro fine
      exact absurd failed fine
    · intro _
      exact ⟨⟨e, rfl⟩, rfl⟩

/-- Whatever the clients do, and in whatever order, every finished call is independent of
the others. -/
theorem interleaved_reads_independent {Client : Type} [DecidableEq Client] (crates : Crates)
    (ioText : IoError → String) (vol : FileVaultVolume)
    {system : Guarded.System FileVaultVolume (UInt64 × Bytes) (VfsRun Nat × Bytes) Client}
    (h : Guarded.Reachable
      (FileVaultSource.guarded crates ioText (FileVaultSource.new vol).len) vol system) :
    ∀ entry ∈ system.history, Independent crates ioText vol entry := by
  -- what one call preserves holds all along the serial history
  have serial := h.serial
  have init : Undisturbed vol vol := ⟨rfl, rfl⟩
  obtain ⟨-, independent⟩ := serial.invariant (Undisturbed vol)
    (Independent crates ioText vol) init
    (fun _ c call undisturbed => apply_independent crates ioText undisturbed c call)
  exact independent

/-- An opened volume over the flaky reader. -/
def flakyOpened : FileVaultVolume where
  decrypted := flakyVolume
  info :=
    { physicalVolumeIdentifier := "", pbkdf2Iterations := 1, pbkdf2Salt := .zero 16
      familyUuid := "", lvIdentifier := none, lvName := none, lvSize := 1300
      encryptionMethod := "AES-XTS-128", conversionStatus := none, protectors := [] }

/-- Two clients: the call that meets the failure fails, and the one after it is served. -/
theorem flakyOpened_interleaved :
    ∃ system : Guarded.System FileVaultVolume (UInt64 × Bytes) (VfsRun Nat × Bytes) Bool,
      system.history.map (fun entry => (entry.client, entry.reply.1)) =
        [(true, .error (.error (mapFvdeErr (fun _ => "") (.io (.device 5))))), (false, .ok 3)] ∧
      ∀ entry ∈ system.history,
        Independent standardCrates (fun _ => "") flakyOpened entry := by
  have opened : Guarded.Reachable
      (FileVaultSource.guarded standardCrates (fun _ => "") (FileVaultSource.new flakyOpened).len)
      flakyOpened (.start flakyOpened : Guarded.System _ _ _ Bool) := .start
  have invoked := (opened.step (.invoke false (700, [1, 2, 3]) rfl)).step
    (.invoke true (512, [4, 5]) rfl)
  have failed := (invoked.step (.acquire true rfl rfl rfl)).step (.release true rfl rfl)
  have served := (failed.step (.acquire false rfl rfl rfl)).step (.release false rfl rfl)
  exact ⟨_, by decide +kernel, interleaved_reads_independent standardCrates _ flakyOpened served⟩

end FileVault
