import FileVault.Logic.Failures
import Mathlib.Data.List.Infix

/-!
# The stock of failures

A reader has so many failures left in its plan. Its calls only ever take answers off the front of
the plan, so a call that meets a failure leaves fewer of them.
-/

namespace FileVault

open Lib

def ReadStep.isFail : ReadStep → Bool
  | .fail .. => true
  | .short _ | .interrupted => false

def SeekStep.isFail : SeekStep → Bool
  | .fail .. => true
  | .ok => false

/-- How many failures are left in the plan. -/
def Reader.faults (r : Reader) : Nat :=
  r.reads.countP ReadStep.isFail + r.seeks.countP SeekStep.isFail

/-- The same bytes later on, with what is left of the plan. -/
structure Reader.Onward (r r' : Reader) : Prop where
  data : r'.data = r.data
  reads : r'.reads <:+ r.reads
  seeks : r'.seeks <:+ r.seeks

namespace Reader

theorem Onward.refl (r : Reader) : r.Onward r := ⟨rfl, List.suffix_refl _, List.suffix_refl _⟩

theorem Onward.trans {r r' r'' : Reader} (h : r.Onward r') (h' : r'.Onward r'') : r.Onward r'' :=
  ⟨h'.data.trans h.data, h'.reads.trans h.reads, h'.seeks.trans h.seeks⟩

theorem Serves.onward {r r' : Reader} (h : r.Serves r') : r.Onward r' := by
  obtain ⟨data, ⟨reads, hreads, -⟩, ⟨seeks, hseeks, -⟩⟩ := h
  exact ⟨data, ⟨reads, hreads.symm⟩, ⟨seeks, hseeks.symm⟩⟩

/-- Later on there are no more failures. -/
theorem Onward.faults_le {r r' : Reader} (h : r.Onward r') : r'.faults ≤ r.faults :=
  Nat.add_le_add (h.reads.sublist.countP_le) (h.seeks.sublist.countP_le)

/-- There are fewer failures when one was met on the way. -/
theorem Onward.faults_lt {r r' : Reader} (h : r.Onward r') (failed : r.FailedBefore r') :
    r'.faults < r.faults := by
  have hreads : r'.reads.countP ReadStep.isFail ≤ r.reads.countP ReadStep.isFail :=
    h.reads.sublist.countP_le
  have hseeks : r'.seeks.countP SeekStep.isFail ≤ r.seeks.countP SeekStep.isFail :=
    h.seeks.sublist.countP_le
  unfold faults
  rcases failed with ⟨steps, hsteps, code, cursor, hmem⟩ | ⟨steps, hsteps, code, cursor, hmem⟩
  · have met : 0 < steps.countP ReadStep.isFail := List.countP_pos_iff.mpr ⟨_, hmem, rfl⟩
    have split : r.reads.countP ReadStep.isFail =
        steps.countP ReadStep.isFail + r'.reads.countP ReadStep.isFail := by
      rw [hsteps, List.countP_append]
    omega
  · have met : 0 < steps.countP SeekStep.isFail := List.countP_pos_iff.mpr ⟨_, hmem, rfl⟩
    have split : r.seeks.countP SeekStep.isFail =
        steps.countP SeekStep.isFail + r'.seeks.countP SeekStep.isFail := by
      rw [hsteps, List.countP_append]
    omega

/-- A plan without failures is that of a healthy reader. -/
theorem healthy_iff_faults (r : Reader) : r.Healthy ↔ r.faults = 0 := by
  unfold Healthy faults
  rw [Nat.add_eq_zero_iff, List.countP_eq_zero, List.countP_eq_zero]
  constructor
  · rintro ⟨hreads, hseeks⟩
    refine ⟨?_, ?_⟩
    · intro step hmem
      cases step with
      | fail code cursor => exact absurd hmem (hreads code cursor)
      | short n => simp [ReadStep.isFail]
      | interrupted => simp [ReadStep.isFail]
    · intro step hmem
      cases step with
      | fail code cursor => exact absurd hmem (hseeks code cursor)
      | ok => simp [SeekStep.isFail]
  · rintro ⟨hreads, hseeks⟩
    exact ⟨fun _ _ hmem => hreads _ hmem rfl, fun _ _ hmem => hseeks _ hmem rfl⟩

/-- Whoever failed had a failure. -/
theorem FailedBefore.faults_pos {r r' : Reader} (h : r.FailedBefore r') : 0 < r.faults := by
  by_contra hzero
  have healthy := (healthy_iff_faults r).mpr (by omega)
  exact healthy.not_failed h

/-! ## Calls go onward -/

theorem read_onward {r r' : Reader} {want : Nat} {reply : ReadReply}
    (h : r.read want = (reply, r')) : r.Onward r' := by
  have hreads := read_reads h
  have unmoved : r'.data = r.data ∧ r'.seeks = r.seeks := by
    unfold read at h
    split at h <;> simp only [Prod.mk.injEq] at h <;> obtain ⟨-, rfl⟩ := h <;> exact ⟨rfl, rfl⟩
  obtain ⟨data, seeks⟩ := unmoved
  exact ⟨data, hreads ▸ List.tail_suffix _, seeks ▸ List.suffix_refl _⟩

theorem seek_onward {r r' : Reader} {target : Nat} {result : Except IoError Unit}
    (h : r.seek target = (result, r')) : r.Onward r' := by
  unfold seek at h
  cases hplan : r.seeks with
  | nil =>
      simp only [hplan, Prod.mk.injEq] at h
      obtain ⟨-, rfl⟩ := h
      exact ⟨rfl, List.suffix_refl _, List.nil_suffix⟩
  | cons step rest =>
      have shorter : rest <:+ r.seeks := hplan ▸ List.suffix_cons step rest
      cases step with
      | ok =>
          simp only [hplan, Prod.mk.injEq] at h
          obtain ⟨-, rfl⟩ := h
          exact ⟨rfl, List.suffix_refl _, shorter⟩
      | fail code cursor =>
          simp only [hplan, Prod.mk.injEq] at h
          obtain ⟨-, rfl⟩ := h
          exact ⟨rfl, List.suffix_refl _, shorter⟩

end Reader

theorem readFullOrEof_onward (reader : Reader) (buf : Bytes) (filled : Nat) :
    reader.Onward (readFullOrEof reader buf filled).2.2 := by
  fun_induction readFullOrEof reader buf filled with
  | case1 reader buf filled hlt reader' hread => exact Reader.read_onward hread
  | case2 reader buf filled hlt bs reader' hread hne ih => exact (Reader.read_onward hread).trans ih
  | case3 reader buf filled hlt reader' hread ih => exact (Reader.read_onward hread).trans ih
  | case4 reader buf filled hlt e reader' hread => exact Reader.read_onward hread
  | case5 reader buf filled hfull => exact .refl reader

/-- A `read_at` takes its reader onward. -/
theorem DecryptedVolume.readAt_onward (crates : Crates) (vol : DecryptedVolume) (offset : UInt64)
    (buf : Bytes) : vol.reader.Onward (vol.readAt crates offset buf).2.2.reader := by
  unfold readAt
  by_cases hguard : vol.size ≤ offset ∨ buf = []
  · rw [if_pos hguard]
    exact .refl _
  rw [if_neg hguard]
  cases vol.sectorWindow offset.toNat buf.length with
  | error stop => exact .refl _
  | ok window =>
      rcases hseek : vol.reader.seek window.physical with ⟨sought, reader₁⟩
      have sought_onward := Reader.seek_onward hseek
      cases sought with
      | error e =>
          simp only [hseek]
          exact sought_onward
      | ok _ =>
          have read_onward := readFullOrEof_onward reader₁ (List.replicate window.regionLen 0) 0
          rcases hread : readFullOrEof reader₁ (List.replicate window.regionLen 0) 0 with
            ⟨result, region, reader₂⟩
          rw [hread] at read_onward
          have onward := sought_onward.trans read_onward
          cases result with
          | error e =>
              simp only [hseek, hread]
              exact onward
          | ok _ =>
              simp only [hseek, hread]
              cases copyWindow crates vol window offset.toNat region buf with
              | error stop => exact onward
              | ok copied => exact onward

end FileVault
