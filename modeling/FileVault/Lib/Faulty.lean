import FileVault.Lib.Machine
import Mathlib.Data.List.Count

/-!
# Machines that fail now and then

Up to failures one machine is another, if each of its steps is the other's step, or fails: then it
says so, stays where it is, and uses up something of a finite stock. A run of it, with the inputs
that failed left out, is a run of the other machine; and no more inputs fail than the stock
allows.
-/

namespace FileVault.Lib

variable {σ τ ι ο : Type}

/-- The inputs of a run, each with its answer. -/
def transcript (step : σ → ι → ο × σ) (s : σ) (is : List ι) : List (ι × ο) :=
  is.zip (runAll step s is).1

/-- What was not a failure. -/
def served (failed : ι → ο → Bool) (run : List (ι × ο)) : List (ι × ο) :=
  run.filter fun entry => !failed entry.1 entry.2

/-- How many were. -/
def failures (failed : ι → ο → Bool) (run : List (ι × ο)) : Nat :=
  run.countP fun entry => failed entry.1 entry.2

/-- Related states step alike and stay related, or the first machine fails and stays related to
where the second one is. -/
def SimulatesUpTo (failed : ι → ο → Bool) (stock : σ → Nat) (step : σ → ι → ο × σ)
    (step' : τ → ι → ο × τ) (R : σ → τ → Prop) : Prop :=
  ∀ s t, R s t → ∀ i,
    (failed i (step s i).1 = false ∧ (step s i).1 = (step' t i).1 ∧
      R (step s i).2 (step' t i).2 ∧ stock (step s i).2 ≤ stock s) ∨
    (failed i (step s i).1 = true ∧ R (step s i).2 t ∧ stock (step s i).2 < stock s)

theorem transcript_cons (step : σ → ι → ο × σ) (s : σ) (i : ι) (is : List ι) :
    transcript step s (i :: is) = (i, (step s i).1) :: transcript step (step s i).2 is := rfl

theorem served_cons_failed {failed : ι → ο → Bool} {i : ι} {o : ο} (h : failed i o = true)
    (run : List (ι × ο)) : served failed ((i, o) :: run) = served failed run := by
  unfold served
  rw [List.filter_cons_of_neg (by simp [h])]

theorem served_cons_fine {failed : ι → ο → Bool} {i : ι} {o : ο} (h : failed i o = false)
    (run : List (ι × ο)) : served failed ((i, o) :: run) = (i, o) :: served failed run := by
  unfold served
  rw [List.filter_cons_of_pos (by simp [h])]

/-- Every entry is served or a failure. -/
theorem served_length (failed : ι → ο → Bool) (run : List (ι × ο)) :
    (served failed run).length + failures failed run = run.length := by
  have split := List.length_eq_countP_add_countP (fun entry => failed entry.1 entry.2) (l := run)
  unfold served failures
  rw [← List.countP_eq_length_filter, Nat.add_comm]
  simpa using split.symm

theorem transcript_length (step : σ → ι → ο × σ) (s : σ) (is : List ι) :
    (transcript step s is).length = is.length := by
  induction is generalizing s with
  | nil => rfl
  | cons i is ih => rw [transcript_cons, List.length_cons, ih, List.length_cons]

/-- The inputs of a run are those of its transcript. -/
theorem transcript_inputs (step : σ → ι → ο × σ) (s : σ) (is : List ι) :
    (transcript step s is).map (·.1) = is := by
  induction is generalizing s with
  | nil => rfl
  | cons i is ih => rw [transcript_cons, List.map_cons, ih]

namespace SimulatesUpTo

variable {failed : ι → ο → Bool} {stock : σ → Nat} {step : σ → ι → ο × σ}
  {step' : τ → ι → ο × τ} {R : σ → τ → Prop}

/-- What was served is a run of the second machine, which ends where the first one stands. -/
theorem served_run (sim : SimulatesUpTo failed stock step step' R) {s : σ} {t : τ} (related : R s t)
    (is : List ι) :
    (served failed (transcript step s is)).map (·.2) =
        (runAll step' t ((served failed (transcript step s is)).map (·.1))).1 ∧
      R (runAll step s is).2
        (runAll step' t ((served failed (transcript step s is)).map (·.1))).2 := by
  induction is generalizing s t with
  | nil => exact ⟨rfl, related⟩
  | cons i is ih =>
      rw [transcript_cons]
      rcases sim s t related i with ⟨fine, answer, next, -⟩ | ⟨fail, next, -⟩
      · obtain ⟨answers, last⟩ := ih next
        rw [served_cons_fine fine]
        exact ⟨congrArg₂ List.cons answer answers, last⟩
      · rw [served_cons_failed fail]
        exact ih next

/-- The failures of a run have used up as much of the stock. -/
theorem failures_le (sim : SimulatesUpTo failed stock step step' R) {s : σ} {t : τ}
    (related : R s t) (is : List ι) :
    failures failed (transcript step s is) + stock (runAll step s is).2 ≤ stock s := by
  induction is generalizing s t with
  | nil => exact (Nat.zero_add _).le
  | cons i is ih =>
      rw [transcript_cons, failures, List.countP_cons]
      rcases sim s t related i with ⟨fine, -, next, less⟩ | ⟨fail, next, spent⟩
      · have rest := ih next
        rw [if_neg (by simp [fine])]
        exact rest.trans less
      · have rest := ih next
        rw [if_pos fail]
        show failures failed (transcript step (step s i).2 is) + 1 +
          stock (runAll step (step s i).2 is).2 ≤ stock s
        omega

end SimulatesUpTo

end FileVault.Lib
