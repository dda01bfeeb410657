import Mathlib.Tactic

/-!
# Machines and simulations

A machine takes one input at a time, answers it and moves to a new state. A
relation that every step of two machines respects, with equal answers, makes
their answers equal over whole runs.
-/

namespace FileVault.Lib

variable {σ τ ι ο : Type}

/-- The answers to a list of inputs, and the state after them. -/
def runAll (step : σ → ι → ο × σ) : σ → List ι → List ο × σ
  | s, [] => ([], s)
  | s, i :: is =>
      let (o, s') := step s i
      let (os, s'') := runAll step s' is
      (o :: os, s'')

theorem runAll_cons (step : σ → ι → ο × σ) (s : σ) (i : ι) (is : List ι) :
    runAll step s (i :: is) =
      ((step s i).1 :: (runAll step (step s i).2 is).1, (runAll step (step s i).2 is).2) := rfl

/-- Related states answer alike and stay related. -/
def Simulates (step : σ → ι → ο × σ) (step' : τ → ι → ο × τ) (R : σ → τ → Prop) : Prop :=
  ∀ s t, R s t → ∀ i, (step s i).1 = (step' t i).1 ∧ R (step s i).2 (step' t i).2

theorem Simulates.runAll {step : σ → ι → ο × σ} {step' : τ → ι → ο × τ} {R : σ → τ → Prop}
    (sim : Simulates step step' R) {s : σ} {t : τ} (related : R s t) (is : List ι) :
    (runAll step s is).1 = (runAll step' t is).1 ∧
      R (runAll step s is).2 (runAll step' t is).2 := by
  induction is generalizing s t with
  | nil => exact ⟨rfl, related⟩
  | cons i is ih =>
      obtain ⟨answers, next⟩ := sim s t related i
      obtain ⟨rest, last⟩ := ih next
      exact ⟨congrArg₂ List.cons answers rest, last⟩

/-- What every step keeps between two machines, whole runs keep. -/
theorem runAll_keeps {step : σ → ι → ο × σ} {step' : τ → ι → ο × τ} {R : σ → τ → Prop}
    (keeps : ∀ s t, R s t → ∀ i, R (step s i).2 (step' t i).2) {s : σ} {t : τ}
    (related : R s t) (is : List ι) : R (runAll step s is).2 (runAll step' t is).2 := by
  induction is generalizing s t with
  | nil => exact related
  | cons i is ih => exact ih (keeps s t related i)

end FileVault.Lib
