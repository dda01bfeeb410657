import Mathlib.Tactic

/-!
# Loops with fuel

A loop as its source has it, with nothing said about its end: it runs as long as there is
fuel. A measure that every further pass brings down is enough fuel, and then the loop gives
what its unfolding does.
-/

namespace FileVault.Lib

variable {σ ρ : Type}

/-- What one pass through the body of a loop comes to. -/
inductive Pass (σ ρ : Type)
  | again (s : σ)
  | leave (r : ρ)

/-- The passes from a state on, as far as the fuel goes. -/
def runLoop (body : σ → Pass σ ρ) : (fuel : Nat) → σ → Option ρ
  | 0, _ => none
  | fuel + 1, s =>
      match body s with
      | .leave r => some r
      | .again s' => runLoop body fuel s'

/-- A loop whose measure goes down returns: what one pass preserves and unfolds to, the run
comes to. -/
theorem runLoop_eq {body : σ → Pass σ ρ} {inv : σ → Prop} (measure : σ → Nat) (result : σ → ρ)
    (leaves : ∀ s r, inv s → body s = .leave r → result s = r)
    (again : ∀ s s', inv s → body s = .again s' →
      inv s' ∧ result s = result s' ∧ measure s' < measure s) :
    ∀ (fuel : Nat) (s : σ), inv s → measure s < fuel → runLoop body fuel s = some (result s) := by
  intro fuel
  induction fuel with
  | zero =>
      intro s _ h
      exact absurd h (by omega)
  | succ fuel ih =>
      intro s hinv h
      rw [runLoop]
      cases hbody : body s with
      | leave r => rw [leaves s r hinv hbody]
      | again s' =>
          obtain ⟨hinv', hresult, hless⟩ := again s s' hinv hbody
          rw [hresult]
          exact ih s' hinv' (by omega)

end FileVault.Lib
