import Mathlib.Data.List.Basic
import Mathlib.Tactic

/-!
# Checks in order

A validation is a list of checks, each with the error it stands for. It comes to the error of the
first check that does not pass; there is none exactly if all of them pass.
-/

namespace FileVault.Lib

variable {ε : Type}

/-- What has to hold, and the error if it does not. -/
structure Check (ε : Type) where
  passes : Bool
  error : ε

/-- The error of the first check that does not pass. -/
def firstFault : List (Check ε) → Option ε
  | [] => none
  | check :: checks => if check.passes then firstFault checks else some check.error

variable {check : Check ε} {checks : List (Check ε)} {e : ε}

theorem firstFault_pass (h : check.passes = true) (checks : List (Check ε)) :
    firstFault (check :: checks) = firstFault checks := if_pos h

theorem firstFault_fail (h : check.passes = false) (checks : List (Check ε)) :
    firstFault (check :: checks) = some check.error := if_neg (by simp [h])

/-- Further checks are looked at once the ones before them pass. -/
theorem firstFault_append (checks more : List (Check ε)) :
    firstFault (checks ++ more) = (firstFault checks).or (firstFault more) := by
  induction checks with
  | nil => rfl
  | cons check checks ih =>
      cases h : check.passes with
      | true => rw [List.cons_append, firstFault_pass h, firstFault_pass h, ih]
      | false =>
          rw [List.cons_append, firstFault_fail h, firstFault_fail h]
          rfl

/-- No fault: everything passes. -/
theorem firstFault_none_iff :
    firstFault checks = none ↔ ∀ check ∈ checks, check.passes = true := by
  induction checks with
  | nil => simp [firstFault]
  | cons check checks ih =>
      cases h : check.passes with
      | true => rw [firstFault_pass h, ih, List.forall_mem_cons, and_iff_right h]
      | false =>
          rw [firstFault_fail h, List.forall_mem_cons]
          simp [h]

/-! ## What has been checked -/

section

variable {ε' α β : Type} {wrap : ε → ε'}

/-- The value, if every check passes. -/
def checked (wrap : ε → ε') (checks : List (Check ε)) (a : α) : Except ε' α :=
  match firstFault checks with
  | none => .ok a
  | some e => .error (wrap e)

theorem checked_of_none (h : firstFault checks = none) (a : α) :
    checked wrap checks a = .ok a := by
  rw [checked, h]

theorem checked_of_some (h : firstFault checks = some e) (a : α) :
    checked wrap checks a = .error (wrap e) := by
  rw [checked, h]

theorem checked_pass (h : check.passes = true) (checks : List (Check ε)) (a : α) :
    checked wrap (check :: checks) a = checked wrap checks a := by
  rw [checked, checked, firstFault_pass h]

theorem checked_fail (h : check.passes = false) (checks : List (Check ε)) (a : α) :
    checked wrap (check :: checks) a = .error (wrap check.error) :=
  checked_of_some (firstFault_fail h checks) a

/-- One check on its own. -/
theorem checked_one (check : Check ε) (a : α) :
    checked wrap [check] a = if check.passes then .ok a else .error (wrap check.error) := by
  cases h : check.passes with
  | true =>
      rw [checked_pass h]
      rfl
  | false =>
      rw [checked_fail h]
      rfl

/-- Checks that come after checks are further checks; they can rely on the ones before them. -/
theorem checked_bind {more : List (Check ε)} {a : α} {b : β} {f : α → Except ε' β}
    (h : (∀ check ∈ checks, check.passes = true) → f a = checked wrap more b) :
    (checked wrap checks a >>= f) = checked wrap (checks ++ more) b := by
  cases hfault : firstFault checks with
  | none =>
      rw [checked_of_none hfault]
      show f a = _
      rw [h (firstFault_none_iff.mp hfault), checked, checked, firstFault_append, hfault]
      rfl
  | some e =>
      rw [checked_of_some hfault, checked, firstFault_append, hfault]
      rfl

/-- There is a value exactly if everything passes. -/
theorem checked_ok_iff {a : α} :
    (∃ b, checked wrap checks a = .ok b) ↔ ∀ check ∈ checks, check.passes = true := by
  rw [← firstFault_none_iff]
  cases h : firstFault checks with
  | none => simp [checked_of_none h]
  | some e => simp [checked_of_some h]

/-- There is an error exactly if it is that of the first fault. -/
theorem checked_error_iff (inj : Function.Injective wrap) {a : α} :
    checked wrap checks a = .error (wrap e) ↔ firstFault checks = some e := by
  cases h : firstFault checks with
  | none => simp [checked_of_none h]
  | some e' =>
      rw [checked_of_some h, Except.error.injEq, Option.some.injEq]
      exact inj.eq_iff

end

end FileVault.Lib
