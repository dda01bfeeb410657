import Mathlib.Tactic

/-!
# Runs with a log

A fallible run that notes what it does on the way. Its result is that of the run
without the log; its log is the notes of the steps that were reached, in order.
-/

namespace FileVault.Lib

/-- A run and the notes it made, up to its end or its error. -/
structure Traced (ω ε α : Type) where
  log : List ω
  result : Except ε α

namespace Traced

variable {ω ε α β : Type}

/-- A step that notes nothing. -/
def of (x : Except ε α) : Traced ω ε α := ⟨[], x⟩

/-- A step with a note. -/
def noting (w : ω) (x : Except ε α) : Traced ω ε α := ⟨[w], x⟩

instance : Monad (Traced ω ε) where
  pure a := of (.ok a)
  bind x f :=
    match x.result with
    | .ok a => ⟨x.log ++ (f a).log, (f a).result⟩
    | .error e => ⟨x.log, .error e⟩

@[simp] theorem of_log (x : Except ε α) : (of x : Traced ω ε α).log = [] := rfl

@[simp] theorem of_result (x : Except ε α) : (of x : Traced ω ε α).result = x := rfl

@[simp] theorem noting_log (w : ω) (x : Except ε α) : (noting w x).log = [w] := rfl

@[simp] theorem noting_result (w : ω) (x : Except ε α) : (noting w x).result = x := rfl

@[simp] theorem pure_log (a : α) : (pure a : Traced ω ε α).log = [] := rfl

@[simp] theorem pure_result (a : α) : (pure a : Traced ω ε α).result = .ok a := rfl

/-- The log has no say in the result. -/
@[simp] theorem bind_result (x : Traced ω ε α) (f : α → Traced ω ε β) :
    (x >>= f).result = x.result >>= fun a => (f a).result := by
  show (match x.result with
    | .ok a => (⟨x.log ++ (f a).log, (f a).result⟩ : Traced ω ε β)
    | .error e => ⟨x.log, .error e⟩).result = _
  cases x.result with
  | ok a => rfl
  | error e => rfl

theorem bind_log_ok {x : Traced ω ε α} {a : α} (h : x.result = .ok a)
    (f : α → Traced ω ε β) : (x >>= f).log = x.log ++ (f a).log := by
  show (match x.result with
    | .ok a => (⟨x.log ++ (f a).log, (f a).result⟩ : Traced ω ε β)
    | .error e => ⟨x.log, .error e⟩).log = _
  rw [h]

theorem bind_log_error {x : Traced ω ε α} {e : ε} (h : x.result = .error e)
    (f : α → Traced ω ε β) : (x >>= f).log = x.log := by
  show (match x.result with
    | .ok a => (⟨x.log ++ (f a).log, (f a).result⟩ : Traced ω ε β)
    | .error e => ⟨x.log, .error e⟩).log = _
  rw [h]

theorem of_ok_bind (a : α) (f : α → Traced ω ε β) : (of (.ok a) >>= f) = f a := rfl

theorem noting_ok_bind (w : ω) (a : α) (f : α → Traced ω ε β) :
    (noting w (.ok a) >>= f) = ⟨w :: (f a).log, (f a).result⟩ := rfl

/-- What is noted is noted by the first step, or by what comes after it if it succeeds. -/
theorem mem_bind_log {x : Traced ω ε α} {f : α → Traced ω ε β} {w : ω} :
    w ∈ (x >>= f).log ↔ w ∈ x.log ∨ ∃ a, x.result = .ok a ∧ w ∈ (f a).log := by
  cases hx : x.result with
  | ok a => simp [bind_log_ok hx]
  | error e => simp [bind_log_error hx]

end Traced

end FileVault.Lib
