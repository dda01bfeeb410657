import Mathlib.Tactic

/-!
# Errors, panics and machine arithmetic

The crate's error type (`error.rs`) and the result every modelled call returns.
A Rust call ends in a value, in an error its caller sees, or in a panic; `Run`
keeps the last two apart, since half of the properties below are about which of
them an input reaches.

`usize` and `u64` are both 64 bits wide here. Plain `+`, `-` and `*` on them
panic when the exact result does not fit (overflow checks on); the
`checked_*` and `saturating_*` forms are modelled by their own functions.
-/

namespace FileVault

/-- The bytes of a slice, a buffer or an image. -/
abbrev Bytes := List UInt8

/-- A fixed-size array `[u8; n]`. -/
abbrev ByteArr (n : Nat) := { bytes : Bytes // bytes.length = n }

/-- `[0u8; n]`. -/
def ByteArr.zero (n : Nat) : ByteArr n := ⟨List.replicate n 0, List.length_replicate⟩

/-- `[byte; n]`. -/
def ByteArr.fill (n : Nat) (byte : UInt8) : ByteArr n :=
  ⟨List.replicate n byte, List.length_replicate⟩

/-- `std::io::Error`, as far as the crate can tell two of them apart: the short
read that `read_exact` reports, and whatever the backing device failed with. -/
inductive IoError
  | unexpectedEof
  | device (code : Nat)
  deriving DecidableEq, Repr

/-- `FileVaultError`: every failure is loud and named. -/
inductive FileVaultError
  | io (e : IoError)
  | notCoreStorage (found : UInt16)
  | unsupportedEncryptionMethod (found : UInt32)
  | metadataStructureMissing (what : String)
  | base64 (what : String)
  | keyUnwrap (what : String)
  | outOfRange (what : String)
  deriving DecidableEq, Repr

/-- Why a call does not return a value. -/
inductive Stop
  | error (e : FileVaultError)
  | panic
  deriving DecidableEq, Repr

/-- The result of a modelled call. -/
abbrev Run (α : Type) := Except Stop α

/-- `Err(e)`. -/
def fail {α : Type} (e : FileVaultError) : Run α := .error (.error e)

/-- A failed assertion, an overflow or an index out of bounds. -/
def panicked {α : Type} : Run α := .error .panic

/-- `Option::ok_or`. -/
def okOr {α : Type} (o : Option α) (e : FileVaultError) : Run α :=
  match o with
  | some a => .ok a
  | none => fail e

@[simp] theorem okOr_some {α : Type} (a : α) (e : FileVaultError) :
    okOr (some a) e = .ok a := rfl

@[simp] theorem okOr_none {α : Type} (e : FileVaultError) :
    okOr (none : Option α) e = fail e := rfl

@[simp] theorem ok_bind {α β : Type} (a : α) (f : α → Run β) :
    ((Except.ok a : Run α) >>= f) = f a := rfl

@[simp] theorem error_bind {α β : Type} (s : Stop) (f : α → Run β) :
    ((Except.error s : Run α) >>= f) = .error s := rfl

@[simp] theorem fail_bind {α β : Type} (e : FileVaultError) (f : α → Run β) :
    ((fail e : Run α) >>= f) = fail e := rfl

@[simp] theorem pure_run {α : Type} (a : α) : (pure a : Run α) = .ok a := rfl

/-- A successful sequence takes apart into its two successful steps. -/
theorem bind_eq_ok {α β : Type} {x : Run α} {f : α → Run β} {b : β} :
    (x >>= f) = .ok b ↔ ∃ a, x = .ok a ∧ f a = .ok b := by
  cases x with
  | ok a => simp
  | error s => simp

@[simp] theorem fail_ne_panicked {α : Type} (e : FileVaultError) :
    (fail e : Run α) ≠ panicked := by
  simp [fail, panicked]

@[simp] theorem ok_ne_panicked {α : Type} (a : α) : (Except.ok a : Run α) ≠ panicked := by
  simp [panicked]

theorem okOr_ne_panicked {α : Type} (o : Option α) (e : FileVaultError) :
    okOr o e ≠ panicked := by
  cases o with
  | some a => exact ok_ne_panicked a
  | none => exact fail_ne_panicked e

/-- A sequence panics only where one of its steps does. -/
theorem bind_ne_panicked {α β : Type} {x : Run α} {f : α → Run β} (hx : x ≠ panicked)
    (hf : ∀ a, x = .ok a → f a ≠ panicked) : (x >>= f) ≠ panicked := by
  cases x with
  | ok a => exact hf a rfl
  | error stop => simpa [panicked] using hx

/-! ## 64-bit arithmetic -/

/-- One past the largest `usize` / `u64`. -/
def usizeSize : Nat := 2 ^ 64

theorem usizeSize_eq : usizeSize = 18446744073709551616 := rfl

/-- `isize::MAX`: no Rust object is longer. -/
def isizeMax : Nat := 2 ^ 63 - 1

theorem isizeMax_eq : isizeMax = 9223372036854775807 := rfl

/-- `a + b`. -/
def uadd (a b : Nat) : Run Nat := if a + b < usizeSize then .ok (a + b) else panicked

/-- `a - b`. -/
def usub (a b : Nat) : Run Nat := if b ≤ a then .ok (a - b) else panicked

/-- `a * b`. -/
def umul (a b : Nat) : Run Nat := if a * b < usizeSize then .ok (a * b) else panicked

/-- `a.checked_add(b)`. -/
def checkedAdd (a b : Nat) : Option Nat := if a + b < usizeSize then some (a + b) else none

/-- `a.checked_sub(b)`. -/
def checkedSub (a b : Nat) : Option Nat := if b ≤ a then some (a - b) else none

/-- `a.checked_mul(b)`. -/
def checkedMul (a b : Nat) : Option Nat := if a * b < usizeSize then some (a * b) else none

/-- `a.saturating_mul(b)`. -/
def saturatingMul (a b : Nat) : Nat := min (a * b) (usizeSize - 1)

theorem uadd_eq {a b : Nat} (h : a + b < usizeSize) : uadd a b = .ok (a + b) := if_pos h

theorem usub_eq {a b : Nat} (h : b ≤ a) : usub a b = .ok (a - b) := if_pos h

theorem umul_eq {a b : Nat} (h : a * b < usizeSize) : umul a b = .ok (a * b) := if_pos h

theorem checkedAdd_eq {a b : Nat} (h : a + b < usizeSize) :
    checkedAdd a b = some (a + b) := if_pos h

theorem saturatingMul_lt (a b : Nat) : saturatingMul a b < usizeSize := by
  have := usizeSize_eq
  unfold saturatingMul
  omega

theorem saturatingMul_eq {a b : Nat} (h : a * b < usizeSize) :
    saturatingMul a b = a * b := by
  unfold saturatingMul
  omega

/-- `vec![0u8; n]`: a length past `isize::MAX` is a capacity overflow. The
allocation itself is taken to succeed. -/
def vecZeroed (n : Nat) : Run Bytes :=
  if n ≤ isizeMax then .ok (List.replicate n 0) else panicked

theorem vecZeroed_eq {n : Nat} (h : n ≤ isizeMax) :
    vecZeroed n = .ok (List.replicate n 0) := if_pos h

end FileVault
