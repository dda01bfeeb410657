import FileVault.Lib.Slice

/-!
# Little-endian numbers

`leNat` reads a byte string of any width as a number, `leBytes` writes a number
at a given width; within that width each undoes the other.
-/

namespace FileVault.Lib

/-- The number a byte string spells, least significant byte first. -/
def leNat : List UInt8 → Nat
  | [] => 0
  | b :: bs => b.toNat + 256 * leNat bs

/-- The low `width` bytes of `n`, least significant first. -/
def leBytes : Nat → Nat → List UInt8
  | 0, _ => []
  | width + 1, n => UInt8.ofNat n :: leBytes width (n / 256)

@[simp] theorem leBytes_length (width n : Nat) : (leBytes width n).length = width := by
  induction width generalizing n with
  | zero => rfl
  | succ width ih => simp [leBytes, ih]

theorem leNat_lt (bs : List UInt8) : leNat bs < 256 ^ bs.length := by
  induction bs with
  | nil => simp [leNat]
  | cons b bs ih =>
      have hb := b.toNat_lt
      simp only [leNat, List.length_cons, Nat.pow_succ]
      omega

/-- The later bytes count for more. -/
theorem leNat_append (xs ys : List UInt8) :
    leNat (xs ++ ys) = leNat xs + 256 ^ xs.length * leNat ys := by
  induction xs with
  | nil => simp [leNat]
  | cons x xs ih =>
      rw [List.cons_append, leNat, leNat, ih, List.length_cons, Nat.pow_succ]
      ring

theorem leNat_leBytes {width n : Nat} (h : n < 256 ^ width) :
    leNat (leBytes width n) = n := by
  induction width generalizing n with
  | zero => simp at h; simp [leBytes, leNat, h]
  | succ width ih =>
      rw [Nat.pow_succ] at h
      simp only [leBytes, leNat]
      rw [ih (by omega), UInt8.toNat_ofNat']
      omega

/-- A byte string is what its number is written as. -/
theorem leBytes_leNat (bs : List UInt8) : leBytes bs.length (leNat bs) = bs := by
  induction bs with
  | nil => rfl
  | cons b bs ih =>
      have hb := b.toNat_lt
      have low : UInt8.ofNat (b.toNat + 256 * leNat bs) = b := by
        apply UInt8.toNat_inj.mp
        rw [UInt8.toNat_ofNat']
        omega
      have high : (b.toNat + 256 * leNat bs) / 256 = leNat bs := by omega
      rw [List.length_cons, leNat, leBytes, low, high, ih]

/-- Above the low bits, an `or` adds. -/
theorem or_shiftLeft (k : Nat) {low : Nat} (h : low < 2 ^ k) (b : Nat) :
    low ||| b <<< k = low + 2 ^ k * b := by
  rw [Nat.or_comm, ← Nat.shiftLeft_add_eq_or_of_lt h, Nat.shiftLeft_eq]
  ring

end FileVault.Lib
