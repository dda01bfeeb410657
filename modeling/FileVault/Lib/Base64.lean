import Mathlib.Tactic

/-!
# Base64

The standard alphabet with padding. Decoding is strict: the padding must be there,
only at the end, and the bits it leaves over must be zero.
-/

namespace FileVault.Lib.Base64

/-- The digit of a value below 64. -/
def digit (n : Nat) : UInt8 :=
  if n < 26 then .ofNat (65 + n)
  else if n < 52 then .ofNat (97 + (n - 26))
  else if n < 62 then .ofNat (48 + (n - 52))
  else if n = 62 then 43
  else 47

/-- The value of a digit. -/
def value? (b : UInt8) : Option Nat :=
  let n := b.toNat
  if 65 ≤ n ∧ n ≤ 90 then some (n - 65)
  else if 97 ≤ n ∧ n ≤ 122 then some (n - 97 + 26)
  else if 48 ≤ n ∧ n ≤ 57 then some (n - 48 + 52)
  else if n = 43 then some 62
  else if n = 47 then some 63
  else none

/-- `=`. -/
def pad : UInt8 := 61

def encode : List UInt8 → List UInt8
  | a :: b :: c :: rest =>
      digit (a.toNat / 4) :: digit (a.toNat % 4 * 16 + b.toNat / 16) ::
        digit (b.toNat % 16 * 4 + c.toNat / 64) :: digit (c.toNat % 64) :: encode rest
  | [a, b] =>
      [digit (a.toNat / 4), digit (a.toNat % 4 * 16 + b.toNat / 16), digit (b.toNat % 16 * 4), pad]
  | [a] => [digit (a.toNat / 4), digit (a.toNat % 4 * 16), pad, pad]
  | [] => []

/-- Four digits. -/
def decodeGroup (w x y z : UInt8) : Option (List UInt8) := do
  let w ← value? w
  let x ← value? x
  let y ← value? y
  let z ← value? z
  return [.ofNat (w * 4 + x / 16), .ofNat (x % 16 * 16 + y / 4), .ofNat (y % 4 * 64 + z)]

/-- The last group, which may be padded. -/
def decodeLast (w x y z : UInt8) : Option (List UInt8) :=
  if z ≠ pad then decodeGroup w x y z
  else if y ≠ pad then do
    let w ← value? w
    let x ← value? x
    let y ← value? y
    if y % 4 = 0 then return [.ofNat (w * 4 + x / 16), .ofNat (x % 16 * 16 + y / 4)] else none
  else do
    let w ← value? w
    let x ← value? x
    if x % 16 = 0 then return [.ofNat (w * 4 + x / 16)] else none

def decode : List UInt8 → Option (List UInt8)
  | [] => some []
  | [w, x, y, z] => decodeLast w x y z
  | w :: x :: y :: z :: rest => do return (← decodeGroup w x y z) ++ (← decode rest)
  | _ => none

/-! ## The two undo one another -/

theorem value?_digit : ∀ n < 64, value? (digit n) = some n ∧ digit n ≠ pad := by
  decide

/-- Three bytes through four digits. -/
theorem decodeGroup_digits (a b c : UInt8) :
    decodeGroup (digit (a.toNat / 4)) (digit (a.toNat % 4 * 16 + b.toNat / 16))
      (digit (b.toNat % 16 * 4 + c.toNat / 64)) (digit (c.toNat % 64)) = some [a, b, c] := by
  have ha := a.toNat_lt
  have hb := b.toNat_lt
  have hc := c.toNat_lt
  simp only [decodeGroup, (value?_digit (a.toNat / 4) (by omega)).1,
    (value?_digit (a.toNat % 4 * 16 + b.toNat / 16) (by omega)).1,
    (value?_digit (b.toNat % 16 * 4 + c.toNat / 64) (by omega)).1,
    (value?_digit (c.toNat % 64) (by omega)).1, Option.bind_eq_bind, Option.bind_some,
    Option.pure_def]
  rw [show a.toNat / 4 * 4 + (a.toNat % 4 * 16 + b.toNat / 16) / 16 = a.toNat by omega,
    show (a.toNat % 4 * 16 + b.toNat / 16) % 16 * 16 + (b.toNat % 16 * 4 + c.toNat / 64) / 4 =
      b.toNat by omega,
    show (b.toNat % 16 * 4 + c.toNat / 64) % 4 * 64 + c.toNat % 64 = c.toNat by omega]
  simp only [UInt8.ofNat_toNat]

theorem decodeLast_two (a b : UInt8) :
    decodeLast (digit (a.toNat / 4)) (digit (a.toNat % 4 * 16 + b.toNat / 16))
      (digit (b.toNat % 16 * 4)) pad = some [a, b] := by
  have ha := a.toNat_lt
  have hb := b.toNat_lt
  rw [decodeLast, if_neg (by decide), if_pos (value?_digit (b.toNat % 16 * 4) (by omega)).2]
  simp only [(value?_digit (a.toNat / 4) (by omega)).1,
    (value?_digit (a.toNat % 4 * 16 + b.toNat / 16) (by omega)).1,
    (value?_digit (b.toNat % 16 * 4) (by omega)).1, Option.bind_eq_bind, Option.bind_some,
    Option.pure_def]
  rw [if_pos (by omega),
    show a.toNat / 4 * 4 + (a.toNat % 4 * 16 + b.toNat / 16) / 16 = a.toNat by omega,
    show (a.toNat % 4 * 16 + b.toNat / 16) % 16 * 16 + b.toNat % 16 * 4 / 4 = b.toNat by omega]
  simp only [UInt8.ofNat_toNat]

theorem decodeLast_one (a : UInt8) :
    decodeLast (digit (a.toNat / 4)) (digit (a.toNat % 4 * 16)) pad pad = some [a] := by
  have ha := a.toNat_lt
  rw [decodeLast, if_neg (by decide), if_neg (by decide)]
  simp only [(value?_digit (a.toNat / 4) (by omega)).1,
    (value?_digit (a.toNat % 4 * 16) (by omega)).1, Option.bind_eq_bind, Option.bind_some,
    Option.pure_def]
  rw [if_pos (by omega), show a.toNat / 4 * 4 + a.toNat % 4 * 16 / 16 = a.toNat by omega]
  simp only [UInt8.ofNat_toNat]

theorem decode_encode (bytes : List UInt8) : decode (encode bytes) = some bytes := by
  fun_induction encode bytes with
  | case1 a b c rest ih =>
      cases hrest : encode rest with
      | nil =>
          rw [hrest] at ih
          obtain rfl : [] = rest := Option.some.inj ih
          have hz := (value?_digit (c.toNat % 64) (by omega)).2
          rw [decode, decodeLast, if_pos hz, decodeGroup_digits]
      | cons d ds =>
          rw [hrest] at ih
          rw [decode, decodeGroup_digits, ih]
          · rfl
          · simp
  | case2 a b => exact decodeLast_two a b
  | case3 a => exact decodeLast_one a
  | case4 => rfl

theorem encode_length (bytes : List UInt8) :
    (encode bytes).length = 4 * ((bytes.length + 2) / 3) := by
  fun_induction encode bytes with
  | case1 a b c rest ih =>
      simp only [List.length_cons, ih]
      omega
  | case2 a b => simp
  | case3 a => simp
  | case4 => rfl

/-- Everything in an encoding is a digit or padding. -/
theorem mem_encode {bytes : List UInt8} {b : UInt8} (h : b ∈ encode bytes) :
    (∃ n < 64, b = digit n) ∨ b = pad := by
  fun_induction encode bytes with
  | case1 a b' c rest ih =>
      have ha := a.toNat_lt
      have hb := b'.toNat_lt
      have hc := c.toNat_lt
      simp only [List.mem_cons] at h
      rcases h with rfl | rfl | rfl | rfl | h
      · exact .inl ⟨_, by omega, rfl⟩
      · exact .inl ⟨_, by omega, rfl⟩
      · exact .inl ⟨_, by omega, rfl⟩
      · exact .inl ⟨_, by omega, rfl⟩
      · exact ih h
  | case2 a b' =>
      have ha := a.toNat_lt
      have hb := b'.toNat_lt
      simp only [List.mem_cons, List.not_mem_nil, or_false] at h
      rcases h with rfl | rfl | rfl | rfl
      · exact .inl ⟨_, by omega, rfl⟩
      · exact .inl ⟨_, by omega, rfl⟩
      · exact .inl ⟨_, by omega, rfl⟩
      · exact .inr rfl
  | case3 a =>
      have ha := a.toNat_lt
      simp only [List.mem_cons, List.not_mem_nil, or_false] at h
      rcases h with rfl | rfl | rfl | rfl
      · exact .inl ⟨_, by omega, rfl⟩
      · exact .inl ⟨_, by omega, rfl⟩
      · exact .inr rfl
      · exact .inr rfl
  | case4 => simp at h

end FileVault.Lib.Base64
