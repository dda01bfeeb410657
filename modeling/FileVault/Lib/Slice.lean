import Mathlib.Tactic

/-!
# Slices and splices of lists

A slice is the stretch of a list that starts at an offset; a splice writes a
stretch over the one already there. The two laws everything else rests on are
that a slice of a splice is the spliced data where the two coincide, and the old
data where they do not meet.
-/

namespace FileVault.Lib

variable {α : Type}

/-- The `n` elements from offset `off` on (fewer at the end of the list). -/
def slice (xs : List α) (off n : Nat) : List α := (xs.drop off).take n

/-- `ys` written over `xs` from offset `off` on. -/
def splice (xs : List α) (off : Nat) (ys : List α) : List α :=
  xs.take off ++ ys ++ xs.drop (off + ys.length)

@[simp] theorem slice_length (xs : List α) (off n : Nat) :
    (slice xs off n).length = min n (xs.length - off) := by
  simp [slice]

theorem slice_getElem? (xs : List α) (off n i : Nat) :
    (slice xs off n)[i]? = if i < n then xs[off + i]? else none := by
  unfold slice
  by_cases h : i < n
  · simp [h]
  · simp [h]

theorem slice_length_of_le {xs : List α} {off n : Nat} (h : off + n ≤ xs.length) :
    (slice xs off n).length = n := by
  rw [slice_length]
  omega

@[simp] theorem slice_zero (xs : List α) (off : Nat) : slice xs off 0 = [] := by
  simp [slice]

theorem slice_all (xs : List α) : slice xs 0 xs.length = xs := by
  simp [slice]

/-- One element of a list. -/
theorem slice_one {xs : List α} {off : Nat} {x : α} (h : xs[off]? = some x) :
    slice xs off 1 = [x] := by
  rw [slice, List.take_one, List.head?_drop, h]
  rfl

/-- A slice of a slice is a slice. -/
theorem slice_slice {xs : List α} {off n off' n' : Nat} (h : off' + n' ≤ n) :
    slice (slice xs off n) off' n' = slice xs (off + off') n' := by
  apply List.ext_getElem?
  intro i
  simp only [slice_getElem?]
  by_cases hi : i < n'
  · rw [if_pos hi, if_pos hi, if_pos (by omega), Nat.add_assoc]
  · rw [if_neg hi, if_neg hi]

/-- A slice splits at any point inside it. -/
theorem slice_add (xs : List α) (off n m : Nat) :
    slice xs off (n + m) = slice xs off n ++ slice xs (off + n) m := by
  unfold slice
  rw [List.take_add, List.drop_drop]

/-- What lies past the slice does not matter to it. -/
theorem slice_take {xs : List α} {off n k : Nat} (h : off + n ≤ k) :
    slice (xs.take k) off n = slice xs off n := by
  apply List.ext_getElem?
  intro i
  simp only [slice_getElem?]
  by_cases hi : i < n
  · rw [if_pos hi, if_pos hi, List.getElem?_take, if_pos (by omega)]
  · rw [if_neg hi, if_neg hi]

/-- The middle part of a concatenation. -/
theorem slice_append_middle (pre xs post : List α) :
    slice (pre ++ xs ++ post) pre.length xs.length = xs := by
  simp [slice, List.append_assoc]

/-- What follows the occurrence is what is left after it. -/
theorem drop_past {xs front needle rest : List α} {start : Nat}
    (h : xs.drop start = front ++ (needle ++ rest)) :
    xs.drop (start + front.length + needle.length) = rest := by
  rw [← List.drop_drop, ← List.drop_drop, h, List.drop_left, List.drop_left]

theorem slice_append_left {xs ys : List α} {off n : Nat} (h : off + n ≤ xs.length) :
    slice (xs ++ ys) off n = slice xs off n := by
  apply List.ext_getElem?
  intro i
  simp only [slice_getElem?]
  by_cases hi : i < n
  · rw [if_pos hi, if_pos hi, List.getElem?_append_left (by omega)]
  · rw [if_neg hi, if_neg hi]

theorem slice_append_right {xs ys : List α} {off n : Nat} (h : xs.length ≤ off) :
    slice (xs ++ ys) off n = slice ys (off - xs.length) n := by
  apply List.ext_getElem?
  intro i
  simp only [slice_getElem?]
  by_cases hi : i < n
  · rw [if_pos hi, if_pos hi, List.getElem?_append_right (by omega)]
    congr 1
    omega
  · rw [if_neg hi, if_neg hi]

/-- A slice only depends on how much of it there is. -/
theorem slice_slice_length (xs : List α) (off n : Nat) :
    slice xs off (slice xs off n).length = slice xs off n := by
  unfold slice
  rw [List.length_take, List.take_eq_take_iff]
  omega

/-! ## Splices -/

theorem splice_length {xs ys : List α} {off : Nat} (h : off + ys.length ≤ xs.length) :
    (splice xs off ys).length = xs.length := by
  unfold splice
  simp
  omega

theorem splice_getElem? {xs ys : List α} {off : Nat} (h : off + ys.length ≤ xs.length)
    (i : Nat) :
    (splice xs off ys)[i]? =
      if off ≤ i ∧ i < off + ys.length then ys[i - off]? else xs[i]? := by
  have htake : (xs.take off).length = off := by
    simp
    omega
  unfold splice
  by_cases hlow : i < off
  · rw [if_neg (by omega), List.append_assoc, List.getElem?_append_left (by omega),
      List.getElem?_take, if_pos hlow]
  · by_cases hmid : i < off + ys.length
    · rw [if_pos ⟨by omega, hmid⟩, List.append_assoc, List.getElem?_append_right (by omega),
        htake, List.getElem?_append_left (by omega)]
    · rw [if_neg (by omega), List.getElem?_append_right (by simp; omega), List.getElem?_drop]
      congr 1
      simp
      omega

/-- Reading back what was written. -/
theorem slice_splice_self {xs ys : List α} {off : Nat} (h : off + ys.length ≤ xs.length) :
    slice (splice xs off ys) off ys.length = ys := by
  apply List.ext_getElem?
  intro i
  rw [slice_getElem?]
  by_cases hi : i < ys.length
  · rw [if_pos hi, splice_getElem? h, if_pos (by omega), Nat.add_sub_cancel_left]
  · rw [if_neg hi, List.getElem?_eq_none (by omega)]

/-- A write leaves every stretch it does not meet alone. -/
theorem slice_splice_disjoint {xs ys : List α} {off off' n : Nat}
    (h : off + ys.length ≤ xs.length) (apart : off' + n ≤ off ∨ off + ys.length ≤ off') :
    slice (splice xs off ys) off' n = slice xs off' n := by
  apply List.ext_getElem?
  intro i
  simp only [slice_getElem?]
  by_cases hi : i < n
  · rw [if_pos hi, if_pos hi, splice_getElem? h, if_neg (by omega)]
  · rw [if_neg hi, if_neg hi]

/-- Two writes, the second starting where the first ends, are one. -/
theorem splice_splice_adjacent {xs ys zs : List α} {off : Nat}
    (h : off + ys.length ≤ xs.length) :
    splice (splice xs off ys) (off + ys.length) zs = splice xs off (ys ++ zs) := by
  have front : (xs.take off ++ ys).length = off + ys.length := by
    simp
    omega
  unfold splice
  rw [List.take_left' front, ← List.drop_drop, List.drop_left' front, List.drop_drop,
    List.length_append, Nat.add_assoc]
  simp only [List.append_assoc]

theorem splice_all {xs ys : List α} (h : xs.length = ys.length) : splice xs 0 ys = ys := by
  simp [splice, h]

/-- Writing back what was read. -/
theorem splice_slice_self (xs : List α) (off n : Nat) : splice xs off (slice xs off n) = xs := by
  have stretch : slice xs off n = (xs.drop off).take (slice xs off n).length :=
    (slice_slice_length xs off n).symm
  unfold splice
  rw [List.append_assoc, ← List.drop_drop]
  nth_rewrite 1 [stretch]
  rw [List.take_append_drop, List.take_append_drop]

/-! ## Slices past the end -/

/-- The `n` elements from `off` on, with `fill` where the list has ended. -/
def sliceD (xs : List α) (off n : Nat) (fill : α) : List α :=
  (List.range n).map fun i => xs.getD (off + i) fill

@[simp] theorem sliceD_length (xs : List α) (off n : Nat) (fill : α) :
    (sliceD xs off n fill).length = n := by
  simp [sliceD]

theorem sliceD_getElem? (xs : List α) (off n : Nat) (fill : α) (i : Nat) :
    (sliceD xs off n fill)[i]? = if i < n then some (xs.getD (off + i) fill) else none := by
  unfold sliceD
  by_cases h : i < n
  · simp [h]
  · simp [h]

/-- A slice of a filled-up slice is one itself. -/
theorem slice_sliceD {xs : List α} {off n off' n' : Nat} {fill : α} (h : off' + n' ≤ n) :
    slice (sliceD xs off n fill) off' n' = sliceD xs (off + off') n' fill := by
  apply List.ext_getElem?
  intro i
  rw [slice_getElem?, sliceD_getElem?, sliceD_getElem?]
  by_cases hi : i < n'
  · rw [if_pos hi, if_pos hi, if_pos (by omega), Nat.add_assoc]
  · rw [if_neg hi, if_neg hi]

/-- Inside the list there is nothing to fill up. -/
theorem sliceD_eq_slice {xs : List α} {off n : Nat} {fill : α} (h : off + n ≤ xs.length) :
    sliceD xs off n fill = slice xs off n := by
  apply List.ext_getElem?
  intro i
  rw [slice_getElem?, sliceD_getElem?]
  by_cases hi : i < n
  · rw [if_pos hi, if_pos hi, List.getD_eq_getElem?_getD, List.getElem?_eq_getElem (by omega)]
    rfl
  · rw [if_neg hi, if_neg hi]

/-- What there is of a slice, written over a blank buffer. -/
theorem splice_replicate (xs : List α) (off n : Nat) (fill : α) :
    splice (List.replicate n fill) 0 (slice xs off n) = sliceD xs off n fill := by
  have hlen := slice_length xs off n
  apply List.ext_getElem?
  intro i
  rw [splice_getElem? (by rw [List.length_replicate]; omega), sliceD_getElem?, Nat.zero_add]
  by_cases hi : i < n
  · rw [if_pos hi, List.getD_eq_getElem?_getD]
    by_cases inside : off + i < xs.length
    · rw [if_pos (by omega), Nat.sub_zero, slice_getElem?, if_pos hi,
        List.getElem?_eq_getElem inside]
      rfl
    · rw [if_neg (by omega), List.getElem?_replicate, if_pos hi,
        List.getElem?_eq_none (by omega)]
      rfl
  · rw [if_neg (by omega), if_neg hi, List.getElem?_replicate, if_neg hi]

end FileVault.Lib
