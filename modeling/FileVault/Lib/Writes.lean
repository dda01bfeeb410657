import FileVault.Lib.Slice

/-!
# Sequences of writes

A buffer filled in by several writes, as a format encoder does it. When the
writes lie inside the buffer and do not meet, each of them is still there at the
end, and so is everything they leave alone.
-/

namespace FileVault.Lib

variable {α : Type}

/-- The writes, in order, each at its offset. -/
def writeAll (xs : List α) (writes : List (Nat × List α)) : List α :=
  writes.foldl (fun acc w => splice acc w.1 w.2) xs

/-- Two writes that do not meet. -/
def Apart (w w' : Nat × List α) : Prop :=
  w.1 + w.2.length ≤ w'.1 ∨ w'.1 + w'.2.length ≤ w.1

/-- The writes lie inside a buffer of this length, and no two of them meet. -/
structure FitIn (length : Nat) (writes : List (Nat × List α)) : Prop where
  inside : ∀ w ∈ writes, w.1 + w.2.length ≤ length
  apart : writes.Pairwise Apart

@[simp] theorem writeAll_nil (xs : List α) : writeAll xs [] = xs := rfl

@[simp] theorem writeAll_cons (xs : List α) (w : Nat × List α) (ws : List (Nat × List α)) :
    writeAll xs (w :: ws) = writeAll (splice xs w.1 w.2) ws := rfl

theorem writeAll_append (xs : List α) (ws ws' : List (Nat × List α)) :
    writeAll xs (ws ++ ws') = writeAll (writeAll xs ws) ws' := by
  simp [writeAll]

theorem splice_nil (xs : List α) (off : Nat) : splice xs off [] = xs := by
  simp [splice]

theorem FitIn.tail {length : Nat} {w : Nat × List α} {ws : List (Nat × List α)}
    (h : FitIn length (w :: ws)) : FitIn length ws :=
  ⟨fun w' hw' => h.inside w' (List.mem_cons_of_mem _ hw'), (List.pairwise_cons.mp h.apart).2⟩

theorem writeAll_length {xs : List α} {writes : List (Nat × List α)}
    (h : FitIn xs.length writes) : (writeAll xs writes).length = xs.length := by
  induction writes generalizing xs with
  | nil => rfl
  | cons w ws ih =>
      have hlen : (splice xs w.1 w.2).length = xs.length := splice_length (h.inside w (by simp))
      rw [writeAll_cons, ih (hlen ▸ h.tail), hlen]

/-- What no write meets is as it was. -/
theorem slice_writeAll_apart {xs : List α} {writes : List (Nat × List α)} {off n : Nat}
    (h : FitIn xs.length writes)
    (apart : ∀ w ∈ writes, off + n ≤ w.1 ∨ w.1 + w.2.length ≤ off) :
    slice (writeAll xs writes) off n = slice xs off n := by
  induction writes generalizing xs with
  | nil => rfl
  | cons w ws ih =>
      have hin := h.inside w (by simp)
      have hlen : (splice xs w.1 w.2).length = xs.length := splice_length hin
      rw [writeAll_cons, ih (hlen ▸ h.tail) (fun w' hw' => apart w' (List.mem_cons_of_mem _ hw')),
        slice_splice_disjoint hin (apart w (by simp))]

/-- Every write is still there after all of them. -/
theorem slice_writeAll {xs ys : List α} {writes : List (Nat × List α)} {off n : Nat}
    (h : FitIn xs.length writes) (hw : (off, ys) ∈ writes) (hn : ys.length = n) :
    slice (writeAll xs writes) off n = ys := by
  induction writes generalizing xs with
  | nil => simp at hw
  | cons w ws ih =>
      have hin := h.inside w (by simp)
      have hlen : (splice xs w.1 w.2).length = xs.length := splice_length hin
      rw [writeAll_cons]
      rcases List.mem_cons.mp hw with rfl | hmem
      · rw [slice_writeAll_apart (hlen ▸ h.tail), ← hn, slice_splice_self hin]
        rw [← hn]
        exact (List.pairwise_cons.mp h.apart).1
      · exact ih (hlen ▸ h.tail) hmem

/-! ## Writes to a blank buffer -/

/-- A write past the front of a buffer leaves the front alone. -/
theorem splice_append_right {front xs ys : List α} {off : Nat} (h : front.length ≤ off) :
    splice (front ++ xs) off ys = front ++ splice xs (off - front.length) ys := by
  unfold splice
  rw [List.take_append, List.take_of_length_le h, List.drop_append,
    List.drop_eq_nil_of_le (by omega), List.nil_append,
    show off + ys.length - front.length = off - front.length + ys.length by omega]
  simp only [List.append_assoc]

/-- A write to a blank buffer. -/
theorem splice_blank {fill : α} {n off : Nat} {ys : List α} (h : off + ys.length ≤ n) :
    splice (List.replicate n fill) off ys =
      List.replicate off fill ++ (ys ++ List.replicate (n - (off + ys.length)) fill) := by
  unfold splice
  rw [List.take_replicate, List.drop_replicate, Nat.min_eq_left (by omega), List.append_assoc]

/-- Two writes to a blank buffer, one after the other. -/
theorem splice_splice_blank {fill : α} {n off off' : Nat} {ys zs : List α}
    (h : off + ys.length ≤ off') (h' : off' + zs.length ≤ n) :
    splice (splice (List.replicate n fill) off ys) off' zs =
      List.replicate off fill ++ (ys ++ (List.replicate (off' - (off + ys.length)) fill ++
        (zs ++ List.replicate (n - (off' + zs.length)) fill))) := by
  have front : (List.replicate off fill ++ ys).length = off + ys.length := by simp
  rw [splice_blank (by omega), ← List.append_assoc, splice_append_right (by omega), front,
    splice_blank (by omega), List.append_assoc,
    show n - (off + ys.length) - (off' - (off + ys.length) + zs.length) =
      n - (off' + zs.length) by omega]

end FileVault.Lib
