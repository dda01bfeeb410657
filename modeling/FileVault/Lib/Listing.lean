import Mathlib.Data.List.Sort
import Mathlib.Data.String.Basic

/-!
# Sorted listings

Names are listed by sorting them and joining them. Sorting forgets in which order they came,
but not how often: the sorted list goes up strictly exactly if there was no repetition. Joining
forgets nothing, if no name has the first character of the separator.
-/

namespace FileVault.Lib

section Sorting

variable {α : Type} [LinearOrder α] {xs ys : List α}

theorem sort_pairwise (xs : List α) : (xs.mergeSort (· ≤ ·)).Pairwise (· ≤ ·) :=
  List.pairwise_mergeSort' _ xs

theorem sort_perm (xs : List α) : (xs.mergeSort (· ≤ ·)).Perm xs :=
  List.mergeSort_perm xs _

theorem mem_sort {x : α} : x ∈ xs.mergeSort (· ≤ ·) ↔ x ∈ xs := (sort_perm xs).mem_iff

theorem sort_eq_self (h : xs.Pairwise (· ≤ ·)) : xs.mergeSort (· ≤ ·) = xs :=
  List.mergeSort_eq_self _ h

theorem sort_eq_iff_perm : xs.mergeSort (· ≤ ·) = ys.mergeSort (· ≤ ·) ↔ xs.Perm ys := by
  constructor
  · intro h
    calc xs.Perm (xs.mergeSort (· ≤ ·)) := (sort_perm xs).symm
      _ = ys.mergeSort (· ≤ ·) := h
      List.Perm _ ys := sort_perm ys
  · intro h
    have hperm := ((sort_perm xs).trans h).trans (sort_perm ys).symm
    exact hperm.eq_of_pairwise' (sort_pairwise xs) (sort_pairwise ys)

/-- A sorted list goes up strictly exactly if nothing is in it twice. -/
theorem sort_strict_iff_nodup : (xs.mergeSort (· ≤ ·)).Pairwise (· < ·) ↔ xs.Nodup := by
  rw [← (sort_perm xs).nodup_iff]
  constructor
  · intro h
    exact h.imp ne_of_lt
  · intro h
    exact (sort_pairwise xs).imp₂ (fun _ _ hle hne => lt_of_le_of_ne hle hne) h

/-- Without repetitions, a set has one sorted listing. -/
theorem sort_eq_of_same_members (hxs : xs.Nodup) (hys : ys.Nodup)
    (h : ∀ x, x ∈ xs ↔ x ∈ ys) : xs.mergeSort (· ≤ ·) = ys.mergeSort (· ≤ ·) :=
  sort_eq_iff_perm.mpr ((List.perm_ext_iff_of_nodup hxs hys).mpr h)

end Sorting

section Joining

variable {α : Type} {a b : α}

theorem intercalate_cons_head (x : α) (l : List α) (ls : List (List α)) (sep : List α) :
    sep.intercalate ((x :: l) :: ls) = x :: sep.intercalate (l :: ls) := by
  cases ls with
  | nil => simp
  | cons m ls => simp [List.intercalate_cons_cons]

/-- The second character of a separator, given to the parts behind it. -/
theorem intercalate_pair (l : List α) (ls : List (List α)) :
    [a, b].intercalate (l :: ls) = [a].intercalate (l :: ls.map (b :: ·)) := by
  induction ls generalizing l with
  | nil => simp
  | cons m ls ih =>
      rw [List.map_cons, List.intercalate_cons_cons, List.intercalate_cons_cons, ih m,
        intercalate_cons_head]
      simp

/-- What was joined can be told from the result. -/
theorem intercalate_pair_inj [DecidableEq α] {xs ys : List (List α)} (hab : a ≠ b)
    (hxs : ∀ x ∈ xs, a ∉ x) (hys : ∀ y ∈ ys, a ∉ y) (hxs_ne : xs ≠ []) (hys_ne : ys ≠ [])
    (h : [a, b].intercalate xs = [a, b].intercalate ys) : xs = ys := by
  obtain ⟨x, xs, rfl⟩ := List.exists_cons_of_ne_nil hxs_ne
  obtain ⟨y, ys, rfl⟩ := List.exists_cons_of_ne_nil hys_ne
  have free : ∀ (l : List α) (ls : List (List α)), (∀ m ∈ l :: ls, a ∉ m) →
      ∀ m ∈ l :: ls.map (b :: ·), a ∉ m := by
    intro l ls hfree m hm
    rcases List.mem_cons.mp hm with rfl | hm
    · exact hfree _ List.mem_cons_self
    · obtain ⟨k, hk, rfl⟩ := List.mem_map.mp hm
      intro ha
      rcases List.mem_cons.mp ha with hb | hk'
      · exact hab hb
      · exact hfree k (List.mem_cons_of_mem _ hk) hk'
  rw [intercalate_pair, intercalate_pair] at h
  have split := congrArg (List.splitOn a) h
  rw [List.splitOn_intercalate a (free x xs hxs) (by simp),
    List.splitOn_intercalate a (free y ys hys) (by simp)] at split
  obtain ⟨rfl, htail⟩ := List.cons.inj split
  have inj : Function.Injective (b :: · : List α → List α) := fun _ _ heq => (List.cons.inj heq).2
  rw [List.map_injective_iff.mpr inj htail]

/-- Texts without the first character of the separator are told apart by their listing. -/
theorem join_inj {sep : String} {c d : Char} {xs ys : List String} (hsep : sep.toList = [c, d])
    (hcd : c ≠ d) (hxs : ∀ x ∈ xs, c ∉ x.toList) (hys : ∀ y ∈ ys, c ∉ y.toList)
    (hxs_ne : xs ≠ []) (hys_ne : ys ≠ [])
    (h : sep.intercalate xs = sep.intercalate ys) : xs = ys := by
  have chars := congrArg String.toList h
  rw [String.toList_intercalate, String.toList_intercalate, hsep] at chars
  have inj : Function.Injective String.toList := fun _ _ heq => String.toList_inj.mp heq
  apply List.map_injective_iff.mpr inj
  refine intercalate_pair_inj hcd ?_ ?_ (by simpa using hxs_ne) (by simpa using hys_ne) chars
  · intro l hl
    obtain ⟨s, hs, rfl⟩ := List.mem_map.mp hl
    exact hxs s hs
  · intro l hl
    obtain ⟨s, hs, rfl⟩ := List.mem_map.mp hl
    exact hys s hs

end Joining

end FileVault.Lib
