import FileVault.Lib.Slice

/-!
# Leftmost substring search

`firstMatch` finds the first position at which a needle occurs in a list. Two
notions carry the proofs about scanners built from it:

* `firstMatch_eq_some` says what a result means position by position, and
  `firstMatch_split` as a split of the text;
* `AvoidsBefore needle xs rest` says that no occurrence of the needle starts inside
  `xs` in front of `rest`, and `Avoids needle xs` that none does *whatever follows*.
  The second is closed under concatenation, so the search over a document made of
  pieces skips the pieces one by one (`firstMatch_skip`, `firstMatch_hit`).

An occurrence elsewhere in the text then bounds how long such a piece can be
(`AvoidsBefore.length_le`).
-/

namespace FileVault.Lib

variable {α : Type}

section

variable [DecidableEq α]

/-- The first position at which `needle` occurs; an empty list has none. -/
def firstMatch (needle : List α) : List α → Option Nat
  | [] => none
  | x :: xs =>
      if needle <+: x :: xs then some 0 else (firstMatch needle xs).map (· + 1)

/-- The result is a position where the needle occurs, and the first such. -/
theorem firstMatch_eq_some {needle hay : List α} {i : Nat} :
    firstMatch needle hay = some i ↔
      i < hay.length ∧ needle <+: hay.drop i ∧ ∀ j < i, ¬ needle <+: hay.drop j := by
  induction hay generalizing i with
  | nil => simp [firstMatch]
  | cons x xs ih =>
      unfold firstMatch
      by_cases here : needle <+: x :: xs
      · rw [if_pos here]
        constructor
        · intro h
          obtain rfl : 0 = i := by simpa using h
          exact ⟨by simp, by simpa using here, by simp⟩
        · rintro ⟨-, -, first⟩
          cases i with
          | zero => rfl
          | succ i => exact absurd (by simpa using here) (first 0 (by omega))
      · rw [if_neg here]
        cases i with
        | zero =>
            constructor
            · simp
            · rintro ⟨-, h, -⟩
              exact absurd (by simpa using h) here
        | succ i =>
            rw [show (Option.map (· + 1) (firstMatch needle xs) = some (i + 1)) ↔
              firstMatch needle xs = some i by simp, ih]
            constructor
            · rintro ⟨hlen, hit, first⟩
              refine ⟨by simpa using hlen, by simpa using hit, ?_⟩
              intro j hj
              cases j with
              | zero => simpa using here
              | succ j => simpa using first j (by omega)
            · rintro ⟨hlen, hit, first⟩
              exact ⟨by simpa using hlen, by simpa using hit,
                fun j hj => by simpa using first (j + 1) (by omega)⟩

theorem firstMatch_self {needle rest : List α} (hne : needle ≠ []) :
    firstMatch needle (needle ++ rest) = some 0 := by
  rw [firstMatch_eq_some]
  have := List.length_pos_iff.mpr hne
  exact ⟨by simp; omega, by simp, by simp⟩

/-- A match ends inside the list. -/
theorem firstMatch_bound {needle hay : List α} {i : Nat} (h : firstMatch needle hay = some i) :
    i + needle.length ≤ hay.length := by
  obtain ⟨hlt, hit, -⟩ := firstMatch_eq_some.mp h
  have := hit.length_le
  rw [List.length_drop] at this
  omega

/-- What comes after the list does not change where the needle is found in it. -/
theorem firstMatch_append {needle xs : List α} {i : Nat} (h : firstMatch needle xs = some i)
    (ys : List α) : firstMatch needle (xs ++ ys) = some i := by
  have bound := firstMatch_bound h
  obtain ⟨hlt, hit, first⟩ := firstMatch_eq_some.mp h
  refine firstMatch_eq_some.mpr ⟨by rw [List.length_append]; omega, ?_, ?_⟩
  · rw [List.drop_append_of_le_length (by omega)]
    exact hit.trans (List.prefix_append _ _)
  · intro j hj hearlier
    rw [List.drop_append_of_le_length (by omega)] at hearlier
    -- an earlier occurrence would lie inside the list as well
    refine first j hj (List.prefix_of_prefix_length_le hearlier (List.prefix_append _ _) ?_)
    rw [List.length_drop]
    omega

end

/-! ## Skipping -/

/-- No occurrence of `needle` starts inside `xs`, whatever follows `xs`. -/
def Avoids (needle xs : List α) : Prop :=
  ∀ i < xs.length, ∀ rest, ¬ needle <+: xs.drop i ++ rest

/-- No occurrence of `needle` starts inside `xs` when `rest` follows it. -/
def AvoidsBefore (needle xs rest : List α) : Prop :=
  ∀ i < xs.length, ¬ needle <+: xs.drop i ++ rest

theorem Avoids.before {needle xs : List α} (h : Avoids needle xs) (rest : List α) :
    AvoidsBefore needle xs rest := fun i hi => h i hi rest

/-- Where the needle does occur, the text that has none is over. -/
theorem AvoidsBefore.length_le {needle xs rest front rest' : List α}
    (h : AvoidsBefore needle xs rest) (hsplit : xs ++ rest = front ++ (needle ++ rest')) :
    xs.length ≤ front.length := by
  by_contra hlt
  refine h front.length (by omega) ⟨rest', ?_⟩
  rw [← List.drop_append_of_le_length (by omega), hsplit, List.drop_left]

/-- At the end of the text it is enough that the needle does not occur. -/
theorem avoidsBefore_nil {needle xs : List α} (h : ¬ needle <:+: xs) :
    AvoidsBefore needle xs [] := by
  intro i _ hit
  rw [List.append_nil] at hit
  exact h (hit.isInfix.trans (List.drop_suffix i xs).isInfix)

/-- A needle that is not in the text is nowhere before what follows either, when that starts as no
later part of the needle does. -/
theorem avoidsBefore_of_not_infix {needle xs start rest : List α} (h : ¬ needle <:+: xs)
    (hrest : start <+: rest) (htail : Avoids start needle.tail) :
    AvoidsBefore needle xs rest := by
  intro i hi hit
  obtain ⟨rest', hsplit⟩ := hit
  by_cases inside : needle.length ≤ (xs.drop i).length
  · have here : needle <+: xs.drop i :=
      List.prefix_of_prefix_length_le ⟨rest', hsplit⟩ (List.prefix_append _ _) inside
    exact h (here.isInfix.trans (List.drop_suffix i xs).isInfix)
  · -- the occurrence goes on in what follows
    have cut : needle.drop (xs.drop i).length ++ rest' = rest := by
      have := congrArg (List.drop (xs.drop i).length) hsplit
      rwa [List.drop_append_of_le_length (by omega), List.drop_left] at this
    have hlen : (xs.drop i).length = xs.length - i := List.length_drop
    have later : needle.drop (xs.drop i).length = needle.tail.drop ((xs.drop i).length - 1) := by
      rw [← List.drop_one, List.drop_drop]
      congr 1
      omega
    refine htail ((xs.drop i).length - 1) (by rw [List.length_tail]; omega) rest' ?_
    rw [← later, cut]
    exact hrest

theorem avoids_nil (needle : List α) : Avoids needle [] := by
  intro i hi
  simp at hi

theorem AvoidsBefore.append {needle xs ys rest : List α} (hx : AvoidsBefore needle xs (ys ++ rest))
    (hy : AvoidsBefore needle ys rest) : AvoidsBefore needle (xs ++ ys) rest := by
  intro i hi
  by_cases inX : i < xs.length
  · rw [List.drop_append_of_le_length (by omega), List.append_assoc]
    exact hx i inX
  · rw [List.length_append] at hi
    have hdrop : (xs ++ ys).drop i = ys.drop (i - xs.length) := by
      rw [List.drop_append, List.drop_eq_nil_of_le (by omega), List.nil_append]
    rw [hdrop]
    exact hy _ (by omega)

theorem Avoids.append {needle xs ys : List α} (hx : Avoids needle xs) (hy : Avoids needle ys) :
    Avoids needle (xs ++ ys) := fun i hi rest =>
  AvoidsBefore.append (hx.before (ys ++ rest)) (hy.before rest) i hi

theorem avoids_cons {needle xs : List α} {x : α} (head : ∀ rest, ¬ needle <+: x :: xs ++ rest)
    (tail : Avoids needle xs) : Avoids needle (x :: xs) := by
  intro i hi rest
  cases i with
  | zero => exact head rest
  | succ i => exact tail i (by simpa using hi) rest

/-- What no prefix of the needle starts in, the needle does not start in. -/
theorem Avoids.extend {start needle xs : List α} (h : Avoids start xs)
    (hstart : start <+: needle) : Avoids needle xs :=
  fun i hi rest hit => h i hi rest (hstart.trans hit)

/-- Two words ended by a mark that is in neither are equal when one text starts
with the other. -/
theorem eq_of_marked_prefix {mark : α} {w w' t t' : List α} (hw : mark ∉ w) (hw' : mark ∉ w')
    (h : w ++ mark :: t <+: w' ++ mark :: t') : w = w' := by
  induction w generalizing w' with
  | nil =>
      cases w' with
      | nil => rfl
      | cons y ys =>
          rw [List.nil_append, List.cons_append, List.cons_prefix_cons] at h
          exact absurd (by simp [h.1]) hw'
  | cons x xs ih =>
      cases w' with
      | nil =>
          rw [List.nil_append, List.cons_append, List.cons_prefix_cons] at h
          exact absurd (by simp [h.1]) hw
      | cons y ys =>
          rw [List.cons_append, List.cons_append, List.cons_prefix_cons] at h
          simp only [List.mem_cons, not_or] at hw hw'
          rw [h.1, ih hw.2 hw'.2 h.2]

/-- Of two splits of one text, the later one continues the earlier one. -/
theorem append_split {xs ys xs' ys' : List α} (h : xs ++ ys = xs' ++ ys')
    (hle : xs.length ≤ xs'.length) : ∃ more, xs' = xs ++ more ∧ ys = more ++ ys' := by
  rcases List.append_eq_append_iff.mp h with ⟨more, hfront, hrest⟩ | ⟨more, hfront, hrest⟩
  · exact ⟨more, hfront, hrest⟩
  · have hlen := congrArg List.length hfront
    rw [List.length_append] at hlen
    obtain rfl : more = [] := List.eq_nil_of_length_eq_zero (by omega)
    rw [List.append_nil] at hfront
    exact ⟨[], by rw [hfront, List.append_nil], hrest.symm⟩

/-- The end of a text lies behind the last mark before the gap, or holds it. -/
theorem suffix_of_mark {mark : α} {gap tail text : List α} (hmark : mark :: gap <:+ text)
    (htail : tail <:+ text) : tail <:+ gap ∨ mark ∈ tail := by
  by_cases inGap : tail.length ≤ gap.length
  · left
    exact List.suffix_of_suffix_length_le htail ((List.suffix_cons _ _).trans hmark) inGap
  · right
    have reaches : mark :: gap <:+ tail :=
      List.suffix_of_suffix_length_le hmark htail (by rw [List.length_cons]; omega)
    exact reaches.mem List.mem_cons_self

/-- Text without the mark starts what comes before the mark. -/
theorem prefix_of_mark {mark : α} {xs ys front rest : List α} (h : mark ∉ xs)
    (hsplit : xs ++ ys = front ++ mark :: rest) : xs <+: front := by
  rcases List.append_eq_append_iff.mp hsplit with ⟨more, hfront, -⟩ | ⟨more, hxs, hrest⟩
  · exact ⟨more, hfront.symm⟩
  · cases more with
    | nil =>
        rw [List.append_nil] at hxs
        exact ⟨[], by rw [hxs, List.append_nil]⟩
    | cons x more =>
        rw [List.cons_append, List.cons.injEq] at hrest
        exact absurd (by rw [hxs, hrest.1]; simp) h

theorem avoids_flatten {needle : List α} {pieces : List (List α)}
    (h : ∀ p ∈ pieces, Avoids needle p) : Avoids needle pieces.flatten := by
  induction pieces with
  | nil => exact avoids_nil needle
  | cons p ps ih =>
      rw [List.flatten_cons]
      exact (h p (by simp)).append (ih fun q hq => h q (List.mem_cons_of_mem _ hq))

/-- A list without the needle's first element cannot start an occurrence. -/
theorem avoids_of_not_mem {c : α} {needle xs : List α} (h : c ∉ xs) :
    Avoids (c :: needle) xs := by
  intro i hi rest hit
  rw [List.drop_eq_getElem_cons hi, List.cons_append, List.cons_prefix_cons] at hit
  exact h (hit.1 ▸ List.getElem_mem hi)

/-- A needle of one element occurs wherever the element does. -/
theorem AvoidsBefore.not_mem {c : α} {xs rest : List α} (h : AvoidsBefore [c] xs rest) :
    c ∉ xs := by
  intro hmem
  obtain ⟨i, hi, rfl⟩ := List.mem_iff_getElem.mp hmem
  refine h i hi ?_
  rw [List.drop_eq_getElem_cons hi, List.cons_append, List.cons_prefix_cons]
  exact ⟨rfl, List.nil_prefix⟩

/-- A needle without a mark cannot start where the text shows the mark too soon. -/
theorem avoids_of_marks {needle xs : List α} {mark : α} (hneedle : mark ∉ needle)
    (h : ∀ i < xs.length, ∃ j, i ≤ j ∧ j < i + needle.length ∧ xs[j]? = some mark) :
    Avoids needle xs := by
  intro i hi rest hit
  obtain ⟨j, hle, hlt, hmark⟩ := h i hi
  have hj : j < xs.length := (List.getElem?_eq_some_iff.mp hmark).1
  have same := List.prefix_iff_getElem?.mp hit (j - i) (by omega)
  rw [List.getElem?_append_left (by rw [List.length_drop]; omega), List.getElem?_drop,
    show i + (j - i) = j by omega, hmark] at same
  exact hneedle (Option.some.inj same ▸ List.getElem_mem _)

section

variable [DecidableEq α]

/-- Two lists that differ at a position both have. -/
def clash : List α → List α → Bool
  | x :: xs, y :: ys => x ≠ y || clash xs ys
  | _, _ => false

theorem not_prefix_of_clash {xs ys rest : List α} (h : clash xs ys = true) :
    ¬ xs <+: ys ++ rest := by
  induction xs generalizing ys with
  | nil => simp [clash] at h
  | cons x xs ih =>
      cases ys with
      | nil => simp [clash] at h
      | cons y ys =>
          simp only [clash, ne_eq, decide_not, Bool.or_eq_true, Bool.not_eq_true',
            decide_eq_false_iff_not] at h
          rw [List.cons_append, List.cons_prefix_cons]
          rintro ⟨rfl, hit⟩
          rcases h with h | h
          · exact h rfl
          · exact ih h hit

/-- Every position of `xs` already contradicts the needle: the check that closes
`Avoids` for a concrete piece. -/
def clashesEverywhere (needle : List α) : List α → Bool
  | [] => true
  | x :: xs => clash needle (x :: xs) && clashesEverywhere needle xs

theorem avoids_of_clashes {needle xs : List α} (h : clashesEverywhere needle xs = true) :
    Avoids needle xs := by
  induction xs with
  | nil => exact avoids_nil needle
  | cons x xs ih =>
      simp only [clashesEverywhere, Bool.and_eq_true] at h
      intro i hi rest
      cases i with
      | zero => exact not_prefix_of_clash h.1
      | succ i => exact ih h.2 i (by simpa using hi) rest

/-- The search passes over a piece that avoids the needle. -/
theorem firstMatch_skip {needle xs rest : List α} (h : AvoidsBefore needle xs rest) :
    firstMatch needle (xs ++ rest) = (firstMatch needle rest).map (· + xs.length) := by
  induction xs with
  | nil => simp
  | cons x xs ih =>
      have notHere : ¬ needle <+: x :: xs ++ rest := by
        simpa using h 0 (by simp)
      have tail : AvoidsBefore needle xs rest := fun i hi => by
        simpa using h (i + 1) (by simpa using hi)
      rw [List.cons_append] at notHere ⊢
      rw [firstMatch, if_neg notHere, ih tail, Option.map_map]
      congr 1

/-- The first occurrence is the one after everything that avoids the needle. -/
theorem firstMatch_hit {needle xs rest : List α} (hne : needle ≠ [])
    (h : AvoidsBefore needle xs (needle ++ rest)) :
    firstMatch needle (xs ++ needle ++ rest) = some xs.length := by
  rw [List.append_assoc, firstMatch_skip h, firstMatch_self hne]
  simp

/-- A match splits the text in front of the first occurrence. -/
theorem firstMatch_split {needle hay : List α} {i : Nat} (h : firstMatch needle hay = some i) :
    ∃ front rest, hay = front ++ (needle ++ rest) ∧ front.length = i ∧
      AvoidsBefore needle front (needle ++ rest) := by
  obtain ⟨hlt, ⟨rest, hrest⟩, first⟩ := firstMatch_eq_some.mp h
  refine ⟨hay.take i, rest, ?_, ?_, ?_⟩
  · rw [hrest, List.take_append_drop]
  · rw [List.length_take]
    omega
  · intro j hj hit
    rw [List.length_take] at hj
    rw [hrest, ← List.drop_append_of_le_length (by rw [List.length_take]; omega),
      List.take_append_drop] at hit
    exact first j (by omega) hit

theorem firstMatch_none_of_avoids {needle xs : List α} (h : AvoidsBefore needle xs []) :
    firstMatch needle xs = none := by
  have none : firstMatch needle (xs ++ []) = (firstMatch needle []).map (· + xs.length) :=
    firstMatch_skip h
  simpa [firstMatch] using none

end

end FileVault.Lib
