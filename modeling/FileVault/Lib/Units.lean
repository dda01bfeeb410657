import FileVault.Lib.Slice

/-!
# Unit-wise transforms

A transform that rewrites a list unit by unit, giving each unit its index: a
cipher mode with a per-unit tweak is one. The element at position `x` of the
result depends on unit `x / unit` alone, so any window of whole units can be
transformed by itself.
-/

namespace FileVault.Lib

variable {α : Type}

/-- `f` applied to `count` consecutive units of `xs`, the first of which has
index `index`. What is left of `xs` after them is dropped. -/
def mapUnits (unit : Nat) (f : Nat → List α → List α) :
    (count index : Nat) → List α → List α
  | 0, _, _ => []
  | count + 1, index, xs =>
      f index (xs.take unit) ++ mapUnits unit f count (index + 1) (xs.drop unit)

/-- A unit-wise transform is the concatenation of what it makes of the units. -/
theorem mapUnits_eq_flatMap (unit : Nat) (f : Nat → List α → List α) (count index : Nat)
    (xs : List α) :
    mapUnits unit f count index xs =
      (List.range count).flatMap fun i => f (index + i) (slice xs (i * unit) unit) := by
  induction count generalizing index xs with
  | zero => rfl
  | succ count ih =>
      rw [mapUnits, ih, List.range_succ_eq_map, List.flatMap_cons, List.flatMap_map]
      congr 1
      · simp [slice]
      · congr 1
        funext i
        rw [slice, slice, List.drop_drop, Nat.succ_mul, Nat.add_comm unit,
          show index + 1 + i = index + (i + 1) by omega]

/-- The length of concatenated units of one length. -/
theorem flatMap_units_length {unit count : Nat} {g : Nat → List α}
    (len : ∀ k < count, (g k).length = unit) :
    ((List.range count).flatMap g).length = count * unit := by
  induction count with
  | zero => simp
  | succ count ih =>
      rw [List.range_succ, List.flatMap_append, List.length_append,
        ih fun k hk => len k (by omega), Nat.succ_mul]
      simp [len count (by omega)]

/-- Concatenated units of one length are indexed by unit and place in the unit. -/
theorem flatMap_units_getElem? {unit count x : Nat} {g : Nat → List α}
    (len : ∀ k < count, (g k).length = unit) (hx : x < count * unit) :
    ((List.range count).flatMap g)[x]? = (g (x / unit))[x % unit]? := by
  induction count with
  | zero => simp at hx
  | succ count ih =>
      have front := flatMap_units_length (g := g) fun k (hk : k < count) => len k (by omega)
      rw [Nat.succ_mul] at hx
      rw [List.range_succ, List.flatMap_append]
      by_cases early : x < count * unit
      · rw [List.getElem?_append_left (by omega), ih (fun k hk => len k (by omega)) early]
      · have hdiv : x / unit = count :=
          Nat.div_eq_of_lt_le (by omega) (by rw [Nat.succ_mul]; omega)
        have hmod := Nat.div_add_mod' x unit
        rw [hdiv] at hmod
        rw [List.getElem?_append_right (by omega), front, hdiv,
          show x - count * unit = x % unit by omega]
        simp

section

variable {unit : Nat} {f : Nat → List α → List α}
  (keeps : ∀ index ys, ys.length = unit → (f index ys).length = unit)
include keeps

theorem mapUnits_length {count index : Nat} {xs : List α} (h : count * unit ≤ xs.length) :
    (mapUnits unit f count index xs).length = count * unit := by
  induction count generalizing index xs with
  | zero => simp [mapUnits]
  | succ count ih =>
      rw [Nat.succ_mul] at h
      rw [mapUnits, List.length_append, keeps _ _ (by rw [List.length_take]; omega),
        ih (by simp; omega), Nat.succ_mul, Nat.add_comm]

/-- The element at `x` comes from unit `x / unit`, at its place in that unit. -/
theorem mapUnits_getElem? {count index x : Nat} {xs : List α}
    (h : count * unit ≤ xs.length) (hx : x < count * unit) :
    (mapUnits unit f count index xs)[x]? =
      (f (index + x / unit) (slice xs (x / unit * unit) unit))[x % unit]? := by
  rw [mapUnits_eq_flatMap, flatMap_units_getElem? _ hx]
  intro k hk
  apply keeps
  apply slice_length_of_le
  calc k * unit + unit = (k + 1) * unit := by ring
    _ ≤ count * unit := Nat.mul_le_mul_right _ hk
    _ ≤ xs.length := h

/-- Unit `k` of the result is what becomes of unit `k`. -/
theorem mapUnits_slice {count index k : Nat} {xs : List α} (h : count * unit ≤ xs.length)
    (hk : k < count) :
    slice (mapUnits unit f count index xs) (k * unit) unit =
      f (index + k) (slice xs (k * unit) unit) := by
  have inside : k * unit + unit ≤ count * unit := by
    rw [← Nat.succ_mul]
    exact Nat.mul_le_mul_right _ hk
  have hlen : (f (index + k) (slice xs (k * unit) unit)).length = unit :=
    keeps _ _ (slice_length_of_le (by omega))
  apply List.ext_getElem?
  intro i
  rw [slice_getElem?]
  by_cases hi : i < unit
  · have hdiv : (k * unit + i) / unit = k := by
      rw [Nat.mul_comm, Nat.mul_add_div (by omega), Nat.div_eq_of_lt hi, Nat.add_zero]
    have hmod : (k * unit + i) % unit = i := by
      rw [Nat.mul_comm, Nat.mul_add_mod, Nat.mod_eq_of_lt hi]
    rw [if_pos hi, mapUnits_getElem? keeps h (by omega), hdiv, hmod]
  · rw [if_neg hi, List.getElem?_eq_none (by omega)]

end

/-- A unit-wise transform that is undone on every unit is undone, whatever comes after
the units. -/
theorem mapUnits_inverse {unit : Nat} {f g : Nat → List α → List α} {count index : Nat}
    {xs rest : List α} (keeps : ∀ index ys, ys.length = unit → (f index ys).length = unit)
    (h : count * unit ≤ xs.length)
    (undo : ∀ index ys, ys.length = unit → g index (f index ys) = ys) :
    mapUnits unit g count index (mapUnits unit f count index xs ++ rest) =
      xs.take (count * unit) := by
  induction count generalizing index xs with
  | zero => simp [mapUnits]
  | succ count ih =>
      rw [Nat.succ_mul] at h
      have headLen : (xs.take unit).length = unit := by
        rw [List.length_take]
        omega
      have fLen := keeps index _ headLen
      simp only [mapUnits, List.append_assoc]
      rw [List.take_left' fLen, List.drop_left' fLen, undo _ _ headLen,
        ih (by simp; omega), ← List.take_add, Nat.succ_mul, Nat.add_comm]

/-! ## Walks that can stop -/

section

variable {ε : Type}

/-- `f` applied to `whole` consecutive units of `xs`, and to what is left after them, if there is
anything, as one more unit. -/
def walkUnits (unit : Nat) (f : Nat → List α → Except ε (List α)) :
    (whole index : Nat) → List α → Except ε (List α)
  | 0, index, xs => if xs.isEmpty then .ok [] else f index xs
  | whole + 1, index, xs => do
      let head ← f index (xs.take unit)
      let tail ← walkUnits unit f whole (index + 1) (xs.drop unit)
      return head ++ tail

variable {unit : Nat} {f g : Nat → List α → Except ε (List α)}

/-- A walk over whole units that stops on none of them is the unit-wise transform. -/
theorem walkUnits_whole {t : Nat → List α → List α} {count index : Nat} {xs : List α}
    (steps : ∀ k < count, ∀ ys, ys.length = unit → f (index + k) ys = .ok (t (index + k) ys))
    (h : xs.length = count * unit) :
    walkUnits unit f count index xs = .ok (mapUnits unit t count index xs) := by
  induction count generalizing index xs with
  | zero =>
      rw [Nat.zero_mul] at h
      obtain rfl := List.length_eq_zero_iff.mp h
      rfl
  | succ count ih =>
      rw [Nat.succ_mul] at h
      have head : f index (xs.take unit) = .ok (t index (xs.take unit)) :=
        steps 0 (by omega) _ (by rw [List.length_take]; omega)
      have rest : ∀ k < count, ∀ ys, ys.length = unit →
          f (index + 1 + k) ys = .ok (t (index + 1 + k) ys) := by
        intro k hk
        rw [show index + 1 + k = index + (k + 1) by omega]
        exact steps (k + 1) (by omega)
      rw [walkUnits, head, ih rest (by rw [List.length_drop]; omega)]
      rfl

/-- Between two units a walk can be taken in two. -/
theorem walkUnits_append {k : Nat} (m index : Nat) {xs : List α} (ys : List α)
    (h : xs.length = k * unit) :
    walkUnits unit f (k + m) index (xs ++ ys) = do
      let front ← walkUnits unit f k index xs
      let back ← walkUnits unit f m (index + k) ys
      return front ++ back := by
  induction k generalizing index xs with
  | zero =>
      rw [Nat.zero_mul] at h
      obtain rfl := List.length_eq_zero_iff.mp h
      rw [Nat.zero_add, List.nil_append, Nat.add_zero]
      exact (bind_pure _).symm
  | succ k ih =>
      rw [Nat.succ_mul] at h
      have hdrop : (xs.drop unit).length = k * unit := by
        rw [List.length_drop]
        omega
      rw [show k + 1 + m = k + m + 1 by omega, walkUnits, walkUnits,
        List.take_append_of_le_length (by omega), List.drop_append_of_le_length (by omega),
        ih (index + 1) hdrop, show index + 1 + k = index + (k + 1) by omega]
      simp only [bind_assoc, pure_bind, List.append_assoc]

/-- A walk comes to its end exactly if every unit does, and what is left after them. -/
theorem walkUnits_returns_iff {whole index : Nat} {xs : List α} :
    (∃ out, walkUnits unit f whole index xs = .ok out) ↔
      (∀ k < whole, ∃ out, f (index + k) (slice xs (k * unit) unit) = .ok out) ∧
        (xs.drop (whole * unit) = [] ∨
          ∃ out, f (index + whole) (xs.drop (whole * unit)) = .ok out) := by
  induction whole generalizing index xs with
  | zero =>
      rw [Nat.zero_mul, List.drop_zero, walkUnits, Nat.add_zero]
      cases xs with
      | nil => simp
      | cons x xs => simp
  | succ whole ih =>
      have next : (∃ out, walkUnits unit f (whole + 1) index xs = .ok out) ↔
          (∃ out, f index (xs.take unit) = .ok out) ∧
            ∃ out, walkUnits unit f whole (index + 1) (xs.drop unit) = .ok out := by
        rw [walkUnits]
        cases f index (xs.take unit) with
        | error stop => simp [bind, Except.bind]
        | ok head =>
            cases walkUnits unit f whole (index + 1) (xs.drop unit) with
            | error stop => simp [bind, Except.bind]
            | ok tail => simp [bind, Except.bind, pure, Except.pure]
      have unitAt : ∀ k, slice (xs.drop unit) (k * unit) unit = slice xs ((k + 1) * unit) unit := by
        intro k
        rw [slice, slice, List.drop_drop, Nat.succ_mul, Nat.add_comm unit]
      have behind : (xs.drop unit).drop (whole * unit) = xs.drop ((whole + 1) * unit) := by
        rw [List.drop_drop, Nat.succ_mul, Nat.add_comm unit]
      rw [next, ih, behind, show index + 1 + whole = index + (whole + 1) by omega, ← and_assoc]
      refine and_congr_left fun _ => ?_
      constructor
      · rintro ⟨head, tail⟩ k hk
        cases k with
        | zero => simpa [slice] using head
        | succ k =>
            rw [← unitAt, show index + (k + 1) = index + 1 + k by omega]
            exact tail k (by omega)
      · intro units
        refine ⟨by simpa [slice] using units 0 (by omega), ?_⟩
        intro k hk
        rw [unitAt, show index + 1 + k = index + (k + 1) by omega]
        exact units (k + 1) (by omega)

/-- A walk whose steps keep the length of a unit keeps the length of the list. -/
theorem walkUnits_length
    (keeps : ∀ index ys zs, f index ys = .ok zs → zs.length = ys.length)
    {whole index : Nat} {xs out : List α} (hlen : whole * unit ≤ xs.length)
    (h : walkUnits unit f whole index xs = .ok out) : out.length = xs.length := by
  induction whole generalizing index xs out with
  | zero =>
      cases xs with
      | nil =>
          obtain rfl := Except.ok.inj h
          rfl
      | cons x xs => exact keeps index _ _ h
  | succ whole ih =>
      rw [Nat.succ_mul] at hlen
      rw [walkUnits] at h
      cases hhead : f index (xs.take unit) with
      | error stop =>
          rw [hhead] at h
          cases h
      | ok head =>
          cases htail : walkUnits unit f whole (index + 1) (xs.drop unit) with
          | error stop =>
              rw [hhead, htail] at h
              cases h
          | ok tail =>
              rw [hhead, htail] at h
              obtain rfl : head ++ tail = out := Except.ok.inj h
              have tailLen := ih (by rw [List.length_drop]; omega) htail
              have headLen := keeps _ _ _ hhead
              rw [List.length_take, Nat.min_eq_left (by omega)] at headLen
              rw [List.length_append, headLen, tailLen, List.length_drop]
              omega

/-- A walk whose every step can be undone is undone by the walk of the steps that undo it. -/
theorem walkUnits_inverse
    (keeps : ∀ index ys zs, f index ys = .ok zs → zs.length = ys.length)
    (undo : ∀ index ys zs, f index ys = .ok zs → g index zs = .ok ys)
    {whole index : Nat} {xs out : List α} (hlen : whole * unit ≤ xs.length)
    (h : walkUnits unit f whole index xs = .ok out) :
    walkUnits unit g whole index out = .ok xs := by
  induction whole generalizing index xs out with
  | zero =>
      cases xs with
      | nil =>
          obtain rfl := Except.ok.inj h
          rfl
      | cons x xs =>
          have step : f index (x :: xs) = .ok out := h
          have hkeeps := keeps index _ _ step
          cases out with
          | nil => simp at hkeeps
          | cons y out => exact undo index _ _ step
  | succ whole ih =>
      rw [Nat.succ_mul] at hlen
      rw [walkUnits] at h
      cases hhead : f index (xs.take unit) with
      | error stop =>
          rw [hhead] at h
          cases h
      | ok head =>
          cases htail : walkUnits unit f whole (index + 1) (xs.drop unit) with
          | error stop =>
              rw [hhead, htail] at h
              cases h
          | ok tail =>
              rw [hhead, htail] at h
              obtain rfl : head ++ tail = out := Except.ok.inj h
              have tailBack := ih (by rw [List.length_drop]; omega) htail
              have headLen := keeps _ _ _ hhead
              rw [List.length_take, Nat.min_eq_left (by omega)] at headLen
              rw [walkUnits, List.take_left' headLen, List.drop_left' headLen,
                undo _ _ _ hhead, tailBack]
              exact congrArg Except.ok (List.take_append_drop unit xs)

/-- The length of two pieces put together, if neither of them stops. -/
theorem append_lengths (x y : Except ε (List α)) :
    Except.map List.length (x >>= fun front => y >>= fun back => pure (front ++ back)) =
      (x.map List.length >>= fun m => y.map List.length >>= fun n => pure (m + n)) := by
  cases x with
  | error stop => rfl
  | ok front =>
      cases y with
      | error stop => rfl
      | ok back => exact congrArg Except.ok List.length_append

/-- Where two kinds of step stop alike and give the same lengths on units of the same length, so
do their walks. -/
theorem walkUnits_lengths
    (alike : ∀ index ys zs, ys.length = zs.length →
      (f index ys).map List.length = (g index zs).map List.length)
    {whole index : Nat} {xs xs' : List α} (hlen : xs.length = xs'.length) :
    (walkUnits unit f whole index xs).map List.length =
      (walkUnits unit g whole index xs').map List.length := by
  induction whole generalizing index xs xs' with
  | zero =>
      cases xs with
      | nil =>
          obtain rfl := List.length_eq_zero_iff.mp hlen.symm
          rfl
      | cons x xs =>
          cases xs' with
          | nil => simp at hlen
          | cons x' xs' => exact alike index _ _ hlen
  | succ whole ih =>
      have head := alike index (xs.take unit) (xs'.take unit) (by
        rw [List.length_take, List.length_take, hlen])
      have tail := @ih (index + 1) (xs.drop unit) (xs'.drop unit) (by
        rw [List.length_drop, List.length_drop, hlen])
      rw [walkUnits, walkUnits, append_lengths, append_lengths, head, tail]

end

/-! ## Records -/

section

variable {β : Type} {unit : Nat} {encode : β → List α} (len : ∀ item, (encode item).length = unit)
include len

/-- The length of concatenated records. -/
theorem flatMap_records_length (items : List β) :
    (items.flatMap encode).length = items.length * unit := by
  induction items with
  | nil => simp
  | cons item items ih =>
      rw [List.flatMap_cons, List.length_append, len, ih, List.length_cons, Nat.succ_mul,
        Nat.add_comm]

end

end FileVault.Lib
