import Mathlib.Data.List.Basic
import Mathlib.Tactic

/-!
# Settled results

A partial function of a list is settled if what it gives for a list, it gives whatever follows the
list. Functions that are put together from settled ones are settled.
-/

namespace FileVault.Lib

variable {α β γ : Type}

/-- What is there does not depend on what follows. -/
def Settled (f : List α → Option β) : Prop :=
  ∀ xs b, f xs = some b → ∀ ys, f (xs ++ ys) = some b

theorem settled_const (o : Option β) : Settled fun _ : List α => o := fun _ _ h _ => h

theorem Settled.bind {f : List α → Option β} {g : β → List α → Option γ} (hf : Settled f)
    (hg : ∀ b, Settled (g b)) : Settled fun xs => (f xs).bind fun b => g b xs := by
  intro xs c h ys
  obtain ⟨b, hb, hc⟩ := Option.bind_eq_some_iff.mp h
  exact Option.bind_eq_some_iff.mpr ⟨b, hf xs b hb ys, hg b xs c hc ys⟩

theorem Settled.map {f : List α → Option β} (hf : Settled f) (g : β → γ) :
    Settled fun xs => (f xs).map g := by
  intro xs c h ys
  obtain ⟨b, hb, hc⟩ := Option.map_eq_some_iff.mp h
  exact Option.map_eq_some_iff.mpr ⟨b, hf xs b hb ys, hc⟩

/-- A function of the rest of a list. -/
theorem Settled.drop {f : List α → Option β} (hf : Settled f) (n : Nat) :
    Settled fun xs => if n ≤ xs.length then f (xs.drop n) else none := by
  intro xs b h ys
  simp only at h ⊢
  split at h
  · next hle =>
      rw [if_pos (by rw [List.length_append]; omega), List.drop_append_of_le_length hle]
      exact hf _ b h ys
  · cases h

/-- What is not missing stays as it is. -/
theorem Settled.eq_of_isSome {f : List α → Option β} (hf : Settled f) {xs : List α}
    (h : (f xs).isSome = true) (ys : List α) : f (xs ++ ys) = f xs := by
  obtain ⟨b, hb⟩ := Option.isSome_iff_exists.mp h
  rw [hb]
  exact hf xs b hb ys

end FileVault.Lib
