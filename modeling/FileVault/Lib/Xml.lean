import Mathlib.Tactic

/-!
# Escaped text

Character data in XML, with `&`, `<` and `>` written as entities. Escaped text starts no tag; it is
the text itself exactly if there was nothing to escape.
-/

namespace FileVault.Lib

/-- The characters that are written as entities. -/
def isMarkup (c : Char) : Bool := c == '&' || c == '<' || c == '>'

def escapeChar (c : Char) : List Char :=
  if c = '&' then "&amp;".toList
  else if c = '<' then "&lt;".toList
  else if c = '>' then "&gt;".toList
  else [c]

/-- The text as the character data of an element. -/
def escape (s : String) : String := .ofList (s.toList.flatMap escapeChar)

theorem escapeChar_plain {c : Char} (h : isMarkup c = false) : escapeChar c = [c] := by
  simp only [isMarkup, Bool.or_eq_false_iff, beq_eq_false_iff_ne] at h
  rw [escapeChar, if_neg h.1.1, if_neg h.1.2, if_neg h.2]

/-- An entity is longer than what it stands for. -/
theorem escapeChar_markup {c : Char} (h : isMarkup c = true) : 1 < (escapeChar c).length := by
  simp only [isMarkup, Bool.or_eq_true, beq_iff_eq] at h
  rcases h with (rfl | rfl) | rfl <;> decide

theorem escapeChar_length (c : Char) : 1 ≤ (escapeChar c).length := by
  cases h : isMarkup c with
  | true => exact (escapeChar_markup h).le
  | false => rw [escapeChar_plain h, List.length_singleton]

theorem length_le_flatMap_escape (cs : List Char) : cs.length ≤ (cs.flatMap escapeChar).length := by
  induction cs with
  | nil => exact le_rfl
  | cons c cs ih =>
      have hc := escapeChar_length c
      rw [List.flatMap_cons, List.length_append, List.length_cons]
      omega

theorem flatMap_escape_eq_self_iff (cs : List Char) :
    cs.flatMap escapeChar = cs ↔ ∀ c ∈ cs, isMarkup c = false := by
  induction cs with
  | nil => simp
  | cons c cs ih =>
      rw [List.flatMap_cons, List.forall_mem_cons]
      cases h : isMarkup c with
      | true =>
          -- the text has grown
          have hc := escapeChar_markup h
          have hcs := length_le_flatMap_escape cs
          constructor
          · intro heq
            have hlen := congrArg List.length heq
            rw [List.length_append, List.length_cons] at hlen
            omega
          · rintro ⟨hfalse, -⟩
            cases hfalse
      | false => simp [escapeChar_plain h, ih]

/-- Escaping changes nothing exactly if there is nothing to escape. -/
theorem escape_eq_self_iff {s : String} : escape s = s ↔ ∀ c ∈ s.toList, isMarkup c = false := by
  rw [← flatMap_escape_eq_self_iff, ← String.toList_inj, escape, String.toList_ofList]

/-- Escaped text starts no tag. -/
theorem lt_notMem_escape (s : String) : '<' ∉ (escape s).toList := by
  rw [escape, String.toList_ofList, List.mem_flatMap]
  rintro ⟨c, -, hc⟩
  unfold escapeChar at hc
  split at hc
  · exact absurd hc (by decide)
  split at hc
  · exact absurd hc (by decide)
  split at hc
  · exact absurd hc (by decide)
  · next hlt _ =>
      exact hlt (List.mem_singleton.mp hc).symm

end FileVault.Lib
