import FileVault.Lib.Search

/-!
# Chains of leftmost searches

A scanner that looks for one needle after the other takes the first occurrence of each from
where it left off. No other choice of occurrences does better: where one exists at all the
scanner succeeds, and it is done no later. The argument is an exchange: starting earlier,
the first occurrence is no later, and so is everything after it.
-/

namespace FileVault.Lib

variable {α : Type}

/-- The needle occurs at this position of the text. -/
def Occurs (needle hay : List α) (i : Nat) : Prop := needle <+: hay.drop i

theorem Occurs.inside {needle hay : List α} {i : Nat} (h : Occurs needle hay i)
    (hne : needle ≠ []) : i + needle.length ≤ hay.length := by
  have hlen := h.length_le
  have hpos := List.length_pos_iff.mpr hne
  rw [List.length_drop] at hlen
  omega

/-- One search of a chain: what it looks for, and how far behind the start of the occurrence
the next one begins. -/
structure Leg (α : Type) where
  needle : List α
  advance : Nat

/-- Occurrences for a chain of searches in their order, of which the last leaves off at
`stop`. -/
inductive Reaches (hay : List α) : List (Leg α) → Nat → Nat → Prop
  | done {start : Nat} : Reaches hay [] start start
  | next {leg : Leg α} {legs : List (Leg α)} {start i stop : Nat} : start ≤ i →
      Occurs leg.needle hay i → Reaches hay legs (i + leg.advance) stop →
      Reaches hay (leg :: legs) start stop

section

variable [DecidableEq α]

/-- The first occurrence from a position on. -/
def nextMatch (needle hay : List α) (start : Nat) : Option Nat :=
  (firstMatch needle (hay.drop start)).map (start + ·)

/-- Where the chain of leftmost searches leaves off. -/
def chain (hay : List α) : List (Leg α) → Nat → Option Nat
  | [], start => some start
  | leg :: legs, start => do
      let i ← nextMatch leg.needle hay start
      chain hay legs (i + leg.advance)

theorem nextMatch_eq_some {needle hay : List α} {start i : Nat} (hne : needle ≠ []) :
    nextMatch needle hay start = some i ↔
      IsLeast {i | start ≤ i ∧ Occurs needle hay i} i := by
  constructor
  · intro h
    obtain ⟨rel, hrel, rfl⟩ := Option.map_eq_some_iff.mp h
    obtain ⟨-, hit, first⟩ := firstMatch_eq_some.mp hrel
    rw [List.drop_drop] at hit
    refine ⟨⟨by omega, hit⟩, ?_⟩
    rintro j ⟨hj, occurs⟩
    by_contra hlt
    refine first (j - start) (by omega) ?_
    rw [List.drop_drop, show start + (j - start) = j by omega]
    exact occurs
  · rintro ⟨⟨hstart, occurs⟩, least⟩
    have hinside := occurs.inside hne
    have hpos := List.length_pos_iff.mpr hne
    refine Option.map_eq_some_iff.mpr ⟨i - start, firstMatch_eq_some.mpr ⟨?_, ?_, ?_⟩, by omega⟩
    · rw [List.length_drop]
      omega
    · rw [List.drop_drop, show start + (i - start) = i by omega]
      exact occurs
    · intro j hj hit
      rw [List.drop_drop] at hit
      have hle := least ⟨Nat.le_add_right start j, hit⟩
      omega

/-- An occurrence is not missed. -/
theorem nextMatch_of_occurs {needle hay : List α} {start i : Nat} (hne : needle ≠ [])
    (hstart : start ≤ i) (occurs : Occurs needle hay i) :
    ∃ j, nextMatch needle hay start = some j ∧ j ≤ i := by
  classical
  have hex : ∃ j, start ≤ j ∧ Occurs needle hay j := ⟨i, hstart, occurs⟩
  refine ⟨Nat.find hex, (nextMatch_eq_some hne).mpr ⟨Nat.find_spec hex, ?_⟩, ?_⟩
  · intro j hj
    exact Nat.find_min' hex hj
  · exact Nat.find_min' hex ⟨hstart, occurs⟩

/-- What the chain finds are occurrences. -/
theorem reaches_of_chain {hay : List α} {legs : List (Leg α)} {start stop : Nat}
    (hne : ∀ leg ∈ legs, leg.needle ≠ []) (h : chain hay legs start = some stop) :
    Reaches hay legs start stop := by
  induction legs generalizing start with
  | nil =>
      obtain rfl := Option.some.inj h
      exact .done
  | cons leg legs ih =>
      obtain ⟨i, hi, hrest⟩ := Option.bind_eq_some_iff.mp h
      obtain ⟨⟨hstart, occurs⟩, -⟩ := (nextMatch_eq_some (hne leg (by simp))).mp hi
      exact .next hstart occurs (ih (fun leg' h' => hne leg' (List.mem_cons_of_mem _ h')) hrest)

/-- The chain is done no later than any other occurrences are, even from a later start. -/
theorem chain_le_of_reaches {hay : List α} {legs : List (Leg α)} {start start' stop' : Nat}
    (hne : ∀ leg ∈ legs, leg.needle ≠ []) (hle : start ≤ start')
    (h : Reaches hay legs start' stop') :
    ∃ stop, chain hay legs start = some stop ∧ stop ≤ stop' := by
  induction h generalizing start with
  | done => exact ⟨start, rfl, hle⟩
  | @next leg legs start' i stop' hstart occurs _ ih =>
      -- the first occurrence comes no later than this one
      obtain ⟨j, hj, hji⟩ := nextMatch_of_occurs (hne leg (by simp)) (hle.trans hstart) occurs
      obtain ⟨stop, hrest, hstop⟩ := ih (fun leg' h' => hne leg' (List.mem_cons_of_mem _ h'))
        (show j + leg.advance ≤ i + leg.advance by omega)
      refine ⟨stop, ?_, hstop⟩
      rw [chain, hj]
      exact hrest

/-- The chain leaves off at the least place that occurrences in this order reach. -/
theorem chain_eq_some_iff {hay : List α} {legs : List (Leg α)} {start stop : Nat}
    (hne : ∀ leg ∈ legs, leg.needle ≠ []) :
    chain hay legs start = some stop ↔ IsLeast {stop | Reaches hay legs start stop} stop := by
  constructor
  · intro h
    refine ⟨reaches_of_chain hne h, ?_⟩
    intro stop' reaches
    obtain ⟨_, hsame, hle⟩ := chain_le_of_reaches hne le_rfl reaches
    rw [h, Option.some.injEq] at hsame
    omega
  · rintro ⟨reaches, least⟩
    obtain ⟨stop', h, hle⟩ := chain_le_of_reaches hne le_rfl reaches
    have hge := least (reaches_of_chain hne h)
    rw [h, show stop' = stop by omega]

end

end FileVault.Lib
