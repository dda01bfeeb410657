import FileVault.Logic.Plist
import Mathlib.Data.Nat.Digits.Lemmas

/-!
# The numbers of the metadata

A `UserType` and the size of the logical volume are written as text, in decimal or behind `0x` in
hexadecimal. The text is turned into a number digit by digit, with an overflow check in every step;
what that accepts are the numerals whose value fits, whitespace around them apart, and nothing
else.
-/

namespace FileVault

open Lib

/-- Digits, the most significant first, and what they stand for. -/
def Digits (radix : Nat) (text : List Char) (n : Nat) : Prop :=
  ∃ digits : List Nat,
    text.map (toDigit radix) = digits.map some ∧ Nat.ofDigits radix digits.reverse = n

/-- What may stand in front of the digits. -/
def Sign (text : List Char) : Prop := text = [] ∨ text = ['+']

/-- The numerals: at least one digit, decimal or behind `0x` hexadecimal. -/
inductive Numeral : List Char → Nat → Prop
  | decimal {sign digits : List Char} {n : Nat} : Sign sign → digits ≠ [] → Digits 10 digits n →
      Numeral (sign ++ digits) n
  | hexadecimal {sign digits : List Char} {n : Nat} : Sign sign → digits ≠ [] →
      Digits 16 digits n → Numeral ('0' :: 'x' :: (sign ++ digits)) n

/-- A numeral with whitespace around it. -/
def Spaced (text : List Char) (n : Nat) : Prop :=
  ∃ front body back, text = front ++ (body ++ back) ∧ (∀ c ∈ front, isWhitespace c = true) ∧
    (∀ c ∈ back, isWhitespace c = true) ∧ Numeral body n

/-! ## Digits -/

section

variable {radix bound acc n : Nat} {text : List Char}

/-- More digits behind a number. -/
def appended (radix acc : Nat) (digits : List Nat) : Nat :=
  acc * radix ^ digits.length + Nat.ofDigits radix digits.reverse

theorem appended_cons (d : Nat) (digits : List Nat) :
    appended radix acc (d :: digits) = appended radix (acc * radix + d) digits := by
  unfold appended
  rw [List.reverse_cons, Nat.ofDigits_append, List.length_reverse, List.length_cons,
    Nat.ofDigits_singleton, pow_succ]
  ring

theorem le_appended (hradix : 0 < radix) (digits : List Nat) : acc ≤ appended radix acc digits := by
  have := Nat.le_mul_of_pos_right acc (Nat.pow_pos (n := digits.length) hradix)
  unfold appended
  omega

/-- The loop over the digits: the check in every step comes to one check of the value. -/
theorem accumulate_iff (hradix : 0 < radix) (hacc : acc < bound) :
    accumulate radix bound acc text = some n ↔
      ∃ digits : List Nat, text.map (toDigit radix) = digits.map some ∧
        appended radix acc digits = n ∧ n < bound := by
  induction text generalizing acc with
  | nil =>
      constructor
      · intro h
        obtain rfl := Option.some.inj h
        exact ⟨[], rfl, by simp [appended], hacc⟩
      · rintro ⟨digits, hdigits, rfl, -⟩
        obtain rfl := List.map_eq_nil_iff.mp hdigits.symm
        simp [accumulate, appended]
  | cons c text ih =>
      cases hdigit : toDigit radix c with
      | none =>
          simp only [accumulate, hdigit, List.map_cons, reduceCtorEq, false_iff]
          rintro ⟨digits, hdigits, -⟩
          cases digits with
          | nil => simp at hdigits
          | cons d digits => simp at hdigits
      | some d =>
          by_cases hlt : acc * radix + d < bound
          · simp only [accumulate, hdigit, if_pos hlt, List.map_cons]
            rw [ih hlt]
            constructor
            · rintro ⟨digits, hdigits, hvalue, hbound⟩
              refine ⟨d :: digits, by rw [List.map_cons, hdigits], ?_, hbound⟩
              rw [appended_cons, hvalue]
            · rintro ⟨digits, hdigits, hvalue, hbound⟩
              cases digits with
              | nil => simp at hdigits
              | cons d' digits =>
                  rw [List.map_cons, List.cons.injEq, Option.some.injEq] at hdigits
                  obtain ⟨rfl, hdigits⟩ := hdigits
                  exact ⟨digits, hdigits, by rw [← appended_cons, hvalue], hbound⟩
          · simp only [accumulate, hdigit, if_neg hlt, List.map_cons, reduceCtorEq, false_iff]
            -- a value that is too large stays so
            rintro ⟨digits, hdigits, hvalue, hbound⟩
            cases digits with
            | nil => simp at hdigits
            | cons d' digits =>
                rw [List.map_cons, List.cons.injEq, Option.some.injEq] at hdigits
                obtain ⟨rfl, -⟩ := hdigits
                rw [appended_cons] at hvalue
                have large : acc * radix + d ≤ appended radix (acc * radix + d) digits :=
                  le_appended hradix digits
                omega

theorem accumulate_zero_iff (hradix : 0 < radix) (hne : text ≠ []) :
    accumulate radix bound 0 text = some n ↔ Digits radix text n ∧ n < bound := by
  rcases Nat.eq_zero_or_pos bound with rfl | hbound
  · obtain ⟨c, text, rfl⟩ := List.exists_cons_of_ne_nil hne
    rw [accumulate]
    cases toDigit radix c with
    | none => simp
    | some d => simp
  · rw [accumulate_iff hradix hbound]
    constructor
    · rintro ⟨digits, hdigits, hvalue, hlt⟩
      exact ⟨⟨digits, hdigits, by simpa [appended] using hvalue⟩, hlt⟩
    · rintro ⟨⟨digits, hdigits, hvalue⟩, hlt⟩
      exact ⟨digits, hdigits, by simpa [appended] using hvalue, hlt⟩

/-- Every character of a number is a digit. -/
theorem Digits.toDigit_isSome (h : Digits radix text n) :
    ∀ c ∈ text, (toDigit radix c).isSome = true := by
  intro c hc
  obtain ⟨digits, hdigits, -⟩ := h
  have hmem := List.mem_map_of_mem (f := toDigit radix) hc
  rw [hdigits] at hmem
  obtain ⟨d, -, hd⟩ := List.mem_map.mp hmem
  rw [← hd]
  rfl

theorem toDigit_plus (radix : Nat) : toDigit radix '+' = none := by
  have nothing : ¬ ('0' ≤ '+' ∧ '+' ≤ '9') ∧ ¬ ('a' ≤ '+' ∧ '+' ≤ 'z') ∧
      ¬ ('A' ≤ '+' ∧ '+' ≤ 'Z') := by decide
  unfold toDigit
  rw [if_neg nothing.1, if_neg nothing.2.1, if_neg nothing.2.2]
  exact if_neg (lt_irrefl radix)

theorem Digits.plus_notMem (h : Digits radix text n) : '+' ∉ text := by
  intro hmem
  have := h.toDigit_isSome '+' hmem
  rw [toDigit_plus] at this
  cases this

/-- A sign at most, and digits. -/
theorem fromStrRadix_iff (hradix : 0 < radix) :
    fromStrRadix bound radix text = some n ↔
      ∃ sign digits, text = sign ++ digits ∧ Sign sign ∧ digits ≠ [] ∧
        Digits radix digits n ∧ n < bound := by
  have unsigned : ∀ digits, (if digits = [] then none else accumulate radix bound 0 digits) =
      some n ↔ digits ≠ [] ∧ Digits radix digits n ∧ n < bound := by
    intro digits
    by_cases hne : digits = []
    · simp [hne]
    · rw [if_neg hne, accumulate_zero_iff hradix hne, and_iff_right hne]
  unfold fromStrRadix
  rw [unsigned]
  constructor
  · intro h
    split at h
    · next rest => exact ⟨['+'], rest, rfl, .inr rfl, h⟩
    · exact ⟨[], text, rfl, .inl rfl, h⟩
  · rintro ⟨sign, digits, rfl, rfl | rfl, hne, hdigits, hlt⟩
    · rw [List.nil_append]
      split
      · exact absurd List.mem_cons_self hdigits.plus_notMem
      · exact ⟨hne, hdigits, hlt⟩
    · exact ⟨hne, hdigits, hlt⟩

end

/-! ## Numerals -/

section

variable {bound n : Nat} {text : List Char}

theorem stripHexPrefix_some {hex : List Char} (h : stripHexPrefix text = some hex) :
    text = '0' :: 'x' :: hex := by
  unfold stripHexPrefix at h
  split at h
  · rw [Option.some.inj h]
  · cases h

theorem Sign.eq_plus {sign : List Char} (h : Sign sign) : ∀ c ∈ sign, c = '+' := by
  rcases h with rfl | rfl <;> simp

theorem numeral_trim_iff :
    parseInteger bound text = some n ↔ Numeral (trim text) n ∧ n < bound := by
  unfold parseInteger
  generalize trim text = body
  simp only
  constructor
  · intro h
    split at h
    · next hex hprefix =>
        obtain ⟨sign, digits, rfl, hsign, hne, hdigits, hlt⟩ :=
          (fromStrRadix_iff (by decide)).mp h
        rw [stripHexPrefix_some hprefix]
        exact ⟨.hexadecimal hsign hne hdigits, hlt⟩
    · obtain ⟨sign, digits, rfl, hsign, hne, hdigits, hlt⟩ :=
        (fromStrRadix_iff (by decide)).mp h
      exact ⟨.decimal hsign hne hdigits, hlt⟩
  · rintro ⟨numeral, hlt⟩
    cases numeral with
    | hexadecimal hsign hne hdigits =>
        exact (fromStrRadix_iff (by decide)).mpr ⟨_, _, rfl, hsign, hne, hdigits, hlt⟩
    | @decimal sign digits _ hsign hne hdigits =>
        split
        · next hex hprefix =>
            -- there is no decimal digit `x`
            have hx : 'x' ∈ sign ++ digits := by
              rw [stripHexPrefix_some hprefix]
              exact List.mem_cons_of_mem _ List.mem_cons_self
            rcases List.mem_append.mp hx with hx | hx
            · exact absurd (hsign.eq_plus _ hx) (by decide)
            · exact absurd (hdigits.toDigit_isSome _ hx) (by decide)
        · exact (fromStrRadix_iff (by decide)).mpr ⟨_, _, rfl, hsign, hne, hdigits, hlt⟩

theorem toDigit_not_whitespace {radix : Nat} {c : Char} (h : (toDigit radix c).isSome = true) :
    isWhitespace c = false := by
  have range : (48 ≤ c.toNat ∧ c.toNat ≤ 57) ∨ (97 ≤ c.toNat ∧ c.toNat ≤ 122) ∨
      (65 ≤ c.toNat ∧ c.toNat ≤ 90) := by
    unfold toDigit at h
    split_ifs at h with hdecimal hlower hupper
    · exact .inl hdecimal
    · exact .inr (.inl hlower)
    · exact .inr (.inr hupper)
    · simp at h
  unfold isWhitespace
  simp only [Bool.or_eq_false_iff, Bool.and_eq_false_iff, decide_eq_false_iff_not,
    beq_eq_false_iff_ne]
  omega

theorem Numeral.not_whitespace (h : Numeral text n) : ∀ c ∈ text, isWhitespace c = false := by
  have signed : ∀ {radix : Nat} {sign digits : List Char}, Sign sign → Digits radix digits n →
      ∀ c ∈ sign ++ digits, isWhitespace c = false := by
    intro radix sign digits hsign hdigits c hc
    rcases List.mem_append.mp hc with hc | hc
    · rw [hsign.eq_plus c hc]
      decide
    · exact toDigit_not_whitespace (hdigits.toDigit_isSome c hc)
  cases h with
  | decimal hsign _ hdigits => exact signed hsign hdigits
  | hexadecimal hsign _ hdigits =>
      intro c hc
      rcases List.mem_cons.mp hc with rfl | hc
      · decide
      rcases List.mem_cons.mp hc with rfl | hc
      · decide
      · exact signed hsign hdigits c hc

theorem Numeral.ne_nil (h : Numeral text n) : text ≠ [] := by
  cases h with
  | decimal _ hne _ => simp [hne]
  | hexadecimal _ _ _ => simp

/-- What is left of a text without the whitespace around it. -/
theorem trim_spaced {front body back : List Char} (hfront : ∀ c ∈ front, isWhitespace c = true)
    (hback : ∀ c ∈ back, isWhitespace c = true) (hbody : ∀ c ∈ body, isWhitespace c = false)
    (hne : body ≠ []) : trim (front ++ (body ++ back)) = body := by
  have stays : ∀ xs ys : List Char, xs ≠ [] → (∀ c ∈ xs, isWhitespace c = false) →
      (xs ++ ys).dropWhile isWhitespace = xs ++ ys := by
    intro xs ys hxs hclean
    obtain ⟨c, xs, rfl⟩ := List.exists_cons_of_ne_nil hxs
    exact List.dropWhile_cons_of_neg (by simp [hclean c])
  unfold trim List.rdropWhile
  rw [List.dropWhile_append_of_pos hfront, stays body back hne hbody, List.reverse_append,
    List.dropWhile_append_of_pos (fun c hc => hback c (List.mem_reverse.mp hc)),
    ← List.append_nil body.reverse, stays body.reverse [] (by simpa using hne)
      (fun c hc => hbody c (List.mem_reverse.mp hc)), List.append_nil, List.reverse_reverse]

/-- There is whitespace around what is left. -/
theorem spaced_trim (text : List Char) :
    ∃ front back, text = front ++ (trim text ++ back) ∧
      (∀ c ∈ front, isWhitespace c = true) ∧ ∀ c ∈ back, isWhitespace c = true := by
  refine ⟨text.takeWhile isWhitespace, (text.dropWhile isWhitespace).rtakeWhile isWhitespace,
    ?_, ?_, ?_⟩
  · rw [trim, List.rdropWhile_append_rtakeWhile, List.takeWhile_append_dropWhile]
  · intro c hc
    exact List.mem_takeWhile_imp hc
  · intro c hc
    exact List.mem_rtakeWhile_imp hc

/-- What is read as a number: the numerals that fit. -/
theorem parseInteger_iff :
    parseInteger bound text = some n ↔ Spaced text n ∧ n < bound := by
  rw [numeral_trim_iff]
  constructor
  · rintro ⟨numeral, hlt⟩
    obtain ⟨front, back, htext, hfront, hback⟩ := spaced_trim text
    exact ⟨⟨front, trim text, back, htext, hfront, hback, numeral⟩, hlt⟩
  · rintro ⟨⟨front, body, back, rfl, hfront, hback, numeral⟩, hlt⟩
    rw [trim_spaced hfront hback numeral.not_whitespace numeral.ne_nil]
    exact ⟨numeral, hlt⟩

end

/-! ## In the metadata -/

theorem fromUtf8_eq_some {bytes : Bytes} {s : String} :
    fromUtf8 bytes = some s ↔ bytes = asBytes s := by
  constructor
  · intro h
    unfold fromUtf8 String.fromUTF8? at h
    split at h
    · obtain rfl := Option.some.inj h
      rfl
    · cases h
  · rintro rfl
    exact fromUtf8_asBytes s

section

variable {radix n d : Nat} {text : List Char} {c : Char}

/-- A digit more. -/
theorem Digits.concat (h : Digits radix text n) (hc : toDigit radix c = some d) :
    Digits radix (text ++ [c]) (d + radix * n) := by
  obtain ⟨digits, hdigits, rfl⟩ := h
  refine ⟨digits ++ [d], ?_, ?_⟩
  · rw [List.map_append, List.map_append, hdigits, List.map_singleton, List.map_singleton, hc]
  · rw [List.reverse_append, List.reverse_singleton, List.singleton_append, Nat.ofDigits_cons]

theorem digits_one (hc : toDigit radix c = some d) : Digits radix [c] d :=
  ⟨[d], by simp [hc], by simp⟩

theorem digits_lowerHex (n : Nat) : Digits 16 (lowerHex n) n := by
  fun_induction lowerHex n with
  | case1 n hlt => exact digits_one (hexDigit_spec n hlt).1
  | case2 n hge ih =>
      have more := ih.concat (hexDigit_spec (n % 16) (Nat.mod_lt _ (by decide))).1
      rwa [Nat.mod_add_div] at more

theorem toDigit_digitChar : ∀ d < 10, toDigit 10 (Nat.digitChar d) = some d := by
  decide

theorem digits_toDigits (n : Nat) : Digits 10 (Nat.toDigits 10 n) n := by
  induction n using Nat.strong_induction_on with
  | _ n ih =>
      by_cases hlt : n < 10
      · rw [Nat.toDigits_of_lt_base hlt]
        exact digits_one (toDigit_digitChar n hlt)
      · rw [Nat.toDigits_of_base_le (by decide) (by omega)]
        have more := (ih (n / 10) (by omega)).concat
          (toDigit_digitChar (n % 10) (Nat.mod_lt _ (by decide)))
        rwa [Nat.mod_add_div] at more

end

/-- The number of an `<integer>` element: there is one exactly if the text is a numeral whose value
fits the type, and a number that fits is read back from either way of writing it. -/
theorem extractUnsignedFrom_iff (bound : Nat) (metadata : Bytes) (keyName : String) (start : Nat) :
    (∀ n stop, extractUnsignedFrom bound metadata keyName start = some (n, stop) ↔
      n < bound ∧ ∃ text : String, Spaced text.toList n ∧
        extractTaggedFrom metadata keyName (asBytes "<integer") (asBytes "</integer>") start =
          some (asBytes text, stop)) ∧
    ∀ n, Spaced (Nat.toDigits 10 n) n ∧ Spaced ('0' :: 'x' :: lowerHex n) n := by
  have plain : ∀ text n, Numeral text n → Spaced text n := by
    intro text n numeral
    exact ⟨[], text, [], by simp, by simp, by simp, numeral⟩
  refine ⟨?_, ?_⟩
  · intro n stop
    rw [extractUnsignedFrom_eq, Option.bind_eq_some_iff]
    constructor
    · rintro ⟨⟨value, stop'⟩, found, hmap⟩
      obtain ⟨n', hn', hpair⟩ := Option.map_eq_some_iff.mp hmap
      obtain ⟨rfl, rfl⟩ := Prod.mk.inj hpair
      obtain ⟨text, htext, hparse⟩ := Option.bind_eq_some_iff.mp hn'
      obtain rfl := fromUtf8_eq_some.mp htext
      obtain ⟨spaced, hlt⟩ := parseInteger_iff.mp hparse
      exact ⟨hlt, text, spaced, found⟩
    · rintro ⟨hlt, text, spaced, found⟩
      refine ⟨_, found, Option.map_eq_some_iff.mpr ⟨n, ?_, rfl⟩⟩
      exact Option.bind_eq_some_iff.mpr
        ⟨text, fromUtf8_asBytes text, parseInteger_iff.mpr ⟨spaced, hlt⟩⟩
  · intro n
    refine ⟨plain _ _ ?_, plain _ _ ?_⟩
    · have hne : Nat.toDigits 10 n ≠ [] := by
        rw [Nat.toDigits_eq_if (by decide)]
        split_ifs <;> simp
      exact .decimal (.inl rfl) hne (digits_toDigits n)
    · exact .hexadecimal (.inl rfl) (lowerHex_ne_nil n) (digits_lowerHex n)

end FileVault
