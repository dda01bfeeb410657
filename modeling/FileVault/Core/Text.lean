import FileVault.Core.Error
import FileVault.Lib.Uuid
import Mathlib.Data.List.DropRight

/-!
# Strings and numbers from bytes

The standard-library text functions that the extraction uses: UTF-8 conversion,
Unicode trimming, and the unsigned `from_str_radix` / `parse`.
-/

namespace FileVault

open Lib

/-- `s.as_bytes()`. -/
def asBytes (s : String) : Bytes := s.toUTF8.data.toList

/-- `String::from_utf8(bytes).ok()`, and `std::str::from_utf8` likewise. -/
def fromUtf8 (bytes : Bytes) : Option String := String.fromUTF8? ⟨bytes.toArray⟩

/-- `char::is_whitespace`: the Unicode `White_Space` property. -/
def isWhitespace (c : Char) : Bool :=
  let n := c.toNat
  (0x9 ≤ n && n ≤ 0xd) || n == 0x20 || n == 0x85 || n == 0xa0 || n == 0x1680 ||
    (0x2000 ≤ n && n ≤ 0x200a) || n == 0x2028 || n == 0x2029 || n == 0x202f ||
    n == 0x205f || n == 0x3000

/-- `str::trim`. -/
def trim (text : List Char) : List Char :=
  (text.dropWhile isWhitespace).rdropWhile isWhitespace

/-- `u8::is_ascii_whitespace`: space, tab, line feed, form feed, carriage return. -/
def isAsciiWhitespace (b : UInt8) : Bool :=
  b == 0x20 || b == 0x09 || b == 0x0a || b == 0x0c || b == 0x0d

/-- `char::to_digit`. -/
def toDigit (radix : Nat) (c : Char) : Option Nat :=
  let value :=
    if '0' ≤ c ∧ c ≤ '9' then c.toNat - '0'.toNat
    else if 'a' ≤ c ∧ c ≤ 'z' then c.toNat - 'a'.toNat + 10
    else if 'A' ≤ c ∧ c ≤ 'Z' then c.toNat - 'A'.toNat + 10
    else radix
  if value < radix then some value else none

/-- The accumulating loop of `from_str_radix`, with its overflow check. -/
def accumulate (radix bound : Nat) : (acc : Nat) → List Char → Option Nat
  | acc, [] => some acc
  | acc, c :: rest =>
      match toDigit radix c with
      | none => none
      | some d => if acc * radix + d < bound then accumulate radix bound (acc * radix + d) rest
          else none

/-- `from_str_radix` of an unsigned type with `bound` values: one leading `+` is
allowed, and there must be a digit. -/
def fromStrRadix (bound radix : Nat) (text : List Char) : Option Nat :=
  let digits := match text with
    | '+' :: rest => rest
    | _ => text
  if digits = [] then none else accumulate radix bound 0 digits

/-- `text.strip_prefix("0x")`. -/
def stripHexPrefix : List Char → Option (List Char)
  | '0' :: 'x' :: rest => some rest
  | _ => none

/-- The integer syntax the extraction accepts: `0x` and hexadecimal digits, or
decimal digits, with whitespace around them. -/
def parseInteger (bound : Nat) (text : List Char) : Option Nat :=
  let text := trim text
  match stripHexPrefix text with
  | some hex => fromStrRadix bound 16 hex
  | none => fromStrRadix bound 10 text

/-! ## What is undone -/

theorem asBytes_eq (s : String) : asBytes s = s.toList.flatMap String.utf8EncodeChar := by
  unfold asBytes
  rw [String.toUTF8_eq_toByteArray, ← String.utf8Encode_toList, List.utf8Encode,
    List.toList_data_toByteArray]

/-- The bytes of a string decode to it. -/
@[simp] theorem fromUtf8_asBytes (s : String) : fromUtf8 (asBytes s) = some s := by
  have hbytes : (⟨(asBytes s).toArray⟩ : ByteArray) = s.toByteArray := by
    simp [asBytes]
  unfold fromUtf8 String.fromUTF8?
  rw [hbytes, dif_pos s.isValidUTF8]
  rfl

/-- An ASCII byte of a string is a character of it. -/
theorem mem_of_mem_asBytes {s : String} {b : UInt8} (hascii : b.toNat < 128)
    (h : b ∈ asBytes s) : Char.ofNat b.toNat ∈ s.toList := by
  rw [asBytes_eq, List.mem_flatMap] at h
  obtain ⟨c, hc, hb⟩ := h
  have key : Char.ofNat b.toNat = c := by
    unfold String.utf8EncodeChar at hb
    simp only at hb
    split at hb
    · next hle =>
        obtain rfl := List.mem_singleton.mp hb
        rw [UInt8.toNat_ofNat', Nat.mod_eq_of_lt (by omega)]
        exact Char.ofNat_toNat c
    split at hb
    · simp only [List.mem_cons, List.not_mem_nil, or_false] at hb
      rcases hb with rfl | rfl <;> rw [UInt8.toNat_ofNat'] at hascii <;> omega
    split at hb
    · simp only [List.mem_cons, List.not_mem_nil, or_false] at hb
      rcases hb with rfl | rfl | rfl <;> rw [UInt8.toNat_ofNat'] at hascii <;> omega
    · simp only [List.mem_cons, List.not_mem_nil, or_false] at hb
      rcases hb with rfl | rfl | rfl | rfl <;> rw [UInt8.toNat_ofNat'] at hascii <;> omega
  rw [key]
  exact hc

/-- Text with no whitespace in it is trimmed already. -/
theorem trim_eq_self {text : List Char} (h : ∀ c ∈ text, isWhitespace c = false) :
    trim text = text := by
  have front : ∀ xs : List Char, (∀ c ∈ xs, isWhitespace c = false) →
      xs.dropWhile isWhitespace = xs := by
    intro xs hxs
    cases xs with
    | nil => rfl
    | cons c xs => rw [List.dropWhile_cons_of_neg (by simp [hxs c])]
  unfold trim List.rdropWhile
  rw [front text h, front text.reverse (fun c hc => h c (List.mem_reverse.mp hc)),
    List.reverse_reverse]

theorem accumulate_append {radix bound acc : Nat} (xs ys : List Char) :
    accumulate radix bound acc (xs ++ ys) =
      (accumulate radix bound acc xs).bind fun acc' => accumulate radix bound acc' ys := by
  induction xs generalizing acc with
  | nil => rfl
  | cons c xs ih =>
      simp only [List.cons_append, accumulate]
      cases toDigit radix c with
      | none => rfl
      | some d =>
          by_cases hlt : acc * radix + d < bound
          · simp only [if_pos hlt, ih]
          · simp only [if_neg hlt, Option.bind_none]

/-! ## Hexadecimal digits -/

/-- `format!("{n:x}")`. -/
def lowerHex (n : Nat) : List Char :=
  if n < 16 then [hexDigit n] else lowerHex (n / 16) ++ [hexDigit (n % 16)]

theorem hexDigit_spec : ∀ d < 16,
    toDigit 16 (hexDigit d) = some d ∧ isWhitespace (hexDigit d) = false ∧
      hexDigit d ≠ '+' ∧ hexDigit d ≠ '<' := by
  decide

/-- Every digit of a rendered number is one of the sixteen. -/
theorem mem_lowerHex {n : Nat} {c : Char} (h : c ∈ lowerHex n) : ∃ d < 16, c = hexDigit d := by
  fun_induction lowerHex n with
  | case1 n hlt => exact ⟨n, hlt, List.mem_singleton.mp h⟩
  | case2 n hge ih =>
      rcases List.mem_append.mp h with h | h
      · exact ih h
      · exact ⟨n % 16, Nat.mod_lt _ (by decide), List.mem_singleton.mp h⟩

theorem lowerHex_ne_nil (n : Nat) : lowerHex n ≠ [] := by
  unfold lowerHex
  split
  · simp
  · simp

theorem accumulate_lowerHex {n bound : Nat} (h : n < bound) :
    accumulate 16 bound 0 (lowerHex n) = some n := by
  fun_induction lowerHex n with
  | case1 n hlt =>
      simp only [accumulate, (hexDigit_spec n hlt).1]
      rw [if_pos (by omega)]
      congr 1
      omega
  | case2 n hge ih =>
      have hdigit := (hexDigit_spec (n % 16) (Nat.mod_lt _ (by decide))).1
      rw [accumulate_append, ih (by omega)]
      simp only [Option.bind_some, accumulate, hdigit]
      rw [if_pos (by omega)]
      congr 1
      omega

/-- Digits without a sign in front are accumulated as they are. -/
theorem fromStrRadix_plain {bound radix : Nat} {text : List Char} (hne : text ≠ [])
    (hplus : '+' ∉ text) : fromStrRadix bound radix text = accumulate radix bound 0 text := by
  unfold fromStrRadix
  cases text with
  | nil => exact absurd rfl hne
  | cons c rest =>
      simp only
      split
      · next heq => exact absurd (by simp [(List.cons.inj heq).1]) hplus
      · exact if_neg (by simp)

/-- A number rendered with the `0x` prefix is read back. -/
theorem parseInteger_lowerHex {n bound : Nat} (h : n < bound) :
    parseInteger bound ('0' :: 'x' :: lowerHex n) = some n := by
  have clean : ∀ c ∈ '0' :: 'x' :: lowerHex n, isWhitespace c = false := by
    intro c hc
    rcases List.mem_cons.mp hc with rfl | hc
    · decide
    rcases List.mem_cons.mp hc with rfl | hc
    · decide
    · obtain ⟨d, hd, rfl⟩ := mem_lowerHex hc
      exact (hexDigit_spec d hd).2.1
  have noPlus : '+' ∉ lowerHex n := by
    intro hmem
    obtain ⟨d, hd, hc⟩ := mem_lowerHex hmem
    exact (hexDigit_spec d hd).2.2.1 hc.symm
  unfold parseInteger
  simp only [trim_eq_self clean, stripHexPrefix]
  rw [fromStrRadix_plain (lowerHex_ne_nil n) noPlus, accumulate_lowerHex h]

end FileVault
