import FileVault.Lib.Slice

/-!
# Hexadecimal digits and UUIDs

A UUID is written as its bytes in lower-case hexadecimal, in five groups with hyphens
between them. Reading one back accepts both cases, and also the forms without hyphens,
in braces and with the URN prefix.
-/

namespace FileVault.Lib

/-- The lower-case hexadecimal digit. -/
def hexDigit (d : Nat) : Char :=
  if d < 10 then .ofNat ('0'.toNat + d) else .ofNat ('a'.toNat + (d - 10))

/-- The value of a hexadecimal digit of either case. -/
def hexValue? (c : Char) : Option Nat :=
  if '0' ≤ c ∧ c ≤ '9' then some (c.toNat - '0'.toNat)
  else if 'a' ≤ c ∧ c ≤ 'f' then some (c.toNat - 'a'.toNat + 10)
  else if 'A' ≤ c ∧ c ≤ 'F' then some (c.toNat - 'A'.toNat + 10)
  else none

theorem hexValue?_hexDigit : ∀ d < 16, hexValue? (hexDigit d) = some d := by
  decide

namespace Uuid

def hexBytes (bytes : List UInt8) : List Char :=
  bytes.flatMap fun b => [hexDigit (b.toNat / 16), hexDigit (b.toNat % 16)]

/-- Pairs of digits. -/
def parseHex : List Char → Option (List UInt8)
  | [] => some []
  | [_] => none
  | high :: low :: rest => do
      let high ← hexValue? high
      let low ← hexValue? low
      return .ofNat (high * 16 + low) :: (← parseHex rest)

/-- The text of a UUID. -/
def hyphenated (bytes : List UInt8) : List Char :=
  hexBytes (slice bytes 0 4) ++ ('-' :: (hexBytes (slice bytes 4 2) ++
    ('-' :: (hexBytes (slice bytes 6 2) ++ ('-' :: (hexBytes (slice bytes 8 2) ++
      ('-' :: hexBytes (slice bytes 10 6))))))))

/-- The digits of the five groups, when the hyphens are where they should be. -/
def parseHyphenated (text : List Char) : Option (List UInt8) :=
  if text.length = 36 ∧ text[8]? = some '-' ∧ text[13]? = some '-' ∧ text[18]? = some '-' ∧
      text[23]? = some '-' then
    parseHex (slice text 0 8 ++ (slice text 9 4 ++ (slice text 14 4 ++ (slice text 19 4 ++
      slice text 24 12))))
  else none

def parse (text : List Char) : Option (List UInt8) :=
  if text.length = 32 then parseHex text
  else if text.length = 38 ∧ text.head? = some '{' ∧ text.getLast? = some '}' then
    parseHyphenated (slice text 1 36)
  else if text.take 9 = "urn:uuid:".toList then parseHyphenated (text.drop 9)
  else parseHyphenated text

theorem parseHex_hexBytes (bytes : List UInt8) : parseHex (hexBytes bytes) = some bytes := by
  induction bytes with
  | nil => rfl
  | cons b bytes ih =>
      have hb := b.toNat_lt
      have split : hexBytes (b :: bytes) =
          hexDigit (b.toNat / 16) :: hexDigit (b.toNat % 16) :: hexBytes bytes := rfl
      rw [split, parseHex, hexValue?_hexDigit _ (by omega), hexValue?_hexDigit _ (by omega), ih]
      simp only [Option.bind_eq_bind, Option.bind_some, Option.pure_def]
      rw [Nat.div_add_mod', UInt8.ofNat_toNat]

/-- Reading a UUID back. -/
theorem parse_hyphenated {bytes : List UInt8} (h : bytes.length = 16) :
    parse (hyphenated bytes) = some bytes := by
  match bytes, h with
  | [b0, b1, b2, b3, b4, b5, b6, b7, b8, b9, b10, b11, b12, b13, b14, b15], _ =>
      generalize hbytes :
        [b0, b1, b2, b3, b4, b5, b6, b7, b8, b9, b10, b11, b12, b13, b14, b15] = bytes
      have hlen : (hyphenated bytes).length = 36 := by
        rw [← hbytes]
        rfl
      have groups : parseHyphenated (hyphenated bytes) = parseHex (hexBytes bytes) := by
        rw [← hbytes]
        exact if_pos ⟨rfl, rfl, rfl, rfl, rfl⟩
      -- the ninth character is a hyphen, not the colon of the URN prefix
      have hurn : (hyphenated bytes).take 9 ≠ "urn:uuid:".toList := by
        intro heq
        have ninth := congrArg (·[8]?) heq
        rw [← hbytes] at ninth
        exact absurd (show some '-' = some ':' from ninth) (by decide)
      rw [parse, hlen, if_neg (by decide), if_neg (by simp), if_neg hurn, groups,
        parseHex_hexBytes]

/-- The characters of a UUID. -/
theorem mem_hyphenated {bytes : List UInt8} {c : Char} (h : c ∈ hyphenated bytes) :
    c = '-' ∨ ∃ d < 16, c = hexDigit d := by
  have digits : ∀ {bs : List UInt8}, c ∈ hexBytes bs → ∃ d < 16, c = hexDigit d := by
    intro bs hmem
    obtain ⟨b, -, hb⟩ := List.mem_flatMap.mp hmem
    have hlt := b.toNat_lt
    simp only [List.mem_cons, List.not_mem_nil, or_false] at hb
    rcases hb with rfl | rfl
    · exact ⟨_, by omega, rfl⟩
    · exact ⟨_, Nat.mod_lt _ (by decide), rfl⟩
  simp only [hyphenated, List.mem_append, List.mem_cons] at h
  rcases h with h | h | h | h | h | h | h | h | h
  · exact .inr (digits h)
  · exact .inl h
  · exact .inr (digits h)
  · exact .inl h
  · exact .inr (digits h)
  · exact .inl h
  · exact .inr (digits h)
  · exact .inl h
  · exact .inr (digits h)

end Uuid

end FileVault.Lib
