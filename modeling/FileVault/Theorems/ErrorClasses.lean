import FileVault.Theorems.Elements

/-!
# The errors of the context extraction

The documentation of `EncryptionContext::extract` names three errors: a struct that is
absent, a blob that does not decode, a struct too short for its fields. The helpers return
`None` for the first two alike, and they take any data element behind a key, so the errors
are the documented ones for some metadata only.
-/

namespace FileVault

open Lib

/-! ## The errors -/

section

variable (crates : Crates)

end

/-! ## Fields -/

/-- A field is read where the blob is long enough for it. -/
theorem sliceArr_cases (n off : Nat) (data : Bytes) (hfits : off + n < usizeSize) :
    (data.length < off + n ∧ sliceArr n data off = none) ∨
      (off + n ≤ data.length ∧ ∃ arr, sliceArr n data off = some arr) := by
  by_cases h : off + n ≤ data.length
  · exact .inr ⟨h, ⟨slice data off n, slice_length_of_le h⟩, sliceArr_eq h hfits rfl⟩
  · refine .inl ⟨by omega, ?_⟩
    have short : getRange data off (off + n) = none := if_neg (by omega)
    simp only [sliceArr, checkedAdd_eq hfits, Option.bind_eq_bind, Option.bind_some, short,
      Option.bind_none]

theorem readU32Le_cases (off : Nat) (data : Bytes) (hfits : off + 4 < usizeSize) :
    (data.length < off + 4 ∧ readU32Le data off = none) ∨
      (off + 4 ≤ data.length ∧ ∃ n, readU32Le data off = some n) := by
  by_cases h : off + 4 ≤ data.length
  · exact .inr ⟨h, _, readU32Le_eq h hfits⟩
  · refine .inl ⟨by omega, ?_⟩
    have short : getRange data off (off + 4) = none := if_neg (by omega)
    simp only [readU32Le, checkedAdd_eq hfits, Option.bind_eq_bind, Option.bind_some, short,
      Option.bind_none]

section

variable {crates : Crates} {what : String} {fields : List (Nat × String)}
  {element scanned : Option Bytes} {e : FileVaultError}

end

/-! ## Both structs -/

section

variable {crates : Crates} {metadata : Bytes} {passphrase volumeKey : Option Bytes}

end

end FileVault
