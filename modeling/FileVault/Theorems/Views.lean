import FileVault.Logic.Load

/-!
# The locked and the unlocked view

`parse_info` describes a volume without the password, `unlock_with_password`
opens it. The two are written separately, with the key derivation in the middle
of the second; they agree on every image all the same.
-/

namespace FileVault

/-- The two endings over the same header and metadata: what the password adds is
the keys, and the ways in which deriving them can fail. -/
theorem openVolume_of_describe {crates : Crates} {header : VolumeHeader} {plaintext : Bytes}
    {info : FileVaultInfo} (h : describe crates header plaintext = .ok info)
    (password : String) (reader : Reader) :
    (∃ vol, openVolume crates password header plaintext reader = .ok vol ∧
      vol.info = info ∧ vol.size = info.lvSize) ∨
    (∃ what, openVolume crates password header plaintext reader = fail (.keyUnwrap what)) ∨
    (openVolume crates password header plaintext reader =
        fail (.metadataStructureMissing "parseable family UUID") ∧
      parseUuidBytes crates info.familyUuid = none) := by
  unfold describe at h
  simp only [bind_eq_ok] at h
  obtain ⟨context, hcontext, lv, hlv, ⟨base, size⟩, hextent, hinfo⟩ := h
  obtain rfl := Except.ok.inj hinfo
  unfold openVolume
  rw [hcontext, ok_bind, hlv, ok_bind]
  cases huuid : parseUuidBytes crates lv.familyUuid with
  | none => exact .inr (.inr ⟨rfl, huuid⟩)
  | some uuid =>
      rw [okOr_some, ok_bind]
      cases hkeys : deriveVolumeKeys crates password context uuid with
      | error stop =>
          obtain ⟨what, rfl⟩ := deriveVolumeKeys_error hkeys
          exact .inr (.inl ⟨what, rfl⟩)
      | ok keys =>
          rw [ok_bind, hextent]
          exact .inl ⟨_, rfl, rfl, rfl⟩

/-- Where the password-independent ending fails, so does the other, and alike. -/
theorem openVolume_of_describe_error {crates : Crates} {header : VolumeHeader}
    {plaintext : Bytes} {stop : Stop} (hlen : plaintext.length ≤ isizeMax)
    (h : describe crates header plaintext = .error stop) (password : String)
    (reader : Reader) :
    openVolume crates password header plaintext reader = .error stop := by
  unfold describe at h
  unfold openVolume
  cases hcontext : EncryptionContext.extract crates plaintext with
  | error stop' => simpa [hcontext] using h
  | ok context =>
      cases hlv : LogicalVolumeInfo.extract plaintext with
      | error stop' => simpa [hcontext, hlv] using h
      | ok lv => simp [hcontext, hlv, resolveLvExtent_eq header lv hlen] at h

/-- What the locked view says about the outcome of an unlock. -/
def ViewsAgree (crates : Crates) (parsed : Run FileVaultInfo) (unlocked : Run FileVaultVolume) :
    Prop :=
  match parsed with
  | .error stop => unlocked = .error stop
  | .ok info =>
      (∃ vol, unlocked = .ok vol ∧ vol.info = info ∧ vol.size = info.lvSize) ∨
      (∃ what, unlocked = fail (.keyUnwrap what)) ∨
      (unlocked = fail (.metadataStructureMissing "parseable family UUID") ∧
        parseUuidBytes crates info.familyUuid = none)

/-- Over every reader and for every password the two views agree: a parse that
fails makes the unlock fail in the same way, and after a parse that succeeds only
the family UUID and the key unwrapping can still fail. -/
theorem viewsAgree_parseInfo_unlock (crates : Crates) (reader : Reader) (password : String) :
    ViewsAgree crates (parseInfo crates reader) (unlockWithPassword crates reader password) := by
  rw [parseInfo_eq, unlockWithPassword_eq]
  cases hload : loadVolume crates reader with
  | error stop => rfl
  | ok loaded =>
      obtain ⟨header, plaintext, reader'⟩ := loaded
      have hlen := loadVolume_length hload
      simp only [ok_bind]
      cases hparse : describe crates header plaintext with
      | error stop => exact openVolume_of_describe_error hlen hparse password reader'
      | ok info => exact openVolume_of_describe hparse password reader'

/-- A volume that unlocks reports what the locked view reports. -/
theorem info_eq_of_unlock {crates : Crates} {reader : Reader} {password : String}
    {vol : FileVaultVolume} (h : unlockWithPassword crates reader password = .ok vol) :
    parseInfo crates reader = .ok vol.info ∧ vol.size = vol.info.lvSize := by
  have agree := viewsAgree_parseInfo_unlock crates reader password
  rw [h] at agree
  cases hparse : parseInfo crates reader with
  | error stop => simp [ViewsAgree, hparse] at agree
  | ok info =>
      simp only [ViewsAgree, hparse, fail, reduceCtorEq, exists_false, false_and, or_false,
        Except.ok.injEq] at agree
      obtain ⟨vol', rfl, rfl, hsize⟩ := agree
      exact ⟨rfl, hsize⟩

/-- The locked and the unlocked view of an image agree, and no password changes
what is reported. -/
theorem unlock_agrees_with_parseInfo (crates : Crates) (reader : Reader) (password : String) :
    ViewsAgree crates (parseInfo crates reader) (unlockWithPassword crates reader password) ∧
      ∀ password' vol vol', unlockWithPassword crates reader password = .ok vol →
        unlockWithPassword crates reader password' = .ok vol' → vol'.info = vol.info := by
  refine ⟨viewsAgree_parseInfo_unlock crates reader password, ?_⟩
  intro password' vol vol' h h'
  have hinfo := (info_eq_of_unlock h).1
  rw [(info_eq_of_unlock h').1] at hinfo
  exact Except.ok.inj hinfo

end FileVault
