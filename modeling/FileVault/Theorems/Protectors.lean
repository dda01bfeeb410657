import FileVault.Core.Audit
import FileVault.Logic.CryptoUsers
import FileVault.Logic.OtherMetadata
import FileVault.Logic.Synthetic

/-!
# Which protector counts

The scan for a `PassphraseWrappedKEKStruct` stops at the first one, and the user type
next to it is never looked at. So the parameters that are reported, and the one
passphrase that is tried, are those of the first crypto user in the list.
-/

namespace FileVault

open Lib

/-- Anomalies are told apart by their kinds. -/
theorem Anomaly.new_inj {kind other : AnomalyKind} :
    Anomaly.new kind = .new other ↔ kind = other :=
  ⟨fun h => congrArg Anomaly.kind h, fun h => congrArg Anomaly.new h⟩

/-- A weak iteration count is found exactly if it is that of the report, and below the bar. -/
theorem weakKdf_mem_auditInfo (info : FileVaultInfo) (iterations : UInt32) :
    .new (.weakKdfIterations iterations) ∈ auditInfo info ↔
      iterations = info.pbkdf2Iterations ∧ info.pbkdf2Iterations < weakKdfThreshold := by
  unfold auditInfo
  cases info.conversionStatus with
  | none =>
      by_cases hweak : info.pbkdf2Iterations < weakKdfThreshold <;>
        simp [hweak, Anomaly.new_inj]
  | some status =>
      by_cases hweak : info.pbkdf2Iterations < weakKdfThreshold <;>
        simp [hweak, Anomaly.new_inj]

/-- Extraction gives the key material of this user, and with it the parameters that the report
shows and the audit judges. -/
def ReportsUser {crates : Crates} (metadata : Bytes) (u : CryptoUser crates) : Prop :=
  ∃ context, EncryptionContext.extract crates metadata = .ok context ∧
    context.salt = u.salt ∧ context.iterations = u.iterations ∧
    context.wrappedKek = u.wrappedKek ∧
    ∀ header lv size,
      let info := buildInfo crates header context lv size
      info.pbkdf2Iterations = u.iterations ∧ info.pbkdf2Salt = u.salt ∧
        ∀ iterations, .new (.weakKdfIterations iterations) ∈ auditInfo info ↔
          iterations = u.iterations ∧ u.iterations < weakKdfThreshold

/-- The struct wraps this key under the passphrase of its user, and under a wrong one the check
of the unwrapping fails. -/
structure CryptoUser.Wraps {crates : Crates} (u : CryptoUser crates) (kek : ByteArr 16) : Prop where
  wraps : u.wrappedKek = crates.kwWrap (u.passphraseKey u.passphrase) kek
  checks : ∀ password, u.passphraseKey password ≠ u.passphraseKey u.passphrase →
    crates.kwUnwrap (u.passphraseKey password) u.wrappedKek = none

/-! ## Two users -/

/-- The two keys that the samples wrap. -/
def sampleKek : ByteArr 16 := ByteArr.fill 16 0x10

def sampleVmk : ByteArr 16 := ByteArr.fill 16 0x20

/-- Markup between the elements. -/
def ContextItem.markup (text : String)
    (h : clashesEverywhere [0x3c, 0x6b] (asBytes text) = true) : ContextItem :=
  .text (asBytes text) fun _ => avoidsKey_markup h

section

variable {crates : Crates} (lawful : crates.Lawful)

/-- A blob in base64 without a break. -/
def dataElement (key : ElementKey) (attributes : String) (blob : Bytes)
    (h : 0x3c ∉ asBytes attributes ∧ 0x3e ∉ asBytes attributes) : ContextItem :=
  .element {
    key, space := [], attributes := asBytes attributes, text := crates.base64Encode blob
    space_clean := by simp, attributes_clean := h, text_clean := not_mem_base64 lawful blob }

/-- The wrapped volume key of the samples. -/
def sampleVolumeKey (crates : Crates) : Bytes :=
  Fixture.kekWrappedStruct (crates.kwWrap sampleKek sampleVmk)

/-- The struct of a user, which wraps the key under the passphrase. -/
def sampleStruct (crates : Crates) (passphrase : String) (salt : ByteArr 16)
    (iterations : UInt32) : Bytes :=
  Fixture.passphraseStruct salt
    (crates.kwWrap (passphraseKey crates passphrase salt iterations) sampleKek) iterations

theorem aesXts_clean : 0x3c ∉ asBytes "AES-XTS" := by decide

theorem volumeKeyAttributes_clean : 0x3c ∉ asBytes "\"7\"" ∧ 0x3e ∉ asBytes "\"7\"" := by decide

/-- The dict of a user as the image builder writes it: the struct, the user type, and the volume
key behind its algorithm. -/
def sampleItems (struct typeText : Bytes) (clean : 0x3c ∉ typeText) : List ContextItem := [
  .markup "<dict ID=\"3\">" (by decide),
  dataElement lawful .passphraseStruct "\"4\"" struct (by decide),
  .element {
    key := .userType, space := [], attributes := asBytes " size=\"32\" ID=\"5\""
    text := typeText, space_clean := by simp, attributes_clean := by decide
    text_clean := clean },
  .element {
    key := .blockAlgorithm, space := [], attributes := asBytes "\"6\"", text := asBytes "AES-XTS"
    space_clean := by simp, attributes_clean := by decide, text_clean := aesXts_clean },
  dataElement lawful .volumeKey "\"7\"" (sampleVolumeKey crates) volumeKeyAttributes_clean,
  .markup "</dict>" (by decide)]

/-- A user with such a dict. -/
def CryptoUser.wrapping (passphrase : String) (userType : UInt32) (typeText : Bytes)
    (salt : ByteArr 16) (iterations : UInt32) (clean : 0x3c ∉ typeText)
    (spelled : unsignedOf (2 ^ 32) typeText = some userType.toNat) : CryptoUser crates where
  passphrase := passphrase
  userType := userType
  struct := sampleStruct crates passphrase salt iterations
  items := sampleItems lawful (sampleStruct crates passphrase salt iterations) typeText clean
  structText := crates.base64Encode (sampleStruct crates passphrase salt iterations)
  typeText := typeText
  one_struct := rfl
  one_type := rfl
  struct_decodes := by
    refine decodeBlob_spaced lawful (filter_base64 lawful _) ?_
    rw [lawful.encode_length, sampleStruct, Fixture.passphraseStruct_length]
    decide
  struct_long := by
    rw [sampleStruct, Fixture.passphraseStruct_length]
    decide
  type_spelled := spelled

theorem CryptoUser.wrapping_fields (passphrase : String) (userType : UInt32) (typeText : Bytes)
    (salt : ByteArr 16) (iterations : UInt32) (clean : 0x3c ∉ typeText)
    (spelled : unsignedOf (2 ^ 32) typeText = some userType.toNat) :
    (wrapping lawful passphrase userType typeText salt iterations clean spelled).salt = salt ∧
    (wrapping lawful passphrase userType typeText salt iterations clean spelled).iterations =
      iterations ∧
    (wrapping lawful passphrase userType typeText salt iterations clean spelled).wrappedKek =
      crates.kwWrap (FileVault.passphraseKey crates passphrase salt iterations) sampleKek := by
  obtain ⟨hsalt, hkek, hiterations⟩ :=
    (wrapping lawful passphrase userType typeText salt iterations clean spelled).struct_fields
  obtain ⟨hsalt', hkek', hiterations'⟩ := Fixture.passphraseStruct_fields salt
    (crates.kwWrap (FileVault.passphraseKey crates passphrase salt iterations) sampleKek)
    iterations
  exact ⟨Option.some.inj (hsalt.symm.trans hsalt'),
    Option.some.inj (hiterations.symm.trans hiterations'),
    Option.some.inj (hkek.symm.trans hkek')⟩

theorem CryptoUser.wrapping_passphraseKey (passphrase : String) (userType : UInt32)
    (typeText : Bytes) (salt : ByteArr 16) (iterations : UInt32) (clean : 0x3c ∉ typeText)
    (spelled : unsignedOf (2 ^ 32) typeText = some userType.toNat) (password : String) :
    (wrapping lawful passphrase userType typeText salt iterations clean spelled).passphraseKey
      password = FileVault.passphraseKey crates password salt iterations := by
  obtain ⟨hsalt, hiterations, -⟩ :=
    wrapping_fields lawful passphrase userType typeText salt iterations clean spelled
  rw [passphraseKey, hsalt, hiterations]
  rfl

/-- The key is wrapped under the passphrase. -/
theorem CryptoUser.wrapping_wrappedKek (passphrase : String) (userType : UInt32)
    (typeText : Bytes) (salt : ByteArr 16) (iterations : UInt32) (clean : 0x3c ∉ typeText)
    (spelled : unsignedOf (2 ^ 32) typeText = some userType.toNat) :
    (wrapping lawful passphrase userType typeText salt iterations clean spelled).wrappedKek =
      crates.kwWrap
        ((wrapping lawful passphrase userType typeText salt iterations clean spelled).passphraseKey
          passphrase) sampleKek := by
  rw [wrapping_passphraseKey, (wrapping_fields ..).2.2]

/-- A recovery user and a password user. -/
def recoveryUser : CryptoUser crates :=
  .wrapping lawful "recovery-key" 0x10000009 (asBytes "0x10000009") (ByteArr.fill 16 0xab) 1
    (by decide) (by decide +kernel)

def passwordUser : CryptoUser crates :=
  .wrapping lawful "own-password" 0x10000001 (asBytes "0x10000001") (ByteArr.fill 16 0xcd) 1
    (by decide) (by decide +kernel)

variable (fits : Fixture.synthetic.Fits crates)

theorem ElementKey.plain (key : ElementKey) : Fixture.PlainKey key.name := by
  cases key <;> exact ⟨by decide, by decide, by decide⟩

theorem avoidsKey_synthetic (lawful : crates.Lawful) (fits : Fixture.synthetic.Fits crates)
    (key : ElementKey) :
    AvoidsKey key.name (Fixture.synthetic.volumeBlocks crates) := by
  refine Fixture.avoidsKey_volumeBlocks lawful fits key.plain ?_
  cases key <;> simp [Fixture.pieces, ElementKey.name]

/-- The metadata of the synthetic image, but for the users. -/
def sampleFrame : ContextFrame where
  lead := [
    .text (blockHead 0x0013) fun key => avoidsKey_blockHead key.name (by decide),
    .markup "<dict ID=\"0\">" (by decide),
    .text (keyElement "CryptoUsers") fun key =>
      avoidsKey_keyElement (by cases key <;> decide) key.name_clean (by decide),
    .markup "<array ID=\"2\">" (by decide)]
  trail := [
    .markup "</array></dict>" (by decide),
    .text (List.replicate 2012 0) fun key => avoidsKey_zeros key.name 2012,
    .text (Fixture.synthetic.volumeBlocks crates) (avoidsKey_synthetic lawful fits)]
  lead_structless := rfl

/-- The volume key is that of the first user. -/
theorem sampleFrame_holdsVolumeKey {users : List (CryptoUser crates)}
    (h : ∀ u ∈ users, ∃ struct typeText clean, u.items = sampleItems lawful struct typeText clean)
    (hne : users ≠ []) :
    (sampleFrame lawful fits).HoldsVolumeKey users (crates.kwWrap sampleKek sampleVmk) := by
  obtain ⟨first, rest, rfl⟩ := List.exists_cons_of_ne_nil hne
  obtain ⟨struct, typeText, clean, hitems⟩ := h first List.mem_cons_self
  refine ⟨crates.base64Encode (sampleVolumeKey crates), sampleVolumeKey crates, ?_, ?_, ?_, ?_⟩
  · rw [ContextFrame.items, List.flatMap_cons, hitems]
    rfl
  · refine decodeBlob_spaced lawful (filter_base64 lawful _) ?_
    rw [lawful.encode_length, sampleVolumeKey, Fixture.kekWrappedStruct_length]
    decide
  · rw [sampleVolumeKey, Fixture.kekWrappedStruct_length]
    decide
  · exact slice_filled (Fixture.kekWrites_fit _) (by simp [kekWrappedVmkOffset])
      (crates.kwWrap sampleKek sampleVmk).property

theorem sampleItems_length {struct typeText : Bytes} (clean : 0x3c ∉ typeText)
    (hstruct : struct.length = 284) (htype : typeText.length = 10) :
    (renderItems (sampleItems lawful struct typeText clean)).length = 978 := by
  simp only [renderItems, sampleItems, List.flatMap_cons, List.flatMap_nil, ContextItem.render,
    ContextItem.markup, dataElement, ContextElement.render, List.length_append,
    lawful.encode_length, sampleVolumeKey, Fixture.kekWrappedStruct_length, hstruct, htype]
  decide +kernel

/-- In every order the metadata has the length of that of the synthetic image. -/
theorem sampleFrame_length {users : List (CryptoUser crates)}
    (moved : users.Perm [recoveryUser lawful, passwordUser lawful]) :
    ((sampleFrame lawful fits).render users).length = 16384 := by
  have recovery : (renderItems (recoveryUser lawful).items).length = 978 :=
    sampleItems_length lawful _ (Fixture.passphraseStruct_length ..) (by decide)
  have password : (renderItems (passwordUser lawful).items).length = 978 :=
    sampleItems_length lawful _ (Fixture.passphraseStruct_length ..) (by decide)
  have blocks : 4096 + (Fixture.synthetic.volumeBlocks crates).length = 16384 :=
    Fixture.volumeBlocks_length fits
  have head : (renderItems (sampleFrame lawful fits).lead).length = 113 := rfl
  have tail : (renderItems (sampleFrame lawful fits).trail).length =
      2027 + (Fixture.synthetic.volumeBlocks crates).length := by
    simp only [renderItems, sampleFrame, List.flatMap_cons, List.flatMap_nil, ContextItem.render,
      ContextItem.markup, List.length_append, List.length_replicate, List.length_nil]
    rw [show (asBytes "</array></dict>").length = 15 by decide]
    omega
  rw [ContextFrame.render_length_perm moved, ContextFrame.render, ContextFrame.items,
    renderItems_append, renderItems_append, List.length_append, List.length_append, head, tail]
  simp only [List.flatMap_cons, List.flatMap_nil, renderItems_append, List.length_append, recovery,
    password, List.append_nil]
  omega

theorem samples_short {users : List (CryptoUser crates)}
    (moved : users.Perm [recoveryUser lawful, passwordUser lawful]) :
    ((sampleFrame lawful fits).render users).length < usizeSize := by
  rw [sampleFrame_length lawful fits moved]
  decide

theorem samples_items {users : List (CryptoUser crates)}
    (moved : users.Perm [recoveryUser lawful, passwordUser lawful]) :
    ∀ u ∈ users, ∃ struct typeText clean, u.items = sampleItems lawful struct typeText clean := by
  intro u hu
  have hmem := moved.mem_iff.mp hu
  simp only [List.mem_cons, List.not_mem_nil, or_false] at hmem
  rcases hmem with rfl | rfl
  · exact ⟨_, _, _, rfl⟩
  · exact ⟨_, _, _, rfl⟩

end

/-! ## The password user -/

section

variable {crates : Crates} {frame : ContextFrame} {users : List (CryptoUser crates)}

/-- Extraction reports a user exactly when the first user has the same key material. -/
theorem reportsUser_iff_first {first : CryptoUser crates} (u : CryptoUser crates)
    {wrappedVmk : ByteArr 24} (hfirst : users.head? = some first)
    (hlen : (frame.render users).length < usizeSize)
    (hvmk : frame.HoldsVolumeKey users wrappedVmk) :
    ReportsUser (frame.render users) u ↔
      first.salt = u.salt ∧ first.iterations = u.iterations ∧ first.wrappedKek = u.wrappedKek := by
  unfold ReportsUser
  rw [ContextFrame.extract_render hfirst hlen hvmk]
  constructor
  · rintro ⟨context, hcontext, hsalt, hiterations, hkek, -⟩
    obtain rfl := Except.ok.inj hcontext
    exact ⟨hsalt, hiterations, hkek⟩
  · rintro ⟨hsalt, hiterations, hkek⟩
    refine ⟨_, rfl, hsalt, hiterations, hkek, ?_⟩
    intro header lv size
    refine ⟨hiterations, hsalt, ?_⟩
    intro iterations
    rw [weakKdf_mem_auditInfo, ← hiterations]
    rfl

end

/-- In a context with one password user, extraction reports that user exactly when the
first user of the list, whatever its type, has the same salt, iteration count and
wrapped KEK. -/
theorem extract_reportsPasswordUser_iff {crates : Crates} (frame : ContextFrame)
    (users : List (CryptoUser crates)) (u : CryptoUser crates) {wrappedVmk : ByteArr 24}
    (hlen : (frame.render users).length < usizeSize)
    (hvmk : frame.HoldsVolumeKey users wrappedVmk)
    (hpassword : users.filter (·.userType = passwordUserType) = [u]) :
    ReportsUser (frame.render users) u ↔
      ∃ first, users.head? = some first ∧ first.salt = u.salt ∧
        first.iterations = u.iterations ∧ first.wrappedKek = u.wrappedKek := by
  have hmem : u ∈ users := by
    have : u ∈ users.filter (·.userType = passwordUserType) := by rw [hpassword]; simp
    exact (List.mem_filter.mp this).1
  obtain ⟨first, hfirst⟩ : ∃ first, users.head? = some first :=
    Option.isSome_iff_exists.mp (List.isSome_head?.mpr (List.ne_nil_of_mem hmem))
  rw [reportsUser_iff_first u hfirst hlen hvmk]
  constructor
  · exact fun same => ⟨first, hfirst, same⟩
  · rintro ⟨first', hfirst', same⟩
    rw [hfirst, Option.some.injEq] at hfirst'
    exact hfirst' ▸ same

/-- A password user in front of a recovery user is the one reported. -/
theorem extract_reportsPasswordUser_front :
    let frame := sampleFrame standardCrates_lawful Fixture.synthetic_fits
    let password := passwordUser standardCrates_lawful
    let users := [password, recoveryUser standardCrates_lawful]
    ReportsUser (frame.render users) password ↔
      ∃ first, users.head? = some first ∧ first.salt = password.salt ∧
        first.iterations = password.iterations ∧ first.wrappedKek = password.wrappedKek :=
  extract_reportsPasswordUser_iff _ _ _ (samples_short _ _ (.swap ..))
    (sampleFrame_holdsVolumeKey _ _ (samples_items _ (.swap ..)) (by simp)) rfl

/-- Behind a recovery user the password user is not reported. -/
theorem recoveryUser_reported_instead :
    let frame := sampleFrame standardCrates_lawful Fixture.synthetic_fits
    let password := passwordUser standardCrates_lawful
    let users := [recoveryUser standardCrates_lawful, password]
    users.filter (·.userType = passwordUserType) = [password] ∧
      ¬ ReportsUser (frame.render users) password := by
  intro frame password users
  refine ⟨rfl, ?_⟩
  rw [reportsUser_iff_first password (show users.head? = some (recoveryUser _) from rfl)
    (samples_short _ _ (.refl _))
    (sampleFrame_holdsVolumeKey _ _ (samples_items _ (.refl _)) (by simp [users]))]
  rintro ⟨hsalt, -, -⟩
  have recovery : (recoveryUser standardCrates_lawful).salt = ByteArr.fill 16 0xab :=
    (CryptoUser.wrapping_fields ..).1
  have own : password.salt = ByteArr.fill 16 0xcd := (CryptoUser.wrapping_fields ..).1
  rw [recovery, own] at hsalt
  exact absurd (congrArg Subtype.val hsalt) (by decide)

/-! ## Unlocking with any of the passphrases -/

section

variable {crates : Crates}

/-- The password is stretched to the same key as the passphrase of the user. -/
def CryptoUser.Accepts (u : CryptoUser crates) (password : String) : Prop :=
  u.passphraseKey password = u.passphraseKey u.passphrase

/-- A device that holds a context with these users, and a volume of this family. -/
structure HoldsContext (frame : ContextFrame) (users : List (CryptoUser crates))
    (wrappedVmk : ByteArr 24) (family : ByteArr 16) (device : Reader) : Prop where
  healthy : device.Healthy
  loads : ∃ header, loadMetadata crates device.data = .ok (header, frame.render users)
  volumeKey : frame.HoldsVolumeKey users wrappedVmk
  family_named : ∃ text,
    extractString (frame.render users) "com.apple.corestorage.lv.familyUUID" = some text ∧
      crates.uuidParseStr text = some family

/-- The keys that a password unlocks a device with, if it does. -/
def unlockedKeys (crates : Crates) (device : Reader) (password : String) : Option VolumeKeys :=
  (unlockWithPassword crates device password).toOption.map (·.decrypted.keys)

/-- Every user's passphrase unlocks the volume, with the same keys, and the order of the users
changes nothing for any password. -/
structure EveryProtectorUnlocks (device : List (CryptoUser crates) → Reader)
    (users : List (CryptoUser crates)) (vmk : ByteArr 16) : Prop where
  unlocks : ∃ keys : VolumeKeys, keys.vmk = vmk ∧ ∀ u ∈ users, ∃ vol,
    unlockWithPassword crates (device users) u.passphrase = .ok vol ∧ vol.decrypted.keys = keys
  order : ∀ users', users'.Perm users → ∀ password,
    unlockedKeys crates (device users') password = unlockedKeys crates (device users) password

variable {frame : ContextFrame} {users : List (CryptoUser crates)}

/-- A device unlocks with the keys that the first user's struct opens to. -/
theorem HoldsContext.unlockedKeys_eq {wrappedVmk : ByteArr 24} {family : ByteArr 16}
    {device : Reader} (holds : HoldsContext frame users wrappedVmk family device)
    {first : CryptoUser crates} (hfirst : users.head? = some first) (password : String) :
    unlockedKeys crates device password =
      ((crates.kwUnwrap (first.passphraseKey password) first.wrappedKek).bind
        (crates.kwUnwrap · wrappedVmk)).map
          fun vmk => { vmk, tweakKey := tweakKeyOf crates vmk family } := by
  obtain ⟨header, hload⟩ := holds.loads
  obtain ⟨text, htext, hparse⟩ := holds.family_named
  obtain ⟨reader, -, hunlock⟩ := unlockWithPassword_healthy crates holds.healthy password
  obtain ⟨reader', -, hvolume⟩ := loadVolume_healthy crates holds.healthy
  rw [hload, ok_bind] at hvolume
  have isize := isizeMax_eq
  have usize := usizeSize_eq
  have hlen := loadVolume_length hvolume
  obtain ⟨lv, hlv, hfamily⟩ : ∃ lv, LogicalVolumeInfo.extract (frame.render users) = .ok lv ∧
      lv.familyUuid = text := by
    rw [LogicalVolumeInfo.extract, htext]
    exact ⟨_, rfl, rfl⟩
  have hparsed : parseUuidBytes crates lv.familyUuid = some family := by
    rw [hfamily]
    exact hparse
  rw [unlockedKeys, hunlock, hload, ok_bind]
  simp only [openVolume, ContextFrame.extract_render hfirst (by omega) holds.volumeKey, hlv,
    hparsed, ok_bind, okOr_some, resolveLvExtent_eq header lv hlen]
  unfold deriveVolumeKeys aesKwUnwrap
  simp only
  rw [show passphraseKey crates password first.salt first.iterations =
    first.passphraseKey password from rfl]
  cases crates.kwUnwrap (first.passphraseKey password) first.wrappedKek with
  | none => rfl
  | some kek =>
      simp only [okOr_some, ok_bind, Option.bind_some]
      cases crates.kwUnwrap kek wrappedVmk with
      | none => rfl
      | some vmk => rfl

/-- An image that holds the context unlocks exactly with the passwords that the first user's struct
accepts. -/
theorem HoldsContext.unlockedKeys_wraps (lawful : crates.Lawful) {family kek vmk : ByteArr 16}
    {device : Reader} (holds : HoldsContext frame users (crates.kwWrap kek vmk) family device)
    {first : CryptoUser crates} (hfirst : users.head? = some first) (wraps : first.Wraps kek)
    (password : String) :
    (first.Accepts password → unlockedKeys crates device password =
      some { vmk, tweakKey := tweakKeyOf crates vmk family }) ∧
    (¬ first.Accepts password → unlockedKeys crates device password = none) := by
  rw [holds.unlockedKeys_eq hfirst]
  constructor
  · intro accepts
    rw [CryptoUser.Accepts] at accepts
    rw [accepts, wraps.wraps, lawful.unwrap_wrap, Option.bind_some, lawful.unwrap_wrap,
      Option.map_some]
  · intro refuses
    rw [wraps.checks password refuses, Option.bind_none, Option.map_none]

/-- The keys are unlocked by a run that returns a volume with them. -/
theorem unlockedKeys_eq_some {device : Reader} {password : String} {keys : VolumeKeys} :
    unlockedKeys crates device password = some keys ↔ ∃ vol,
      unlockWithPassword crates device password = .ok vol ∧ vol.decrypted.keys = keys := by
  unfold unlockedKeys
  cases unlockWithPassword crates device password with
  | error stop => simp [Except.toOption]
  | ok vol => simp [Except.toOption]

end

/-- When every user's struct wraps the same KEK, every passphrase unlocks in every order
of the users exactly when the structs accept the same passwords. -/
theorem everyProtectorUnlocks_iff {crates : Crates} (lawful : crates.Lawful)
    (frame : ContextFrame) (users : List (CryptoUser crates))
    (device : List (CryptoUser crates) → Reader) (family kek vmk : ByteArr 16)
    (hne : users ≠ []) (hwraps : ∀ u ∈ users, u.Wraps kek)
    (hdevice : ∀ users', users'.Perm users →
      HoldsContext frame users' (crates.kwWrap kek vmk) family (device users')) :
    EveryProtectorUnlocks device users vmk ↔
      ∀ u ∈ users, ∀ v ∈ users, ∀ password, u.Accepts password ↔ v.Accepts password := by
  obtain ⟨first, hfirst⟩ : ∃ first, users.head? = some first :=
    Option.isSome_iff_exists.mp (List.isSome_head?.mpr hne)
  have hmem : first ∈ users := List.mem_of_head? hfirst
  have opens := (hdevice users (.refl _)).unlockedKeys_wraps lawful hfirst (hwraps first hmem)
  constructor
  · intro every
    -- moving a user to the front must not change what any password unlocks
    have front : ∀ u ∈ users, ∀ password, u.Accepts password ↔ first.Accepts password := by
      intro u hu password
      obtain ⟨before, after, rfl⟩ := List.append_of_mem hu
      have moved : (u :: (before ++ after)).Perm (before ++ u :: after) := List.perm_middle.symm
      have same := every.order _ moved password
      have opens' := (hdevice _ moved).unlockedKeys_wraps lawful rfl (hwraps u hu)
      constructor
      · intro accepts
        by_contra refuses
        rw [(opens' password).1 accepts, (opens password).2 refuses] at same
        cases same
      · intro accepts
        by_contra refuses
        rw [(opens' password).2 refuses, (opens password).1 accepts] at same
        cases same
    intro u hu v hv password
    exact (front u hu password).trans (front v hv password).symm
  · intro alike
    constructor
    · refine ⟨{ vmk, tweakKey := tweakKeyOf crates vmk family }, rfl, ?_⟩
      intro u hu
      have accepts : first.Accepts u.passphrase := (alike first hmem u hu _).mpr rfl
      exact unlockedKeys_eq_some.mp ((opens u.passphrase).1 accepts)
    · intro users' moved password
      obtain ⟨first', hfirst'⟩ : ∃ first', users'.head? = some first' :=
        Option.isSome_iff_exists.mp
          (List.isSome_head?.mpr fun hnil => hne (hnil ▸ moved).symm.eq_nil)
      have hmem' : first' ∈ users := moved.mem_iff.mp (List.mem_of_head? hfirst')
      have opens' := (hdevice users' moved).unlockedKeys_wraps lawful hfirst'
        (hwraps first' hmem')
      by_cases accepts : first.Accepts password
      · rw [(opens password).1 accepts,
          (opens' password).1 ((alike first' hmem' first hmem password).mpr accepts)]
      · rw [(opens password).2 accepts,
          (opens' password).2 fun h => accepts ((alike first' hmem' first hmem password).mp h)]

/-! ## Two users on a device -/

section

variable {crates : Crates}

/-- The synthetic image with this metadata, encrypted under the keys in its header. -/
def syntheticWith (crates : Crates) (metadata : Bytes) : Bytes :=
  withMetadata (Fixture.synthetic.buildImage crates)
    (leftBy (encryptUnits crates metadata Fixture.synthetic.key1 Fixture.synthetic.pvId 8192 0))

theorem loadMetadata_syntheticWith (lawful : crates.Lawful)
    (fits : Fixture.synthetic.Fits crates) {metadata : Bytes} (hlen : metadata.length = 16384) :
    loadMetadata crates (syntheticWith crates metadata) =
      .ok (.ofFields (Fixture.synthetic.buildImage crates), metadata) := by
  obtain ⟨-, -, hkey1, hpvId⟩ := Fixture.ofFields_buildImage fits Fixture.synthetic_placed
  have layout := Fixture.layoutOf_buildImage fits Fixture.synthetic_placed
  have apart : MetadataApart (Fixture.synthetic.buildImage crates) := by
    rw [MetadataApart, layout]
    decide
  obtain ⟨cipher, hencrypt⟩ : ∃ cipher, encryptUnits crates metadata Fixture.synthetic.key1
      Fixture.synthetic.pvId 8192 0 = .ok cipher :=
    ⟨_, encryptUnits_whole (by decide) (show metadata.length = 2 * 8192 from hlen) (by decide)⟩
  have hcipher : cipher.length =
      (layoutOf (Fixture.synthetic.buildImage crates)).length := by
    rw [encryptUnits_length hencrypt, hlen, layout]
    rfl
  have hdecrypt : decryptMetadata crates (.ofFields (Fixture.synthetic.buildImage crates))
      cipher = .ok metadata := by
    rw [decryptMetadata, hkey1, hpvId]
    exact Fixture.decryptUnits_encryptUnits lawful (by decide) (by decide)
      (by rw [hlen]; decide) (by rw [hlen]; decide) hencrypt
  rw [syntheticWith, hencrypt, leftBy_ok, loadMetadata_withMetadata_iff
    (Fixture.accepted_buildImage fits Fixture.synthetic_placed) apart hcipher]
  exact hdecrypt

variable (lawful : crates.Lawful) (fits : Fixture.synthetic.Fits crates)

/-- The device with the two users in this order. -/
def sampleDevice (users : List (CryptoUser crates)) : Reader :=
  .cursor (syntheticWith crates ((sampleFrame lawful fits).render users))

/-- The text in front of the plist of the volume. -/
def sampleFront (users : List (CryptoUser crates)) : Bytes :=
  renderItems ((sampleFrame lawful fits).lead ++ (users.flatMap (·.items) ++
    (sampleFrame lawful fits).trail.take 2)) ++ (blockHead 0x001a ++ asBytes "<dict ID=\"0\">")

theorem sampleFrame_split (users : List (CryptoUser crates)) :
    (sampleFrame lawful fits).render users = sampleFront lawful fits users ++
      (Fixture.synthetic.familyField crates ++ Fixture.synthetic.after crates 8) := by
  have blocks : renderItems [ContextItem.text (Fixture.synthetic.volumeBlocks crates)
      (avoidsKey_synthetic lawful fits)] = (blockHead 0x001a ++ asBytes "<dict ID=\"0\">") ++
        (Fixture.synthetic.familyField crates ++ Fixture.synthetic.after crates 8) := by
    rw [renderItems, List.flatMap_singleton, ContextItem.render, Fixture.volumeBlocks_eq fits]
    rfl
  have items : (sampleFrame lawful fits).items users = ((sampleFrame lawful fits).lead ++
      (users.flatMap (·.items) ++ (sampleFrame lawful fits).trail.take 2)) ++
        [.text (Fixture.synthetic.volumeBlocks crates) (avoidsKey_synthetic lawful fits)] := by
    simp only [ContextFrame.items, List.append_assoc]
    rfl
  rw [ContextFrame.render, items, renderItems_append, blocks, sampleFront]
  simp only [List.append_assoc]

/-- A dict holds no other key than its own. -/
theorem avoidsKey_sampleItems {keyName : String} (hkey : '<' ∉ keyName.toList)
    (other : ∀ key : ElementKey, key.name ≠ keyName) {struct typeText : Bytes}
    (clean : 0x3c ∉ typeText) :
    ∀ item ∈ sampleItems lawful struct typeText clean, AvoidsKey keyName item.render := by
  simp only [sampleItems, List.forall_mem_cons, List.not_mem_nil, false_implies, implies_true,
    and_true]
  refine ⟨avoidsKey_markup (by decide), ?_, ?_, ?_, ?_, avoidsKey_markup (by decide)⟩
  · exact ContextElement.avoidsKey _ (other _) hkey
  · exact ContextElement.avoidsKey _ (other _) hkey
  · exact ContextElement.avoidsKey _ (other _) hkey
  · exact ContextElement.avoidsKey _ (other _) hkey

theorem avoidsKey_sampleFront {users : List (CryptoUser crates)}
    (moved : users.Perm [recoveryUser lawful, passwordUser lawful]) {keyName : String}
    (hkey : '<' ∉ keyName.toList) (other : ∀ key : ElementKey, key.name ≠ keyName)
    (hne : "CryptoUsers" ≠ keyName) : AvoidsKey keyName (sampleFront lawful fits users) := by
  have markup : ∀ text, clashesEverywhere [0x3c, 0x6b] text = true → AvoidsKey keyName text :=
    fun _ h => avoidsKey_markup h
  have block : ∀ blockType : UInt16, 0x3c ∉ leBytes 2 blockType.toNat →
      AvoidsKey keyName (blockHead blockType) := fun _ h => avoidsKey_blockHead _ h
  have lead : ∀ item ∈ (sampleFrame lawful fits).lead, AvoidsKey keyName item.render := by
    simp only [sampleFrame, List.forall_mem_cons, List.not_mem_nil, false_implies, implies_true,
      and_true]
    exact ⟨block _ (by decide), markup _ (by decide), avoidsKey_keyElement hne hkey (by decide),
      markup _ (by decide)⟩
  have dicts : ∀ item ∈ users.flatMap (·.items), AvoidsKey keyName item.render := by
    intro item hitem
    obtain ⟨u, hu, hmem⟩ := List.mem_flatMap.mp hitem
    obtain ⟨struct, typeText, clean, hitems⟩ := samples_items lawful moved u hu
    rw [hitems] at hmem
    exact avoidsKey_sampleItems lawful hkey other clean item hmem
  have trail : ∀ item ∈ (sampleFrame lawful fits).trail.take 2, AvoidsKey keyName item.render := by
    simp only [sampleFrame, List.take_succ_cons, List.take_zero, List.forall_mem_cons,
      List.not_mem_nil, false_implies, implies_true, and_true]
    exact ⟨markup _ (by decide), avoidsKey_zeros _ _⟩
  rw [sampleFront, renderItems_append, renderItems_append]
  exact ((avoidsKey_renderItems lead).append ((avoidsKey_renderItems dicts).append
    (avoidsKey_renderItems trail))).append ((block _ (by decide)).append (markup _ (by decide)))

theorem sampleFrame_family {users : List (CryptoUser crates)}
    (moved : users.Perm [recoveryUser lawful, passwordUser lawful]) :
    extractString ((sampleFrame lawful fits).render users)
        "com.apple.corestorage.lv.familyUUID" =
      some (Fixture.synthetic.familyText crates) := by
  have hlen := samples_short lawful fits moved
  rw [sampleFrame_split] at hlen ⊢
  exact extractString_tagged (avoidsKey_sampleFront lawful fits moved (by decide)
      (by intro key; cases key <;> decide) (by decide)) (by decide)
    (Fixture.familyText_clean Fixture.synthetic lawful) hlen

theorem sampleDevice_holds {users : List (CryptoUser crates)}
    (moved : users.Perm [recoveryUser lawful, passwordUser lawful]) :
    HoldsContext (sampleFrame lawful fits) users (crates.kwWrap sampleKek sampleVmk)
      Fixture.synthetic.family (sampleDevice lawful fits users) where
  healthy := Reader.healthy_cursor _
  loads := ⟨_, loadMetadata_syntheticWith lawful fits (sampleFrame_length lawful fits moved)⟩
  volumeKey := by
    refine sampleFrame_holdsVolumeKey lawful fits (samples_items lawful moved) ?_
    rintro rfl
    exact absurd moved.length_eq (by simp)
  family_named := ⟨_, sampleFrame_family lawful fits moved,
    lawful.parse_hyphenated Fixture.synthetic.family⟩

end

/-- PBKDF2 for the two passphrases: any other password is stretched as that of the recovery user. -/
def knownPassword (password : Bytes) : Bytes :=
  if password = asBytes "own-password" then password else asBytes "recovery-key"

/-- The primitives, for these two passphrases. -/
def sampleCrates : Crates :=
  { standardCrates with
    pbkdf2 := fun password salt rounds =>
      standardCrates.pbkdf2 (knownPassword password) salt rounds }

theorem sampleCrates_lawful : sampleCrates.Lawful where
  decrypt_encrypt := standardCrates_lawful.decrypt_encrypt
  unwrap_wrap := standardCrates_lawful.unwrap_wrap
  decode_encode := standardCrates_lawful.decode_encode
  encode_alphabet := standardCrates_lawful.encode_alphabet
  encode_length := standardCrates_lawful.encode_length
  parse_hyphenated := standardCrates_lawful.parse_hyphenated
  hyphenated_chars := standardCrates_lawful.hyphenated_chars

theorem sampleCrates_fits : Fixture.synthetic.Fits sampleCrates :=
  Fixture.synthetic_fits_of sampleCrates_lawful rfl

/-- A struct that wraps the key under one of the two passphrases, and is shut to the other, is shut
to every password that is not stretched to its own key. -/
theorem sampleCrates_checks {own : String} {salt : ByteArr 16}
    (hown : knownPassword (asBytes own) = asBytes own)
    (shut : ∀ known ∈ ["recovery-key", "own-password"], known ≠ own →
      standardCrates.kwUnwrap (passphraseKey standardCrates known salt 1)
        (standardCrates.kwWrap (passphraseKey standardCrates own salt 1) sampleKek) = none)
    (password : String)
    (wrong : passphraseKey sampleCrates password salt 1 ≠ passphraseKey sampleCrates own salt 1) :
    sampleCrates.kwUnwrap (passphraseKey sampleCrates password salt 1)
      (sampleCrates.kwWrap (passphraseKey sampleCrates own salt 1) sampleKek) = none := by
  have stretched : ∀ password known : String, knownPassword (asBytes password) = asBytes known →
      passphraseKey sampleCrates password salt 1 = passphraseKey standardCrates known salt 1 := by
    intro password known hknown
    show standardCrates.pbkdf2 (knownPassword (asBytes password)) salt _ = _
    rw [hknown]
    rfl
  obtain ⟨known, hmem, hknown⟩ : ∃ known ∈ ["recovery-key", "own-password"],
      knownPassword (asBytes password) = asBytes known := by
    unfold knownPassword
    split
    · next h => exact ⟨_, by simp, h⟩
    · exact ⟨_, by simp, rfl⟩
  rw [stretched password known hknown, stretched own own hown] at wrong ⊢
  refine shut known hmem ?_
  rintro rfl
  exact wrong rfl

/-- The struct of each of the two users is shut to the passphrase of the other. -/
theorem recoveryUser_shut : ∀ known ∈ ["recovery-key", "own-password"], known ≠ "recovery-key" →
    standardCrates.kwUnwrap (passphraseKey standardCrates known (ByteArr.fill 16 0xab) 1)
      (standardCrates.kwWrap
        (passphraseKey standardCrates "recovery-key" (ByteArr.fill 16 0xab) 1) sampleKek) =
      none := by
  decide +kernel

theorem passwordUser_shut : ∀ known ∈ ["recovery-key", "own-password"], known ≠ "own-password" →
    standardCrates.kwUnwrap (passphraseKey standardCrates known (ByteArr.fill 16 0xcd) 1)
      (standardCrates.kwWrap
        (passphraseKey standardCrates "own-password" (ByteArr.fill 16 0xcd) 1) sampleKek) =
      none := by
  decide +kernel

theorem samples_wrap : ∀ u ∈ [recoveryUser sampleCrates_lawful, passwordUser sampleCrates_lawful],
    u.Wraps sampleKek := by
  simp only [List.forall_mem_cons, List.not_mem_nil, false_implies, implies_true, and_true]
  constructor
  · refine ⟨CryptoUser.wrapping_wrappedKek .., ?_⟩
    simp only [recoveryUser, CryptoUser.wrapping_passphraseKey, (CryptoUser.wrapping_fields ..).2.2]
    exact sampleCrates_checks (by decide +kernel) recoveryUser_shut
  · refine ⟨CryptoUser.wrapping_wrappedKek .., ?_⟩
    simp only [passwordUser, CryptoUser.wrapping_passphraseKey, (CryptoUser.wrapping_fields ..).2.2]
    exact sampleCrates_checks (by decide +kernel) passwordUser_shut

/-- The two users, where the check of the unwrapping tells their passphrases apart. -/
theorem everyProtectorUnlocks_two :
    let users := [recoveryUser sampleCrates_lawful, passwordUser sampleCrates_lawful]
    EveryProtectorUnlocks (sampleDevice sampleCrates_lawful sampleCrates_fits) users sampleVmk ↔
      ∀ u ∈ users, ∀ v ∈ users, ∀ password, u.Accepts password ↔ v.Accepts password :=
  everyProtectorUnlocks_iff sampleCrates_lawful
    (sampleFrame sampleCrates_lawful sampleCrates_fits) _ _ Fixture.synthetic.family sampleKek
    sampleVmk (by simp) samples_wrap fun _ moved => sampleDevice_holds _ _ moved

/-- The password does not open the struct of the recovery user, so behind that user it unlocks
nothing. -/
theorem passwordUser_locked_out :
    let users := [recoveryUser standardCrates_lawful, passwordUser standardCrates_lawful]
    let device := sampleDevice standardCrates_lawful Fixture.synthetic_fits
    (∀ u ∈ users, u.wrappedKek =
      standardCrates.kwWrap (u.passphraseKey u.passphrase) sampleKek) ∧
    (∀ users', users'.Perm users →
      HoldsContext (sampleFrame standardCrates_lawful Fixture.synthetic_fits) users'
        (standardCrates.kwWrap sampleKek sampleVmk) Fixture.synthetic.family (device users')) ∧
    unlockedKeys standardCrates (device users) "own-password" = none ∧
    ¬ EveryProtectorUnlocks device users sampleVmk := by
  intro users device
  have holds : ∀ users', users'.Perm users →
      HoldsContext (sampleFrame standardCrates_lawful Fixture.synthetic_fits) users'
        (standardCrates.kwWrap sampleKek sampleVmk) Fixture.synthetic.family (device users') :=
    fun _ moved => sampleDevice_holds standardCrates_lawful Fixture.synthetic_fits moved
  have shut := recoveryUser_shut "own-password" (by simp) (by decide)
  have locked : unlockedKeys standardCrates (device users) "own-password" = none := by
    rw [(holds users (.refl _)).unlockedKeys_eq
      (show users.head? = some (recoveryUser standardCrates_lawful) from rfl)]
    simp only [recoveryUser, CryptoUser.wrapping_passphraseKey,
      (CryptoUser.wrapping_fields ..).2.2, shut, Option.bind_none, Option.map_none]
  refine ⟨?_, holds, locked, ?_⟩
  · simp only [users, List.forall_mem_cons, List.not_mem_nil, false_implies, implies_true,
      and_true]
    exact ⟨CryptoUser.wrapping_wrappedKek .., CryptoUser.wrapping_wrappedKek ..⟩
  · intro every
    obtain ⟨keys, -, unlocks⟩ := every.unlocks
    obtain ⟨vol, hvol, hkeys⟩ := unlocks (passwordUser standardCrates_lawful) (by simp [users])
    have opened : unlockedKeys standardCrates (device users) "own-password" = some keys :=
      unlockedKeys_eq_some.mpr ⟨vol, hvol, hkeys⟩
    rw [locked] at opened
    cases opened

end FileVault
