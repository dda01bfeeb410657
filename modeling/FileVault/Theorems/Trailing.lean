import FileVault.Lib.Settled
import FileVault.Logic.Plist
import FileVault.Theorems.Locality
import FileVault.Theorems.SegmentParse

/-!
# Metadata behind the metadata

The encrypted metadata fills whole blocks and the records in it are found by searching from the
front, so what stands behind them is of no consequence: a volume opens in the same way whatever
follows. Only what the metadata has not said may still be said there.
-/

namespace FileVault

open Lib

/-! ## The scanner -/

theorem settled_findSub (needle : Bytes) : Settled fun haystack => findSub haystack needle := by
  intro haystack i h rest
  obtain ⟨hne, hfirst⟩ := findSub_eq_some h
  simp only
  rw [findSub_of_firstMatch hne]
  exact firstMatch_append hfirst rest

/-- What is done with the bytes from a place on. -/
theorem Lib.Settled.getFrom {β : Type} {f : Bytes → Option β} (hf : Settled f) (start : Nat) :
    Settled fun metadata => (getFrom metadata start).bind f := by
  have same : (fun metadata => (FileVault.getFrom metadata start).bind f) = fun metadata =>
      if start ≤ metadata.length then f (metadata.drop start) else none := by
    funext metadata
    unfold FileVault.getFrom
    split <;> rfl
  rw [same]
  exact hf.drop start

theorem settled_locate (needle : Bytes) (start : Nat) :
    Settled fun metadata => locate metadata needle start :=
  ((settled_findSub needle).bind fun _ => settled_const _).getFrom start

theorem settled_getRange (start stop : Nat) : Settled fun data => getRange data start stop := by
  intro data range h rest
  simp only [getRange] at h ⊢
  split at h
  · next inside =>
      rw [if_pos ⟨inside.1, by rw [List.length_append]; omega⟩, slice_append_left (by omega)]
      exact h
  · cases h

theorem settled_extractTaggedFrom (keyName : String) (openTag closeTag : Bytes) (start : Nat) :
    Settled fun metadata => extractTaggedFrom metadata keyName openTag closeTag start := by
  simp only [extractTaggedFrom_eq]
  apply (settled_locate _ _).bind
  intro keyAt
  apply (settled_const _).bind
  intro afterKey
  apply (settled_locate _ _).bind
  intro openAbs
  apply (settled_locate _ _).bind
  intro gtAbs
  apply (settled_const _).bind
  intro innerStart
  apply (settled_locate _ _).bind
  intro innerEnd
  apply (settled_getRange _ _).bind
  intro inner
  exact settled_const _

theorem settled_extractTagged (keyName : String) (openTag closeTag : Bytes) :
    Settled fun metadata => extractTagged metadata keyName openTag closeTag :=
  (settled_extractTaggedFrom keyName openTag closeTag 0).map _

theorem settled_extractData (crates : Crates) (keyName : String) :
    Settled fun metadata => extractData crates metadata keyName :=
  (settled_extractTagged keyName _ _).bind fun _ => settled_const _

theorem settled_extractString (keyName : String) :
    Settled fun metadata => extractString metadata keyName :=
  (settled_extractTagged keyName _ _).bind fun _ => settled_const _

theorem settled_extractUnsignedFrom (bound : Nat) (keyName : String) (start : Nat) :
    Settled fun metadata => extractUnsignedFrom bound metadata keyName start := by
  simp only [extractUnsignedFrom_eq]
  exact (settled_extractTaggedFrom keyName _ _ start).bind fun _ => settled_const _

theorem settled_extractLvSize : Settled extractLvSize := by
  have same : extractLvSize = fun metadata =>
      (extractU64Integer metadata "com.apple.corestorage.lv.size").map (·.1) := by
    funext metadata
    unfold extractLvSize
    cases extractU64Integer metadata "com.apple.corestorage.lv.size" with
    | none => rfl
    | some found => rfl
  rw [same]
  exact ((settled_extractUnsignedFrom (2 ^ 64) _ 0).map _).map _

/-! ## The loops -/

/-- Every algorithm that the scan passes is there with more behind it. -/
theorem settled_aesXtsFrom (cursor : Nat) : Settled fun metadata => aesXtsFrom metadata cursor := by
  intro metadata found h rest
  simp only at h ⊢
  have again : ∀ cursor algo stop, extractTaggedFrom metadata "BlockAlgorithm"
      (asBytes "<string ID=") (asBytes "</string>") cursor = some (algo, stop) →
      extractTaggedFrom (metadata ++ rest) "BlockAlgorithm" (asBytes "<string ID=")
        (asBytes "</string>") cursor = some (algo, stop) :=
    fun cursor algo stop hsome => settled_extractTaggedFrom _ _ _ cursor _ _ hsome rest
  fun_induction aesXtsFrom metadata cursor with
  | case1 cursor hnone => cases h
  | case2 cursor stop hsome =>
      rw [aesXtsFrom_some (again cursor _ stop hsome), if_pos rfl]
      exact h
  | case3 cursor algo stop hsome hother ih =>
      rw [aesXtsFrom_some (again cursor algo stop hsome), if_neg hother]
      exact ih h

theorem settled_extractKekWrappedAesXts (crates : Crates) :
    Settled fun metadata => extractKekWrappedAesXts crates metadata := by
  simp only [extractKekWrappedAesXts, kekWrappedAesXtsFrom_eq]
  have text : Settled fun metadata => wrappedKeyText metadata 0 :=
    (settled_aesXtsFrom 0).bind fun stop => (settled_extractTagged _ _ _).getFrom stop
  exact text.bind fun _ => settled_const _

/-- The protectors that are found are found first. -/
theorem protectorsFrom_append (metadata rest : Bytes) (room cursor : Nat) :
    protectorsFrom metadata room cursor <+: protectorsFrom (metadata ++ rest) room cursor := by
  induction room generalizing cursor with
  | zero => exact List.prefix_rfl
  | succ room ih =>
      cases hfound : extractIntegerFrom metadata "UserType" cursor with
      | none =>
          rw [protectorsFrom_none hfound]
          exact List.nil_prefix
      | some found =>
          obtain ⟨userType, stop⟩ := found
          have again : extractIntegerFrom (metadata ++ rest) "UserType" cursor =
              some (userType, stop) :=
            ((settled_extractUnsignedFrom (2 ^ 32) "UserType" cursor).map _) _ _ hfound rest
          rw [protectorsFrom_some hfound, protectorsFrom_some again]
          exact List.cons_prefix_cons.mpr ⟨rfl, ih stop⟩

/-! ## The records -/

/-- What a context keeps with more behind it. -/
structure EncryptionContext.Extended (context context' : EncryptionContext) : Prop where
  salt : context'.salt = context.salt
  iterations : context'.iterations = context.iterations
  wrappedKek : context'.wrappedKek = context.wrappedKek
  wrappedVmk : context'.wrappedVmk = context.wrappedVmk
  protectors : context.protectors <+: context'.protectors
  status : context.conversionStatus.isSome = true →
    context'.conversionStatus = context.conversionStatus

/-- What a logical volume keeps with more behind its metadata. -/
structure LogicalVolumeInfo.Extended (lv lv' : LogicalVolumeInfo) : Prop where
  familyUuid : lv'.familyUuid = lv.familyUuid
  identifier : lv.lvIdentifier.isSome = true → lv'.lvIdentifier = lv.lvIdentifier
  name : lv.name.isSome = true → lv'.name = lv.name

theorem okOr_eq_ok {α : Type} {o : Option α} {e : FileVaultError} {a : α} :
    okOr o e = .ok a ↔ o = some a := by
  cases o with
  | none => simp [fail]
  | some b => simp

theorem EncryptionContext.extract_append {crates : Crates} {metadata : Bytes}
    {context : EncryptionContext} (h : extract crates metadata = .ok context) (rest : Bytes) :
    ∃ context', extract crates (metadata ++ rest) = .ok context' ∧ context.Extended context' := by
  unfold EncryptionContext.extract at h ⊢
  simp only [bind_eq_ok, okOr_eq_ok, pure_run, Except.ok.injEq] at h
  obtain ⟨pw, hpw, salt, hsalt, wrappedKek, hkek, iterations, hiterations, vmkStruct, hstruct,
    wrappedVmk, hvmk, rfl⟩ := h
  have hpw' : extractData crates (metadata ++ rest) "PassphraseWrappedKEKStruct" = some pw :=
    settled_extractData crates _ _ _ hpw rest
  have hstruct' : extractKekWrappedAesXts crates (metadata ++ rest) = some vmkStruct :=
    settled_extractKekWrappedAesXts crates _ _ hstruct rest
  simp only [hpw', hstruct', okOr_some, ok_bind, hsalt, hkek, hiterations, hvmk]
  refine ⟨_, rfl, rfl, rfl, rfl, rfl, protectorsFrom_append metadata rest 64 0, ?_⟩
  intro present
  exact (settled_extractString _).eq_of_isSome present rest

theorem LogicalVolumeInfo.extract_append {metadata : Bytes} {lv : LogicalVolumeInfo}
    (h : extract metadata = .ok lv) (rest : Bytes) :
    ∃ lv', extract (metadata ++ rest) = .ok lv' ∧ lv.Extended lv' ∧
      ((extractLvSize metadata).isSome = true → lv'.size = lv.size) := by
  unfold LogicalVolumeInfo.extract at h ⊢
  simp only [bind_eq_ok, okOr_eq_ok, pure_run, Except.ok.injEq] at h
  obtain ⟨familyUuid, hfamily, rfl⟩ := h
  have hfamily' : extractString (metadata ++ rest) "com.apple.corestorage.lv.familyUUID" =
      some familyUuid := settled_extractString _ _ _ hfamily rest
  simp only [hfamily', okOr_some, ok_bind]
  refine ⟨_, rfl, ⟨rfl, ?_, ?_⟩, ?_⟩
  · intro present
    exact (settled_extractString _).eq_of_isSome present rest
  · intro present
    exact (settled_extractString _).eq_of_isSome present rest
  · intro present
    simp only
    rw [settled_extractLvSize.eq_of_isSome present rest]

/-! ## The segment map -/

section

variable {metadata rest : Bytes} {blockSize k : Nat}

theorem fieldAt_append {off width : Nat} (h : off + width ≤ metadata.length) :
    fieldAt width (metadata ++ rest) off = fieldAt width metadata off := by
  apply fieldAt_congr _ h (slice_append_left h)
  rw [List.length_append]
  omega

/-- The block that is found is found first. -/
theorem SegmentBlockAt.append (h : SegmentBlockAt metadata blockSize k) (hsize : 12 ≤ blockSize) :
    SegmentBlockAt (metadata ++ rest) blockSize k := by
  have hinside := h.inside
  have type : ∀ j ≤ k, blockTypeAt (metadata ++ rest) blockSize j =
      blockTypeAt metadata blockSize j := by
    intro j hj
    have hle : (j + 1) * blockSize ≤ (k + 1) * blockSize := Nat.mul_le_mul_right _ (by omega)
    rw [Nat.succ_mul] at hle
    unfold blockTypeAt blockHeaderTypeOffset
    rw [fieldAt_append (by omega)]
  refine ⟨h.block_pos, ?_, ?_, ?_⟩
  · rw [List.length_append]
    omega
  · rw [type k le_rfl]
    exact h.block_type
  · intro j hj
    rw [type j hj.le]
    exact h.first j hj

/-- A map with an entry in it is the map with more behind it as well. -/
theorem segmentsOf_append (h : segmentsOf metadata blockSize ≠ []) :
    segmentsOf (metadata ++ rest) blockSize = segmentsOf metadata blockSize := by
  obtain ⟨k, hk⟩ : ∃ k, SegmentBlockAt metadata blockSize k := by
    by_contra hnone
    exact h (segmentsOf_of_none hnone)
  have hroom : 112 ≤ blockSize := by
    by_contra hsmall
    apply h
    rw [hk.segments, Nat.div_eq_of_lt (by omega), Nat.min_zero]
    rfl
  have hinside := hk.inside
  rw [Nat.succ_mul] at hinside
  rw [(hk.append (by omega)).segments, hk.segments, fieldAt_append (by omega)]
  apply List.map_congr_left
  intro i hi
  rw [List.mem_range] at hi
  unfold entryAt
  rw [fieldAt_append (by omega), fieldAt_append (by omega), fieldAt_append (by omega)]

end

/-! ## The volume -/

/-- What a description keeps with more behind the metadata. -/
structure FileVaultInfo.Extended (info info' : FileVaultInfo) : Prop where
  physicalVolume : info'.physicalVolumeIdentifier = info.physicalVolumeIdentifier
  iterations : info'.pbkdf2Iterations = info.pbkdf2Iterations
  salt : info'.pbkdf2Salt = info.pbkdf2Salt
  familyUuid : info'.familyUuid = info.familyUuid
  identifier : info.lvIdentifier.isSome = true → info'.lvIdentifier = info.lvIdentifier
  name : info.lvName.isSome = true → info'.lvName = info.lvName
  size : info'.lvSize = info.lvSize
  method : info'.encryptionMethod = info.encryptionMethod
  status : info.conversionStatus.isSome = true → info'.conversionStatus = info.conversionStatus
  protectors : info.protectors <+: info'.protectors

/-- Keys come from the fields that are kept. -/
theorem EncryptionContext.Extended.keys {context context' : EncryptionContext}
    (h : context.Extended context') (crates : Crates) (password : String) (family : ByteArr 16) :
    deriveVolumeKeys crates password context' family =
      deriveVolumeKeys crates password context family := by
  unfold deriveVolumeKeys
  rw [h.salt, h.iterations, h.wrappedKek, h.wrappedVmk]

/-- A volume whose metadata has a size and a segment opens in the same way from an image of the
same physical volume that has more metadata behind: with the same keys, over the same bytes; and
its description has everything in it that it had. -/
theorem unlock_trailing {crates : Crates} {reader other reader' other' : Reader}
    {header header' : VolumeHeader} {metadata rest : Bytes} {password : String}
    {vol : FileVaultVolume}
    (load : loadVolume crates reader = .ok (header, metadata, reader'))
    (load' : loadVolume crates other = .ok (header', metadata ++ rest, other'))
    (hblock : header'.blockSize = header.blockSize)
    (hvolume : header'.physicalVolumeIdentifier = header.physicalVolumeIdentifier)
    (sized : (extractLvSize metadata).isSome = true)
    (mapped : segmentsOf metadata header.blockSize.toNat ≠ [])
    (unlocks : unlockWithPassword crates reader password = .ok vol) :
    ∃ vol', unlockWithPassword crates other password = .ok vol' ∧
      vol'.decrypted = { vol.decrypted with reader := other' } ∧ vol.info.Extended vol'.info := by
  rw [unlockWithPassword_eq, load, ok_bind] at unlocks
  rw [unlockWithPassword_eq, load', ok_bind]
  simp only [openVolume, bind_eq_ok, okOr_eq_ok, pure_run, Except.ok.injEq] at unlocks
  obtain ⟨context, hcontext, lv, hlv, family, hfamily, keys, hkeys, ⟨base, size⟩, hextent, rfl⟩ :=
    unlocks
  obtain ⟨context', hcontext', kept⟩ := EncryptionContext.extract_append hcontext rest
  obtain ⟨lv', hlv', keptLv, hsize⟩ := LogicalVolumeInfo.extract_append hlv rest
  -- the extent comes from the block size, the map and the size
  have extent : resolveLvExtent (metadata ++ rest) header' lv' = .ok (base, size) := by
    rw [resolveLvExtent_eq _ _ (loadVolume_length load), Except.ok.injEq] at hextent
    rw [resolveLvExtent_eq _ _ (loadVolume_length load'), hblock, segmentsOf_append mapped,
      hsize sized, hextent]
  refine ⟨⟨.new other' keys base size, buildInfo crates header' context' lv' size⟩, ?_, rfl, ?_⟩
  · simp only [openVolume]
    rw [hcontext', ok_bind, hlv', ok_bind, keptLv.familyUuid, hfamily, okOr_some, ok_bind,
      kept.keys, hkeys, ok_bind, extent]
    rfl
  · exact ⟨congrArg crates.uuidHyphenated hvolume, kept.iterations, kept.salt, keptLv.familyUuid,
      keptLv.identifier, keptLv.name, rfl, rfl, kept.status, kept.protectors⟩

/-! ## Two blocks more -/

theorem loadVolume_buildImage {crates : Crates} {p : Fixture} (lawful : crates.Lawful)
    (fits : p.Fits crates) (placed : p.Placed) :
    ∃ reader', loadVolume crates (.cursor (p.buildImage crates)) =
      .ok (.ofFields (p.buildImage crates), p.buildDecryptedMetadata crates, reader') := by
  obtain ⟨reader', -, hload⟩ :=
    loadVolume_healthy crates (Reader.healthy_cursor (p.buildImage crates))
  refine ⟨reader', ?_⟩
  rw [hload, show (Reader.cursor (p.buildImage crates)).data = p.buildImage crates from rfl,
    Fixture.loadMetadata_buildImage lawful fits placed]
  rfl

/-- The test image, with two more blocks of metadata. -/
def longerFixture : Fixture := { Fixture.synthetic with metadataBlocks := 6 }

theorem longerFixture_plists :
    longerFixture.contextPlist standardCrates = Fixture.synthetic.contextPlist standardCrates ∧
      longerFixture.lvPlist standardCrates = Fixture.synthetic.lvPlist standardCrates :=
  ⟨rfl, rfl⟩

theorem longerFixture_fits : longerFixture.Fits standardCrates where
  context_fits := by
    rw [longerFixture_plists.1]
    exact Fixture.synthetic_fits.context_fits
  lv_fits := by
    rw [longerFixture_plists.2]
    exact Fixture.synthetic_fits.lv_fits
  segment_fits := by decide
  status_clean := by decide
  name_clean := by decide
  identifier_clean := by decide
  blocks_min := by decide
  blocks_max := by decide

theorem longerFixture_placed : longerFixture.Placed :=
  { Fixture.synthetic_placed with
    metadata_inside := by decide
    metadata_region := by decide
    metadata_units := by decide
    lv_apart := .inr (by
      have hlen : longerFixture.lvPlain.length = 16384 := by
        simp [longerFixture, Fixture.synthetic]
      rw [hlen]
      decide) }

theorem longerFixture_metadata :
    longerFixture.buildDecryptedMetadata standardCrates =
      Fixture.synthetic.buildDecryptedMetadata standardCrates ++ List.replicate 8192 0 := by
  unfold Fixture.buildDecryptedMetadata
  rw [List.append_assoc, List.append_assoc, List.append_assoc, List.replicate_append_replicate]
  rfl

theorem unlock_trailing_longer :
    ∃ vol vol' other', unlockWithPassword standardCrates syntheticReader
        Fixture.synthetic.password = .ok vol ∧
      unlockWithPassword standardCrates (.cursor (longerFixture.buildImage standardCrates))
        Fixture.synthetic.password = .ok vol' ∧
      vol'.decrypted = { vol.decrypted with reader := other' } ∧ vol.info.Extended vol'.info := by
  have fits := Fixture.synthetic_fits
  have placed := Fixture.synthetic_placed
  obtain ⟨reader', load⟩ := loadVolume_buildImage standardCrates_lawful fits placed
  obtain ⟨other', load'⟩ :=
    loadVolume_buildImage standardCrates_lawful longerFixture_fits longerFixture_placed
  rw [longerFixture_metadata] at load'
  obtain ⟨block, -, -, volume⟩ := Fixture.ofFields_buildImage fits placed
  obtain ⟨block', -, -, volume'⟩ :=
    Fixture.ofFields_buildImage longerFixture_fits longerFixture_placed
  obtain ⟨_, -, unlocks⟩ := Fixture.unlock_buildImage standardCrates_lawful fits placed (by decide)
    (by decide) (Reader.healthy_cursor _) rfl
  obtain ⟨vol', unlocks', same, extended⟩ := unlock_trailing load load'
    (by rw [block, block']; rfl) (by rw [volume, volume']; rfl)
    (by rw [Fixture.extractLvSize_fixture standardCrates_lawful fits]; rfl)
    (by rw [block, Fixture.segmentsOf_fixture fits]; exact List.cons_ne_nil _ _) unlocks
  exact ⟨_, vol', other', unlocks, unlocks', same, extended⟩

end FileVault
