import FileVault.Logic.Layout
import FileVault.Logic.TestSupport

/-!
# Reading back what the builder wrote

For every choice of parameters that fits, the image is accepted, its metadata
decrypts to what the builder encrypted, and every value that is extracted from
it is the builder's.
-/

namespace FileVault

open Lib

/-! ## The decrypted metadata -/

/-- The header of a metadata block. -/
def blockHead (blockType : UInt16) : Bytes :=
  List.replicate 10 0 ++ (leBytes 2 blockType.toNat ++ List.replicate 52 0)

@[simp] theorem blockHead_length (blockType : UInt16) : (blockHead blockType).length = 64 := by
  simp [blockHead]

/-- A block is its header, its payload and the padding. -/
theorem metadataBlockOf_eq {blockSize : Nat} {blockType : UInt16} {payload : Bytes}
    (h : 64 + payload.length ≤ blockSize) :
    metadataBlockOf blockSize blockType payload =
      blockHead blockType ++
        (payload ++ List.replicate (blockSize - (64 + payload.length)) 0) := by
  unfold metadataBlockOf filled blockWrites
  rw [writeAll_cons, writeAll_cons, writeAll_nil,
    splice_splice_blank (by rw [leBytes_length]; omega) h, leBytes_length]
  simp only [blockHead, List.append_assoc, Nat.reduceAdd, Nat.reduceSub]

theorem metadataBlockOf_length {blockSize : Nat} (blockType : UInt16) {payload : Bytes}
    (h : 64 + payload.length ≤ blockSize) :
    (metadataBlockOf blockSize blockType payload).length = blockSize := by
  rw [metadataBlockOf_eq h]
  simp
  omega

/-- A block header and zeros hold no key element. -/
theorem avoidsKey_blockHead (keyName : String) {blockType : UInt16}
    (h : 0x3c ∉ leBytes 2 blockType.toNat) : AvoidsKey keyName (blockHead blockType) := by
  apply avoidsKey_of_not_mem
  simp only [blockHead, List.mem_append, List.mem_replicate, not_or]
  exact ⟨by decide, h, by decide⟩

theorem avoidsKey_zeros (keyName : String) (n : Nat) :
    AvoidsKey keyName (List.replicate n 0) := by
  apply avoidsKey_of_not_mem
  simp only [List.mem_replicate]
  exact fun h => absurd h.2 (by decide)

namespace Fixture

section

variable {crates : Crates} (p : Fixture)

theorem familyText_clean (lawful : crates.Lawful) : '<' ∉ (p.familyText crates).toList :=
  fun hmem => absurd (lawful.hyphenated_chars p.family '<' hmem) (by decide)

theorem sizeText_toList : p.sizeText.toList = '0' :: 'x' :: lowerHex p.lvSize.toNat :=
  String.toList_ofList

theorem sizeText_clean : '<' ∉ p.sizeText.toList := by
  rw [sizeText_toList]
  simp only [List.mem_cons, not_or]
  refine ⟨by decide, by decide, ?_⟩
  intro hmem
  obtain ⟨d, hd, hc⟩ := mem_lowerHex hmem
  exact (hexDigit_spec d hd).2.2.2 hc.symm

/-! No field holds the key element of another. -/

variable {p} {keyName : String}

theorem avoidsKey_passphraseField (lawful : crates.Lawful)
    (hne : "PassphraseWrappedKEKStruct" ≠ keyName) (hkey : '<' ∉ keyName.toList) :
    AvoidsKey keyName (p.passphraseField crates) :=
  avoidsKey_tagged hne hkey (by decide) (by decide) (not_mem_base64 lawful _) (by decide)

theorem avoidsKey_userTypeField (hne : "UserType" ≠ keyName) (hkey : '<' ∉ keyName.toList) :
    AvoidsKey keyName userTypeField :=
  avoidsKey_tagged hne hkey (by decide) (by decide) (by decide) (by decide)

theorem avoidsKey_algorithmField (hne : "BlockAlgorithm" ≠ keyName)
    (hkey : '<' ∉ keyName.toList) : AvoidsKey keyName algorithmField :=
  avoidsKey_tagged hne hkey (by decide) (by decide) (by decide) (by decide)

theorem avoidsKey_kekField (lawful : crates.Lawful)
    (hne : "KEKWrappedVolumeKeyStruct" ≠ keyName) (hkey : '<' ∉ keyName.toList) :
    AvoidsKey keyName (p.kekField crates) :=
  avoidsKey_tagged hne hkey (by decide) (by decide) (not_mem_base64 lawful _) (by decide)

theorem avoidsKey_statusField (hstatus : '<' ∉ p.status.toList)
    (hne : "ConversionStatus" ≠ keyName) (hkey : '<' ∉ keyName.toList) :
    AvoidsKey keyName p.statusField :=
  avoidsKey_tagged hne hkey (by decide) (by decide) (not_mem_asBytes hstatus) (by decide)

theorem avoidsKey_familyField (lawful : crates.Lawful)
    (hne : "com.apple.corestorage.lv.familyUUID" ≠ keyName) (hkey : '<' ∉ keyName.toList) :
    AvoidsKey keyName (p.familyField crates) :=
  avoidsKey_tagged hne hkey (by decide) (by decide)
    (not_mem_asBytes (familyText_clean p lawful)) (by decide)

theorem avoidsKey_nameField (hname : '<' ∉ p.lvName.toList)
    (hne : "com.apple.corestorage.lv.name" ≠ keyName) (hkey : '<' ∉ keyName.toList) :
    AvoidsKey keyName p.nameField :=
  avoidsKey_tagged hne hkey (by decide) (by decide) (not_mem_asBytes hname) (by decide)

theorem avoidsKey_identifierField (hidentifier : '<' ∉ p.lvIdentifier.toList)
    (hne : "com.apple.corestorage.lv.uuid" ≠ keyName) (hkey : '<' ∉ keyName.toList) :
    AvoidsKey keyName p.identifierField :=
  avoidsKey_tagged hne hkey (by decide) (by decide) (not_mem_asBytes hidentifier) (by decide)

theorem avoidsKey_sizeField (hne : "com.apple.corestorage.lv.size" ≠ keyName)
    (hkey : '<' ∉ keyName.toList) : AvoidsKey keyName p.sizeField :=
  avoidsKey_tagged hne hkey (by decide) (by decide) (not_mem_asBytes (sizeText_clean p))
    (by decide)

end

/-! ## The metadata as a sequence of pieces -/

/-- The two property lists fit in their blocks, the texts in them hold no markup,
and there are blocks enough, but not too many. -/
structure Fits (crates : Crates) (p : Fixture) : Prop where
  context_fits : 64 + (p.contextPlist crates).length ≤ p.blockSize.toNat
  lv_fits : 64 + (p.lvPlist crates).length ≤ p.blockSize.toNat
  segment_fits : 64 + 48 < p.blockSize.toNat
  status_clean : '<' ∉ p.status.toList
  name_clean : '<' ∉ p.lvName.toList
  identifier_clean : '<' ∉ p.lvIdentifier.toList
  blocks_min : 3 ≤ p.metadataBlocks
  blocks_max : p.metadataBlocks ≤ 2 ^ 20

section

variable (crates : Crates) (p : Fixture)

/-- The zeros behind a payload of this length. -/
def padding (length : Nat) : Bytes := List.replicate (p.blockSize.toNat - (64 + length)) 0

/-- Everything from the segment block on. -/
def segmentTail : Bytes :=
  blockHead 0x0305 ++ (p.segmentPayload ++ (p.padding p.segmentPayload.length ++
    List.replicate ((p.metadataBlocks - 3) * p.blockSize.toNat) 0))

/-- The metadata piece by piece, each with the key that stands in it. -/
def pieces : List (Option String × Bytes) := [
  (some "CryptoUsers", blockHead 0x0013 ++ (asBytes "<dict ID=\"0\">" ++
    (keyElement "CryptoUsers" ++ asBytes "<array ID=\"2\"><dict ID=\"3\">"))),
  (some "PassphraseWrappedKEKStruct", p.passphraseField crates),
  (some "UserType", userTypeField),
  (some "BlockAlgorithm", algorithmField),
  (some "KEKWrappedVolumeKeyStruct", p.kekField crates),
  (none, asBytes "</dict></array>"),
  (some "ConversionStatus", p.statusField),
  (none, asBytes "</dict>" ++ (p.padding (p.contextPlist crates).length ++
    (blockHead 0x001a ++ asBytes "<dict ID=\"0\">"))),
  (some "com.apple.corestorage.lv.familyUUID", p.familyField crates),
  (some "com.apple.corestorage.lv.name", p.nameField),
  (some "com.apple.corestorage.lv.uuid", p.identifierField),
  (some "com.apple.corestorage.lv.size", p.sizeField),
  (none, asBytes "</dict>" ++ (p.padding (p.lvPlist crates).length ++ p.segmentTail))]

/-- The text before piece `i`, and the text after it. -/
def before (i : Nat) : Bytes := (((p.pieces crates).take i).map (·.2)).flatten

def after (i : Nat) : Bytes := (((p.pieces crates).drop (i + 1)).map (·.2)).flatten

end

theorem segmentWrites_fit (p : Fixture) : FitIn 48 p.segmentWrites := by
  constructor
  · simp [segmentWrites]
  · simp [segmentWrites, Apart]

theorem segmentPayload_length (p : Fixture) : p.segmentPayload.length = 48 :=
  filled_length p.segmentWrites_fit

section

variable {crates : Crates} {p : Fixture}

/-- The metadata is the concatenation of its pieces. -/
theorem buildDecryptedMetadata_eq (fits : p.Fits crates) :
    p.buildDecryptedMetadata crates = ((p.pieces crates).map (·.2)).flatten := by
  have segment := fits.segment_fits
  unfold buildDecryptedMetadata
  rw [metadataBlockOf_eq fits.context_fits, metadataBlockOf_eq fits.lv_fits,
    metadataBlockOf_eq (by rw [segmentPayload_length]; omega)]
  simp only [pieces, segmentTail, padding, List.map_cons, List.map_nil, List.flatten_cons,
    List.flatten_nil, List.append_nil]
  generalize (p.contextPlist crates).length = contextLength
  generalize (p.lvPlist crates).length = lvLength
  simp only [contextPlist, lvPlist, List.append_assoc]

/-- The metadata splits at every piece. -/
theorem metadata_split (fits : p.Fits crates) (i : Nat) {key : Option String} {piece : Bytes}
    (h : (p.pieces crates)[i]? = some (key, piece)) :
    p.buildDecryptedMetadata crates = p.before crates i ++ (piece ++ p.after crates i) := by
  obtain ⟨hi, hpiece⟩ := List.getElem?_eq_some_iff.mp h
  rw [buildDecryptedMetadata_eq fits, before, after]
  conv_lhs => rw [← List.take_append_drop i (p.pieces crates), List.drop_eq_getElem_cons hi,
    hpiece]
  simp

theorem buildDecryptedMetadata_length (fits : p.Fits crates) :
    (p.buildDecryptedMetadata crates).length = p.metadataBlocks * p.blockSize.toNat := by
  have segment := fits.segment_fits
  unfold buildDecryptedMetadata
  simp only [List.length_append, List.length_replicate]
  rw [metadataBlockOf_length _ fits.context_fits, metadataBlockOf_length _ fits.lv_fits,
    metadataBlockOf_length _ (by rw [segmentPayload_length]; omega)]
  obtain ⟨extra, hextra⟩ := Nat.exists_eq_add_of_le fits.blocks_min
  rw [hextra, show 3 + extra - 3 = extra by omega, Nat.add_mul]
  omega

/-- The segment block holds no key element: its two number fields are too short for
one, and the rest is zeros. -/
theorem avoidsKey_segmentTail (fits : p.Fits crates) {keyName : String}
    (hzero : 0 ∉ keyElement keyName) (hlong : 13 ≤ (keyElement keyName).length) :
    AvoidsKey keyName p.segmentTail := by
  have blank : ∀ off n, 4 ≤ off ∧ off + n ≤ 16 ∨ 28 ≤ off ∧ off + n ≤ 40 →
      slice p.segmentPayload off n = slice (List.replicate 48 0) off n := by
    intro off n h
    apply slice_filled_apart p.segmentWrites_fit
    simp only [segmentWrites, List.forall_mem_cons, List.not_mem_nil, false_implies, implies_true,
      and_true, leBytes_length]
    omega
  have zeroAt : ∀ j, 4 ≤ j ∧ j < 16 ∨ 28 ≤ j ∧ j < 40 → p.segmentPayload[j]? = some 0 := by
    intro j h
    have at_ := congrArg (·[0]?) (blank j 1 (by omega))
    simp only [slice_getElem?, Nat.add_zero] at at_
    rw [if_pos (by decide), if_pos (by decide)] at at_
    rw [at_, List.getElem?_replicate, if_pos (by omega)]
  have hlen := segmentPayload_length p
  have hroom : 0 < p.blockSize.toNat - (64 + 48) := by
    have := fits.segment_fits
    omega
  unfold segmentTail
  apply AvoidsKey.append (avoidsKey_blockHead keyName (by decide))
  apply avoids_of_marks hzero
  intro i hi
  rw [hlen] at hi ⊢
  generalize hzeros : p.padding 48 ++
    List.replicate ((p.metadataBlocks - 3) * p.blockSize.toNat) (0 : UInt8) = zeros at hi ⊢
  have allZero : ∀ j < zeros.length, zeros[j]? = some 0 := by
    intro j hj
    rw [← hzeros, padding, List.replicate_append_replicate, List.getElem?_replicate, if_pos]
    rw [← hzeros, padding, List.replicate_append_replicate, List.length_replicate] at hj
    exact hj
  have hfirst : 0 < zeros.length := by
    rw [← hzeros, padding, List.length_append, List.length_replicate]
    omega
  rw [List.length_append, hlen] at hi
  by_cases padded : 40 ≤ i
  · -- from the physical block on, the padding comes within reach
    refine ⟨max i 48, by omega, by omega, ?_⟩
    rw [List.getElem?_append_right (by omega), hlen]
    exact allZero _ (by omega)
  · -- before it no stretch without a zero is as long as a key
    obtain ⟨j, hle, hlt, hj⟩ : ∃ j, i ≤ j ∧ j < i + 13 ∧ (4 ≤ j ∧ j < 16 ∨ 28 ≤ j ∧ j < 40) := by
      by_cases early : i < 16
      · exact ⟨max i 4, by omega, by omega, by omega⟩
      · exact ⟨max i 28, by omega, by omega, by omega⟩
    refine ⟨j, hle, by omega, ?_⟩
    rw [List.getElem?_append_left (by omega)]
    exact zeroAt j hj

/-- A key the scanner looks for: text of some length, without markup or zeros. -/
structure PlainKey (keyName : String) : Prop where
  clean : '<' ∉ keyName.toList
  no_zero : 0 ∉ keyElement keyName
  long : 13 ≤ (keyElement keyName).length

/-- Only the piece with its own key holds the key element. -/
theorem avoidsKey_pieces (lawful : crates.Lawful) (fits : p.Fits crates) {keyName : String}
    (plain : PlainKey keyName) :
    ∀ piece ∈ p.pieces crates, piece.1 ≠ some keyName → AvoidsKey keyName piece.2 := by
  have markup : ∀ text, clashesEverywhere [0x3c, 0x6b] text = true → AvoidsKey keyName text :=
    fun _ h => avoidsKey_markup h
  have head : ∀ blockType : UInt16, 0x3c ∉ leBytes 2 blockType.toNat →
      AvoidsKey keyName (blockHead blockType) := fun _ h => avoidsKey_blockHead keyName h
  have zeros : ∀ n, AvoidsKey keyName (p.padding n) := fun _ => avoidsKey_zeros keyName _
  simp only [pieces, List.forall_mem_cons, List.not_mem_nil, false_implies, implies_true,
    and_true, ne_eq, Option.some.injEq, not_false_eq_true, forall_const, reduceCtorEq]
  refine ⟨?_, ?_, ?_, ?_, ?_, ?_, ?_, ?_, ?_, ?_, ?_, ?_, ?_⟩
  · intro hne
    exact (head _ (by decide)).append ((markup _ (by decide)).append
      ((avoidsKey_keyElement hne plain.clean (by decide)).append (markup _ (by decide))))
  · exact fun hne => avoidsKey_passphraseField lawful hne plain.clean
  · exact fun hne => avoidsKey_userTypeField hne plain.clean
  · exact fun hne => avoidsKey_algorithmField hne plain.clean
  · exact fun hne => avoidsKey_kekField lawful hne plain.clean
  · exact markup _ (by decide)
  · exact fun hne => avoidsKey_statusField fits.status_clean hne plain.clean
  · exact (markup _ (by decide)).append ((zeros _).append
      ((head _ (by decide)).append (markup _ (by decide))))
  · exact fun hne => avoidsKey_familyField lawful hne plain.clean
  · exact fun hne => avoidsKey_nameField fits.name_clean hne plain.clean
  · exact fun hne => avoidsKey_identifierField fits.identifier_clean hne plain.clean
  · exact fun hne => avoidsKey_sizeField hne plain.clean
  · exact (markup _ (by decide)).append ((zeros _).append
      (avoidsKey_segmentTail fits plain.no_zero plain.long))

/-- The text before the first piece with a key avoids it. -/
theorem avoidsKey_before (lawful : crates.Lawful) (fits : p.Fits crates) {keyName : String}
    (plain : PlainKey keyName) (i : Nat)
    (first : ∀ piece ∈ (p.pieces crates).take i, piece.1 ≠ some keyName) :
    AvoidsKey keyName (p.before crates i) := by
  unfold before
  apply avoids_flatten
  intro text htext
  obtain ⟨piece, hpiece, rfl⟩ := List.mem_map.mp htext
  exact avoidsKey_pieces lawful fits plain piece (List.mem_of_mem_take hpiece)
    (first piece hpiece)

/-- The text after the last piece with a key avoids it. -/
theorem avoidsKey_after (lawful : crates.Lawful) (fits : p.Fits crates) {keyName : String}
    (plain : PlainKey keyName) (i : Nat)
    (last : ∀ piece ∈ (p.pieces crates).drop (i + 1), piece.1 ≠ some keyName) :
    AvoidsKey keyName (p.after crates i) := by
  unfold after
  apply avoids_flatten
  intro text htext
  obtain ⟨piece, hpiece, rfl⟩ := List.mem_map.mp htext
  exact avoidsKey_pieces lawful fits plain piece (List.mem_of_mem_drop hpiece)
    (last piece hpiece)

/-- The blocks of the metadata behind the one with the context. -/
def volumeBlocks (crates : Crates) (p : Fixture) : Bytes :=
  metadataBlockOf p.blockSize.toNat 0x001a (p.lvPlist crates) ++
    (metadataBlockOf p.blockSize.toNat 0x0305 p.segmentPayload ++
      List.replicate ((p.metadataBlocks - 3) * p.blockSize.toNat) 0)

theorem volumeBlocks_eq (fits : p.Fits crates) : p.volumeBlocks crates =
    (blockHead 0x001a ++ asBytes "<dict ID=\"0\">") ++ p.after crates 7 := by
  have segment := fits.segment_fits
  unfold volumeBlocks
  rw [metadataBlockOf_eq fits.lv_fits,
    metadataBlockOf_eq (by rw [segmentPayload_length]; omega)]
  simp only [after, pieces, segmentTail, padding, List.drop_succ_cons, List.drop_zero,
    List.map_cons, List.map_nil, List.flatten_cons, List.flatten_nil, List.append_nil]
  generalize (p.lvPlist crates).length = lvLength
  simp only [lvPlist, List.append_assoc]

theorem volumeBlocks_length (fits : p.Fits crates) :
    p.blockSize.toNat + (p.volumeBlocks crates).length = p.metadataBlocks * p.blockSize.toNat := by
  have context := metadataBlockOf_length 0x0013 fits.context_fits
  have total := buildDecryptedMetadata_length fits
  rw [buildDecryptedMetadata, List.length_append, context] at total
  exact total

/-- The blocks of the volume hold no key of the context. -/
theorem avoidsKey_volumeBlocks (lawful : crates.Lawful) (fits : p.Fits crates) {keyName : String}
    (plain : PlainKey keyName)
    (last : ∀ piece ∈ (p.pieces crates).drop 8, piece.1 ≠ some keyName) :
    AvoidsKey keyName (p.volumeBlocks crates) := by
  rw [volumeBlocks_eq fits]
  have head : AvoidsKey keyName (blockHead 0x001a) := avoidsKey_blockHead keyName (by decide)
  exact (head.append (avoidsKey_markup (by decide))).append
    (avoidsKey_after lawful fits plain 7 last)

/-! ## What is extracted from it -/

theorem metadata_length_lt (fits : p.Fits crates) :
    (p.buildDecryptedMetadata crates).length < 2 ^ 52 + 1 := by
  rw [buildDecryptedMetadata_length fits]
  have hblock := p.blockSize.toNat_lt
  calc p.metadataBlocks * p.blockSize.toNat
      ≤ 2 ^ 20 * p.blockSize.toNat := Nat.mul_le_mul_right _ fits.blocks_max
    _ < 2 ^ 52 + 1 := by omega

theorem passphraseWrites_fit (salt : ByteArr 16) (wrappedKek : ByteArr 24)
    (iterations : UInt32) : FitIn 284 (passphraseWrites salt wrappedKek iterations) := by
  constructor
  · simp [passphraseWrites, salt.property, wrappedKek.property]
  · simp [passphraseWrites, Apart, salt.property, wrappedKek.property]

theorem passphraseStruct_length (salt : ByteArr 16) (wrappedKek : ByteArr 24)
    (iterations : UInt32) : (passphraseStruct salt wrappedKek iterations).length = 284 :=
  filled_length (passphraseWrites_fit salt wrappedKek iterations)

theorem kekWrites_fit (wrappedVmk : ByteArr 24) : FitIn 256 [(8, wrappedVmk.val)] := by
  constructor
  · simp [wrappedVmk.property]
  · simp

theorem kekWrappedStruct_length (wrappedVmk : ByteArr 24) :
    (kekWrappedStruct wrappedVmk).length = 256 := filled_length (kekWrites_fit wrappedVmk)

theorem passphraseStruct_fields (salt : ByteArr 16) (wrappedKek : ByteArr 24)
    (iterations : UInt32) :
    sliceArr 16 (passphraseStruct salt wrappedKek iterations) pwSaltOffset = some salt ∧
    sliceArr 24 (passphraseStruct salt wrappedKek iterations) pwWrappedKekOffset =
      some wrappedKek ∧
    readU32Le (passphraseStruct salt wrappedKek iterations) pwIterationsOffset =
      some iterations := by
  have usize := usizeSize_eq
  have hlen := passphraseStruct_length salt wrappedKek iterations
  have fit := passphraseWrites_fit salt wrappedKek iterations
  have hsalt : slice (passphraseStruct salt wrappedKek iterations) 8 16 = salt.val :=
    slice_filled fit (by simp [passphraseWrites]) salt.property
  have hkek : slice (passphraseStruct salt wrappedKek iterations) 32 24 = wrappedKek.val :=
    slice_filled fit (by simp [passphraseWrites]) wrappedKek.property
  have hiterations : slice (passphraseStruct salt wrappedKek iterations) 168 4 =
      leBytes 4 iterations.toNat :=
    slice_filled fit (by simp [passphraseWrites]) (leBytes_length _ _)
  refine ⟨sliceArr_eq (by rw [hlen]; decide) (by decide) hsalt,
    sliceArr_eq (by rw [hlen]; decide) (by decide) hkek, ?_⟩
  rw [readU32Le_eq (by rw [hlen]; decide) (by decide),
    show slice (passphraseStruct salt wrappedKek iterations) pwIterationsOffset 4 =
      leBytes 4 iterations.toNat from hiterations, leNat_leBytes iterations.toNat_lt,
    UInt32.ofNat_toNat]

theorem kekWrappedStruct_field (wrappedVmk : ByteArr 24) :
    sliceArr 24 (kekWrappedStruct wrappedVmk) kekWrappedVmkOffset = some wrappedVmk := by
  exact sliceArr_eq (by rw [kekWrappedStruct_length]; decide) (by decide)
    (slice_filled (kekWrites_fit wrappedVmk) (by simp [kekWrappedVmkOffset])
      wrappedVmk.property)

/-- The password user's struct. -/
theorem extractData_passphrase (lawful : crates.Lawful) (fits : p.Fits crates) :
    extractData crates (p.buildDecryptedMetadata crates) "PassphraseWrappedKEKStruct" =
      some (passphraseStruct p.salt (p.wrappedKek crates) p.iterations) := by
  have hlen := metadata_length_lt fits
  have usize := usizeSize_eq
  rw [metadata_split fits 1 rfl] at hlen ⊢
  refine extractData_tagged lawful (avoidsKey_before lawful fits ⟨by decide, by decide, by decide⟩
    1 (by simp [pieces])) (by decide) ?_ (lt_trans hlen (by omega))
  rw [lawful.encode_length, passphraseStruct_length]
  decide

/-- The only protector. -/
theorem extractProtectors_fixture (lawful : crates.Lawful) (fits : p.Fits crates) :
    extractProtectors (p.buildDecryptedMetadata crates) = [⟨0x10000001, .password⟩] := by
  have hlen := metadata_length_lt fits
  have usize := usizeSize_eq
  have plain : PlainKey "UserType" := ⟨by decide, by decide, by decide⟩
  have hsplit := metadata_split fits 2 rfl
  have first : extractUnsignedFrom (2 ^ 32) (p.buildDecryptedMetadata crates) "UserType" 0 =
      some (0x10000001, (p.before crates 2 ++ userTypeField).length) := by
    have found : extractUnsignedFrom (2 ^ 32)
        ([] ++ (p.before crates 2 ++ (userTypeField ++ p.after crates 2))) "UserType"
          ([] : Bytes).length =
        some (0x10000001, ([] ++ (p.before crates 2 ++ userTypeField)).length) :=
      extractUnsignedFrom_tagged (avoidsKey_before lawful fits plain 2 (by simp [pieces]))
        (by decide) (by decide) (by decide) (by rw [hsplit] at hlen; exact lt_trans hlen (by omega))
    rw [List.nil_append, List.nil_append, List.length_nil] at found
    rw [hsplit]
    exact found
  have second : extractUnsignedFrom (2 ^ 32) (p.buildDecryptedMetadata crates) "UserType"
      (p.before crates 2 ++ userTypeField).length = none := by
    rw [hsplit, ← List.append_assoc]
    unfold extractUnsignedFrom
    rw [extractTaggedFrom_none
      ((avoidsKey_after lawful fits plain 2 (by simp [pieces])).before _)]
    rfl
  have one : extractIntegerFrom (p.buildDecryptedMetadata crates) "UserType" 0 =
      some (0x10000001, (p.before crates 2 ++ userTypeField).length) := by
    rw [extractIntegerFrom, first]
    rfl
  have none : extractIntegerFrom (p.buildDecryptedMetadata crates) "UserType"
      (p.before crates 2 ++ userTypeField).length = none := by
    rw [extractIntegerFrom, second]
    rfl
  rw [extractProtectors, protectorsFrom_some one, protectorsFrom_none none]
  rfl

/-- The wrapped volume key behind the `AES-XTS` algorithm. -/
theorem extractKekWrappedAesXts_fixture (lawful : crates.Lawful) (fits : p.Fits crates) :
    extractKekWrappedAesXts crates (p.buildDecryptedMetadata crates) =
      some (kekWrappedStruct (p.wrappedVmk crates)) := by
  have hlen := metadata_length_lt fits
  have usize := usizeSize_eq
  have hsplit := metadata_split fits 3 rfl
  have hafter : p.after crates 3 = p.kekField crates ++ p.after crates 4 := rfl
  rw [hsplit, hafter] at hlen ⊢
  exact kekWrappedAesXtsFrom_hit [] [] lawful
    (avoidsKey_before lawful fits ⟨by decide, by decide, by decide⟩ 3 (by simp [pieces]))
    (by decide) (avoids_nil _) (by decide)
    (by rw [lawful.encode_length, kekWrappedStruct_length]; decide)
    (lt_trans hlen (by omega))

/-- A text field of the metadata. -/
theorem extractString_fixture (lawful : crates.Lawful) (fits : p.Fits crates) {i : Nat}
    {keyName text : String} (attributes : Bytes) (plain : PlainKey keyName)
    (hpiece : (p.pieces crates)[i]? = some (some keyName,
      tagged keyName (asBytes "<string ID=") attributes (asBytes text) (asBytes "</string>")))
    (first : ∀ piece ∈ (p.pieces crates).take i, piece.1 ≠ some keyName)
    (hattributes : 0x3e ∉ attributes) (htext : '<' ∉ text.toList) :
    extractString (p.buildDecryptedMetadata crates) keyName = some text := by
  have hlen := metadata_length_lt fits
  have usize := usizeSize_eq
  rw [metadata_split fits i hpiece] at hlen ⊢
  exact extractString_tagged (avoidsKey_before lawful fits plain i first) hattributes htext
    (lt_trans hlen (by omega))

/-- The size field of the metadata. -/
theorem extractLvSize_fixture (lawful : crates.Lawful) (fits : p.Fits crates) :
    extractLvSize (p.buildDecryptedMetadata crates) = some p.lvSize := by
  have hlen := metadata_length_lt fits
  have usize := usizeSize_eq
  have hsplit := metadata_split fits 11 rfl
  have hparse : parseInteger (2 ^ 64) p.sizeText.toList = some p.lvSize.toNat := by
    rw [sizeText_toList]
    exact parseInteger_lowerHex p.lvSize.toNat_lt
  have plain : PlainKey "com.apple.corestorage.lv.size" :=
    ⟨by decide, by decide, by decide⟩
  have found : extractUnsignedFrom (2 ^ 64)
      ([] ++ (p.before crates 11 ++ (p.sizeField ++ p.after crates 11)))
        "com.apple.corestorage.lv.size" ([] : Bytes).length =
      some (p.lvSize.toNat, ([] ++ (p.before crates 11 ++ p.sizeField)).length) :=
    extractUnsignedFrom_tagged (avoidsKey_before lawful fits plain 11 (by simp [pieces]))
      (by decide) (sizeText_clean p) hparse
      (by rw [hsplit] at hlen; exact lt_trans hlen (by omega))
  rw [List.nil_append, List.nil_append, List.length_nil, ← hsplit] at found
  unfold extractLvSize extractU64Integer
  rw [found]
  simp

/-- The encryption context of the metadata. -/
def context (crates : Crates) (p : Fixture) : EncryptionContext where
  salt := p.salt
  iterations := p.iterations
  wrappedKek := p.wrappedKek crates
  wrappedVmk := p.wrappedVmk crates
  protectors := [⟨0x10000001, .password⟩]
  conversionStatus := some p.status

/-- The logical volume of the metadata. -/
def logicalVolume (crates : Crates) (p : Fixture) : LogicalVolumeInfo where
  size := p.lvSize
  familyUuid := p.familyText crates
  lvIdentifier := some p.lvIdentifier
  name := some p.lvName

theorem extract_context (lawful : crates.Lawful) (fits : p.Fits crates) :
    EncryptionContext.extract crates (p.buildDecryptedMetadata crates) =
      .ok (p.context crates) := by
  obtain ⟨hsalt, hkek, hiterations⟩ :=
    passphraseStruct_fields p.salt (p.wrappedKek crates) p.iterations
  have hstatus : extractString (p.buildDecryptedMetadata crates) "ConversionStatus" =
      some p.status :=
    extractString_fixture lawful fits (i := 6) (asBytes "\"8\"")
      ⟨by decide, by decide, by decide⟩ rfl (by simp [pieces]) (by decide) fits.status_clean
  unfold EncryptionContext.extract
  rw [extractData_passphrase lawful fits, extractKekWrappedAesXts_fixture lawful fits,
    extractProtectors_fixture lawful fits, hstatus]
  simp only [okOr_some, ok_bind, hsalt, hkek, hiterations, kekWrappedStruct_field, pure_run]
  rfl

theorem extract_logicalVolume (lawful : crates.Lawful) (fits : p.Fits crates) :
    LogicalVolumeInfo.extract (p.buildDecryptedMetadata crates) =
      .ok (p.logicalVolume crates) := by
  have hfamily : extractString (p.buildDecryptedMetadata crates)
      "com.apple.corestorage.lv.familyUUID" = some (p.familyText crates) :=
    extractString_fixture lawful fits (i := 8) (asBytes "\"1\"")
      ⟨by decide, by decide, by decide⟩ rfl (by simp [pieces]) (by decide)
      (familyText_clean p lawful)
  have hname : extractString (p.buildDecryptedMetadata crates)
      "com.apple.corestorage.lv.name" = some p.lvName :=
    extractString_fixture lawful fits (i := 9) (asBytes "\"2\"")
      ⟨by decide, by decide, by decide⟩ rfl (by simp [pieces]) (by decide) fits.name_clean
  have hidentifier : extractString (p.buildDecryptedMetadata crates)
      "com.apple.corestorage.lv.uuid" = some p.lvIdentifier :=
    extractString_fixture lawful fits (i := 10) (asBytes "\"3\"")
      ⟨by decide, by decide, by decide⟩ rfl (by simp [pieces]) (by decide) fits.identifier_clean
  unfold LogicalVolumeInfo.extract
  rw [hfamily, hname, hidentifier, extractLvSize_fixture lawful fits]
  rfl

/-! ## The segment map -/

theorem blockWrites_fit {blockSize : Nat} {payload : Bytes} (blockType : UInt16)
    (h : 64 + payload.length ≤ blockSize) : FitIn blockSize (blockWrites blockType payload) := by
  constructor
  · simp only [blockWrites, List.forall_mem_cons, List.not_mem_nil, false_implies, implies_true,
      and_true, leBytes_length]
    omega
  · simp [blockWrites, Apart]

/-- The two parts of a block. -/
theorem slice_metadataBlockOf {blockSize : Nat} {payload : Bytes} (blockType : UInt16)
    (h : 64 + payload.length ≤ blockSize) :
    slice (metadataBlockOf blockSize blockType payload) 10 2 = leBytes 2 blockType.toNat ∧
      slice (metadataBlockOf blockSize blockType payload) 64 payload.length = payload :=
  ⟨slice_filled (blockWrites_fit blockType h) (by simp [blockWrites]) (leBytes_length _ _),
    slice_filled (blockWrites_fit blockType h) (by simp [blockWrites]) rfl⟩

/-- Stretches of the first three blocks. -/
theorem slice_metadata (fits : p.Fits crates) {off n : Nat} (h : off + n ≤ p.blockSize.toNat) :
    slice (p.buildDecryptedMetadata crates) off n =
        slice (metadataBlockOf p.blockSize.toNat 0x0013 (p.contextPlist crates)) off n ∧
      slice (p.buildDecryptedMetadata crates) (p.blockSize.toNat + off) n =
        slice (metadataBlockOf p.blockSize.toNat 0x001a (p.lvPlist crates)) off n ∧
      slice (p.buildDecryptedMetadata crates) (2 * p.blockSize.toNat + off) n =
        slice (metadataBlockOf p.blockSize.toNat 0x0305 p.segmentPayload) off n := by
  have segment := fits.segment_fits
  have hlen₀ := metadataBlockOf_length 0x0013 fits.context_fits
  have hlen₁ := metadataBlockOf_length 0x001a fits.lv_fits
  have hlen₂ : (metadataBlockOf p.blockSize.toNat 0x0305 p.segmentPayload).length =
      p.blockSize.toNat := metadataBlockOf_length 0x0305 (by rw [segmentPayload_length]; omega)
  unfold buildDecryptedMetadata
  refine ⟨slice_append_left (by omega), ?_, ?_⟩
  · rw [slice_append_right (by omega), slice_append_left (by omega), hlen₀,
      Nat.add_sub_cancel_left]
  · rw [slice_append_right (by omega), slice_append_right (by omega),
      slice_append_left (by omega), hlen₀, hlen₁,
      show 2 * p.blockSize.toNat + off - p.blockSize.toNat - p.blockSize.toNat = off by omega]

theorem segmentPayload_fields (p : Fixture) :
    slice p.segmentPayload 0 4 = leBytes 4 1 ∧
    slice p.segmentPayload 16 8 = leBytes 8 p.logicalBlock.toNat ∧
    slice p.segmentPayload 24 4 = leBytes 4 p.lvBlocks.toNat ∧
    slice p.segmentPayload 40 8 = leBytes 8 p.lvPhysicalBlock.toNat := by
  have fit := p.segmentWrites_fit
  exact ⟨slice_filled fit (by simp [segmentWrites]) (leBytes_length _ _),
    slice_filled fit (by simp [segmentWrites]) (leBytes_length _ _),
    slice_filled fit (by simp [segmentWrites]) (leBytes_length _ _),
    slice_filled fit (by simp [segmentWrites]) (leBytes_length _ _)⟩

/-- A field of the segment payload, as it lies in the metadata. -/
theorem fieldAt_segment (fits : p.Fits crates) {width off value : Nat}
    (hinside : off + width ≤ 48) (hvalue : value < 256 ^ width)
    (h : slice p.segmentPayload off width = leBytes width value) :
    fieldAt width (p.buildDecryptedMetadata crates) (2 * p.blockSize.toNat + (64 + off)) =
      value := by
  have segment := fits.segment_fits
  have hlen := segmentPayload_length p
  have hblocks := fits.blocks_min
  have htotal := buildDecryptedMetadata_length fits
  have hthree : 3 * p.blockSize.toNat ≤ p.metadataBlocks * p.blockSize.toNat :=
    Nat.mul_le_mul_right _ hblocks
  have hpayload : slice (metadataBlockOf p.blockSize.toNat 0x0305 p.segmentPayload) 64
      p.segmentPayload.length = p.segmentPayload := (slice_metadataBlockOf 0x0305 (by omega)).2
  apply fieldAt_of_slice (by omega) hvalue
  rw [hlen] at hpayload
  rw [(slice_metadata fits (by omega)).2.2, ← h, ← slice_slice (n := 48) hinside,
    hpayload]

theorem blockTypeAt_metadata (fits : p.Fits crates) :
    blockTypeAt (p.buildDecryptedMetadata crates) p.blockSize.toNat 0 = 0x0013 ∧
      blockTypeAt (p.buildDecryptedMetadata crates) p.blockSize.toNat 1 = 0x001a ∧
      blockTypeAt (p.buildDecryptedMetadata crates) p.blockSize.toNat 2 = 0x0305 := by
  have segment := fits.segment_fits
  have hlen := segmentPayload_length p
  have htotal := buildDecryptedMetadata_length fits
  have hthree : 3 * p.blockSize.toNat ≤ p.metadataBlocks * p.blockSize.toNat :=
    Nat.mul_le_mul_right _ fits.blocks_min
  obtain ⟨h₀, h₁, h₂⟩ := slice_metadata fits (show 10 + 2 ≤ p.blockSize.toNat by omega)
  rw [(slice_metadataBlockOf _ fits.context_fits).1] at h₀
  rw [(slice_metadataBlockOf _ fits.lv_fits).1] at h₁
  rw [(slice_metadataBlockOf _ (by omega)).1] at h₂
  simp only [blockTypeAt, blockHeaderTypeOffset, Nat.zero_mul, Nat.zero_add, Nat.one_mul]
  rw [fieldAt_of_slice (by omega) (by decide) h₀, fieldAt_of_slice (by omega) (by decide) h₁,
    fieldAt_of_slice (by omega) (by decide) h₂]
  exact ⟨rfl, rfl, rfl⟩

/-- The one segment of the metadata. -/
def segment (p : Fixture) : SegmentEntry where
  logicalBlock := p.logicalBlock
  physicalBlock := p.lvPhysicalBlock &&& blockNumberMask
  numberOfBlocks := p.lvBlocks

theorem segmentsOf_fixture (fits : p.Fits crates) :
    segmentsOf (p.buildDecryptedMetadata crates) p.blockSize.toNat = [p.segment] := by
  have segment := fits.segment_fits
  obtain ⟨htype₀, htype₁, htype₂⟩ := blockTypeAt_metadata fits
  have hcount : (p.buildDecryptedMetadata crates).length / p.blockSize.toNat =
      p.metadataBlocks := by
    rw [buildDecryptedMetadata_length fits, Nat.mul_div_cancel _ (by omega)]
  obtain ⟨extra, hextra⟩ := Nat.exists_eq_add_of_le fits.blocks_min
  have hfirst : firstBlockOfType (p.buildDecryptedMetadata crates) p.blockSize.toNat
      blockTypeSegmentDescriptor 0 p.metadataBlocks = some (2 * p.blockSize.toNat) := by
    rw [hextra, show 3 + extra = extra + 1 + 1 + 1 by omega, firstBlockOfType_succ, htype₀,
      if_neg (by decide), firstBlockOfType_succ, htype₁, if_neg (by decide),
      firstBlockOfType_succ, htype₂, if_pos (by decide)]
  obtain ⟨hdeclared, hlogical, hblocks, hphysical⟩ := segmentPayload_fields p
  have declared := fieldAt_segment fits (by decide) (by decide) hdeclared
  have logical := fieldAt_segment fits (by decide) p.logicalBlock.toNat_lt hlogical
  have blocks := fieldAt_segment fits (by decide) p.lvBlocks.toNat_lt hblocks
  have physical := fieldAt_segment fits (by decide) p.lvPhysicalBlock.toNat_lt hphysical
  have hroom : 0 < segmentRoom p.blockSize.toNat := by
    unfold segmentRoom blockHeaderSize segFirstEntryPayloadOffset segEntryStride
    omega
  unfold segmentsOf
  rw [hcount, hfirst]
  simp only [blockHeaderSize, Nat.add_zero] at declared ⊢
  rw [declared, show min (min (UInt32.ofNat 1) maxSegments).toNat
    (segmentRoom p.blockSize.toNat) = 1 from Nat.min_eq_left hroom]
  simp only [List.range_one, List.map_cons, List.map_nil, segmentAt, segFirstEntryPayloadOffset,
    segEntryStride, segLogicalBlockOffset, segPhysicalBlockOffset, segNumBlocksOffset,
    Nat.zero_mul, Nat.add_zero, Nat.add_assoc, Nat.reduceAdd] at logical blocks physical ⊢
  rw [logical, blocks, physical, UInt64.ofNat_toNat, UInt64.ofNat_toNat, UInt32.ofNat_toNat]
  rfl

end

end Fixture

end FileVault
