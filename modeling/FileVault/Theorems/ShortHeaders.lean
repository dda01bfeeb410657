import FileVault.Core.VolumeHeader
import FileVault.Logic.TestSupport

/-!
# Short headers

The parser checks two fields of the header, and the later of them ends at byte 176. What is
shorter is refused, since a missing field is read as zero; the last field ends at byte 320,
and in between nothing is. There the keys come out as zeros.
-/

namespace FileVault

open Lib

/-! ## Fields -/

/-- A field other than zero is there. -/
theorem fieldAt_eq_iff {width off n : Nat} {data : Bytes} (hpos : n ≠ 0) (hlt : n < 256 ^ width) :
    fieldAt width data off = n ↔ slice data off width = leBytes width n := by
  unfold fieldAt
  constructor
  · intro h
    split at h
    · next inside =>
        have hlen := slice_length_of_le inside
        rw [← h, ← hlen, slice_slice_length, leBytes_leNat]
    · exact absurd h.symm hpos
  · intro h
    have hlen := congrArg List.length h
    rw [slice_length, leBytes_length] at hlen
    cases width with
    | zero => simp at hlt; exact absurd hlt hpos
    | succ width => rw [if_pos (by omega), h, leNat_leBytes hlt]

/-- A number read from inside the data encodes to its bytes. -/
theorem number_decoded {width off n : Nat} {data : Bytes} (inside : off + width ≤ data.length)
    (h : n = fieldAt width data off) :
    off + (leBytes width n).length ≤ data.length ∧
      slice data off (leBytes width n).length = leBytes width n := by
  have hlen := slice_length_of_le inside
  have hbytes : leBytes width n = slice data off width := by
    rw [h, fieldAt, if_pos inside]
    nth_rewrite 1 [← hlen]
    exact leBytes_leNat _
  rw [leBytes_length]
  exact ⟨inside, hbytes.symm⟩

/-- An identifier read from inside the data is its bytes. -/
theorem identifier_decoded {off : Nat} {data : Bytes} (inside : off + 16 ≤ data.length) :
    off + (bytesAt data off).val.length ≤ data.length ∧
      slice data off (bytesAt data off).val.length = (bytesAt data off).val := by
  rw [(bytesAt data off).property, bytesAt, dif_pos inside]
  exact ⟨inside, rfl⟩

namespace VolumeHeader

/-! ## Headers -/

/-- The fields of a header, each at its place. -/
def fields (header : VolumeHeader) : List (Nat × Bytes) := [
  (48, leBytes 4 header.bytesPerSector.toNat),
  (64, leBytes 8 header.physicalVolumeSize.toNat),
  (96, leBytes 4 header.blockSize.toNat),
  (104, leBytes 8 (header.metadataBlockNumbers.get 0).toNat),
  (112, leBytes 8 (header.metadataBlockNumbers.get 1).toNat),
  (120, leBytes 8 (header.metadataBlockNumbers.get 2).toNat),
  (128, leBytes 8 (header.metadataBlockNumbers.get 3).toNat),
  (176, header.keyData.val),
  (304, header.physicalVolumeIdentifier.val)]

/-- Every field lies inside the data, and encodes to the bytes that are there. -/
def DecodedFrom (header : VolumeHeader) (data : Bytes) : Prop :=
  ∀ field ∈ header.fields,
    field.1 + field.2.length ≤ data.length ∧ slice data field.1 field.2.length = field.2

/-- An accepted header is decoded from the data, and data without room for one is refused. -/
structure RejectsShort (data : Bytes) : Prop where
  decoded : ∀ header, parse data = .ok header → 320 ≤ data.length ∧ header.DecodedFrom data
  short : data.length < 320 → ∃ e, parse data = fail e

/-- Data that ends before the header does, but not before the two fields that are checked,
and these are as they should be. -/
structure CutShort (data : Bytes) : Prop where
  short : data.length < 320
  signature : slice data 88 2 = [0x43, 0x53]
  method : slice data 172 4 = [2, 0, 0, 0]

/-! ## What is accepted -/

theorem signature_iff (data : Bytes) :
    UInt16.ofNat (fieldAt 2 data 88) = csSignatureLe ↔ slice data 88 2 = [0x43, 0x53] := by
  have hlt := fieldAt_lt 2 data 88
  have number : UInt16.ofNat (fieldAt 2 data 88) = csSignatureLe ↔ fieldAt 2 data 88 = 0x5343 := by
    rw [← UInt16.toNat_inj, UInt16.toNat_ofNat_of_lt' hlt]
    exact Iff.rfl
  rw [number, fieldAt_eq_iff (by decide) (by decide)]
  exact Iff.rfl

theorem method_iff (data : Bytes) :
    UInt32.ofNat (fieldAt 4 data 172) = encryptionMethodAesXts128 ↔
      slice data 172 4 = [2, 0, 0, 0] := by
  have number : UInt32.ofNat (fieldAt 4 data 172) = encryptionMethodAesXts128 ↔
      fieldAt 4 data 172 = 2 := by
    rw [← UInt32.toNat_inj, toNat_fieldAt_u32]
    exact Iff.rfl
  rw [number, fieldAt_eq_iff (by decide) (by decide)]
  exact Iff.rfl

/-- Data is accepted exactly if the two fields are as they should be. -/
theorem parse_ok_iff (data : Bytes) (header : VolumeHeader) :
    parse data = .ok header ↔
      slice data 88 2 = [0x43, 0x53] ∧ slice data 172 4 = [2, 0, 0, 0] ∧
        header = ofFields data := by
  rw [parse_eq, ← signature_iff, ← method_iff]
  by_cases hsignature : UInt16.ofNat (fieldAt 2 data 88) = csSignatureLe
  · by_cases hmethod : UInt32.ofNat (fieldAt 4 data 172) = encryptionMethodAesXts128
    · rw [if_neg (not_not.mpr hsignature), if_neg (not_not.mpr hmethod), Except.ok.injEq]
      exact ⟨fun h => ⟨hsignature, hmethod, h.symm⟩, fun h => h.2.2.symm⟩
    · rw [if_neg (not_not.mpr hsignature), if_pos hmethod]
      simp [fail, hmethod]
  · rw [if_pos hsignature]
    simp [fail, hsignature]

/-- Data that is not accepted is refused with an error. -/
theorem parse_ok_or_fail (data : Bytes) :
    (∃ header, parse data = .ok header) ∨ ∃ e, parse data = fail e := by
  rw [parse_eq]
  split
  · exact .inr ⟨_, rfl⟩
  · split
    · exact .inr ⟨_, rfl⟩
    · exact .inl ⟨_, rfl⟩

/-! ## What it is decoded from -/

/-- With room for all of its fields, a header is decoded from the data. -/
theorem ofFields_decodedFrom {data : Bytes} (hlen : 320 ≤ data.length) :
    (ofFields data).DecodedFrom data := by
  intro field hfield
  simp only [fields, List.mem_cons, List.not_mem_nil, or_false] at hfield
  rcases hfield with rfl | rfl | rfl | rfl | rfl | rfl | rfl | rfl | rfl
  · exact number_decoded (by omega) (toNat_fieldAt_u32 data 48)
  · exact number_decoded (by omega) (toNat_fieldAt_u64 data 64)
  · exact number_decoded (by omega) (toNat_fieldAt_u32 data 96)
  · exact number_decoded (by omega) (toNat_fieldAt_u64 data 104)
  · exact number_decoded (by omega) (toNat_fieldAt_u64 data 112)
  · exact number_decoded (by omega) (toNat_fieldAt_u64 data 120)
  · exact number_decoded (by omega) (toNat_fieldAt_u64 data 128)
  · exact identifier_decoded (by omega)
  · exact identifier_decoded (by omega)

/-- Data that is cut short behind the fields that are checked is accepted. -/
theorem CutShort.accepted {data : Bytes} (cut : CutShort data) :
    parse data = .ok (ofFields data) :=
  (parse_ok_iff data (ofFields data)).mpr ⟨cut.signature, cut.method, rfl⟩

/-- In data that is cut short the parser does not keep to the bytes of the data. -/
theorem CutShort.not_rejectsShort {data : Bytes} (cut : CutShort data) : ¬ RejectsShort data := by
  intro rejects
  have hlen := (rejects.decoded _ cut.accepted).1
  have hshort := cut.short
  omega

/-- The parser keeps to the bytes of the data exactly when the data is not cut short between
the fields it checks and the end of the header. -/
theorem rejectsShort_iff (data : Bytes) : RejectsShort data ↔ ¬ CutShort data := by
  constructor
  · intro rejects cut
    exact cut.not_rejectsShort rejects
  · intro whole
    have room : ∀ header, parse data = .ok header → 320 ≤ data.length := by
      intro header h
      obtain ⟨hsignature, hmethod, -⟩ := (parse_ok_iff data header).mp h
      by_contra hshort
      exact whole ⟨by omega, hsignature, hmethod⟩
    refine ⟨?_, ?_⟩
    · intro header h
      obtain ⟨-, -, rfl⟩ := (parse_ok_iff data header).mp h
      exact ⟨room _ h, ofFields_decodedFrom (room _ h)⟩
    · intro hshort
      rcases parse_ok_or_fail data with ⟨header, h⟩ | refused
      · have hlen := room header h
        omega
      · exact refused

/-- The start of a header, up to the end of the fields that are checked. -/
def headerStart : Bytes := filled 176 [(88, [0x43, 0x53]), (172, leBytes 4 2)]

/-- The start of a header is accepted, and both metadata keys are zeros that nothing in it stands
for. -/
theorem headerStart_accepted :
    (∃ header, parse headerStart = .ok header ∧ header.keyData = ByteArr.zero 16 ∧
      header.physicalVolumeIdentifier = ByteArr.zero 16) ∧ ¬ RejectsShort headerStart := by
  have cut : CutShort headerStart :=
    ⟨by decide +kernel, by decide +kernel, by decide +kernel⟩
  exact ⟨⟨ofFields headerStart, cut.accepted, by decide +kernel, by decide +kernel⟩,
    cut.not_rejectsShort⟩

end VolumeHeader

end FileVault
