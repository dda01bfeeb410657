import FileVault.Core.Metadata

/-!
# What the segment parser returns

`parse_segments` as a pure function of the metadata: the first block whose type
is `0x0305`, and from it as many entries as its count declares, up to the cap and
up to the end of the block. In particular no index it computes overflows.
-/

namespace FileVault

open Lib

/-- The type field of block `k`. -/
def blockTypeAt (metadata : Bytes) (blockSize k : Nat) : UInt16 :=
  UInt16.ofNat (fieldAt 2 metadata (k * blockSize + blockHeaderTypeOffset))

/-- The first of the blocks from number `k` on that has the type. -/
def firstBlockOfType (metadata : Bytes) (blockSize : Nat) (blockType : UInt16)
    (k count : Nat) : Option Nat :=
  ((List.range' k count).find? (blockTypeAt metadata blockSize · = blockType)).map
    (· * blockSize)

/-- Entry `i` of the `0x0305` block with this payload. -/
def segmentAt (metadata : Bytes) (payload i : Nat) : SegmentEntry :=
  let entry := payload + segFirstEntryPayloadOffset + i * segEntryStride
  { logicalBlock := UInt64.ofNat (fieldAt 8 metadata (entry + segLogicalBlockOffset))
    physicalBlock :=
      UInt64.ofNat (fieldAt 8 metadata (entry + segPhysicalBlockOffset)) &&& blockNumberMask
    numberOfBlocks := UInt32.ofNat (fieldAt 4 metadata (entry + segNumBlocksOffset)) }

/-- How many entries fit in the block after the header and the count. -/
def segmentRoom (blockSize : Nat) : Nat :=
  (blockSize - (blockHeaderSize + segFirstEntryPayloadOffset)) / segEntryStride

theorem firstBlockOfType_succ (metadata : Bytes) (blockSize : Nat) (blockType : UInt16)
    (k count : Nat) :
    firstBlockOfType metadata blockSize blockType k (count + 1) =
      if blockTypeAt metadata blockSize k = blockType then some (k * blockSize)
      else firstBlockOfType metadata blockSize blockType (k + 1) count := by
  unfold firstBlockOfType
  rw [List.range'_succ, List.find?_cons]
  by_cases h : blockTypeAt metadata blockSize k = blockType
  · simp [h]
  · simp [h]

/-- The block loop looks at the whole blocks in order. -/
theorem findBlockFrom_eq {metadata : Bytes} {blockSize : Nat} (blockType : UInt16)
    (hlen : metadata.length ≤ isizeMax) (hpos : 0 < blockSize) (hsize : blockSize < usizeSize)
    (k count : Nat) (hcount : k + count = metadata.length / blockSize) :
    findBlockFrom metadata blockSize blockType (k * blockSize) =
      .ok (firstBlockOfType metadata blockSize blockType k count) := by
  have usize := usizeSize_eq
  have isize := isizeMax_eq
  have blocks : metadata.length / blockSize * blockSize ≤ metadata.length :=
    Nat.div_mul_le_self _ _
  have before : k * blockSize ≤ metadata.length := by
    refine le_trans (Nat.mul_le_mul_right _ ?_) blocks
    omega
  induction count generalizing k with
  | zero =>
      have past : metadata.length < (k + 1) * blockSize := by
        rw [← Nat.div_lt_iff_lt_mul hpos]
        omega
      rw [Nat.succ_mul] at past
      have fits : k * blockSize + blockSize < usizeSize := by
        by_cases h0 : k = 0
        · simpa [h0] using hsize
        · have : blockSize ≤ k * blockSize := Nat.le_mul_of_pos_left _ (by omega)
          omega
      unfold findBlockFrom
      rw [uadd_eq fits]
      simp only
      rw [dif_neg (by omega)]
      simp [firstBlockOfType]
  | succ count ih =>
      have inside : (k + 1) * blockSize ≤ metadata.length := by
        refine le_trans (Nat.mul_le_mul_right _ ?_) blocks
        omega
      have step : k * blockSize + blockSize = (k + 1) * blockSize := by ring
      unfold findBlockFrom
      rw [step, uadd_eq (by omega)]
      simp only
      rw [dif_pos ⟨hpos, inside⟩,
        leU16_eq metadata (by simp only [blockHeaderTypeOffset]; omega), ok_bind,
        firstBlockOfType_succ, ih (k + 1) (by omega) inside]
      by_cases here : blockTypeAt metadata blockSize k = blockType
      · rw [if_pos here]
        exact if_pos here
      · rw [if_neg here]
        exact if_neg here

theorem findBlockOfType_eq {metadata : Bytes} {blockSize : Nat} (blockType : UInt16)
    (hlen : metadata.length ≤ isizeMax) (hsize : blockSize < usizeSize) :
    findBlockOfType metadata blockSize blockType =
      .ok (firstBlockOfType metadata blockSize blockType 0 (metadata.length / blockSize)) := by
  unfold findBlockOfType
  by_cases h0 : blockSize = 0
  · simp [h0, firstBlockOfType]
  · rw [if_neg h0]
    simpa using findBlockFrom_eq blockType hlen (by omega) hsize 0
      (metadata.length / blockSize) (by omega)

/-- A block that is found lies inside the metadata. -/
theorem firstBlockOfType_inside {metadata : Bytes} {blockSize blockOffset : Nat}
    {blockType : UInt16}
    (h : firstBlockOfType metadata blockSize blockType 0 (metadata.length / blockSize) =
      some blockOffset) :
    blockOffset + blockSize ≤ metadata.length := by
  unfold firstBlockOfType at h
  rw [Option.map_eq_some_iff] at h
  obtain ⟨k, hfind, rfl⟩ := h
  have hk := List.mem_of_find?_eq_some hfind
  simp only [List.mem_range'_1] at hk
  calc k * blockSize + blockSize = (k + 1) * blockSize := by ring
    _ ≤ metadata.length / blockSize * blockSize := Nat.mul_le_mul_right _ (by omega)
    _ ≤ metadata.length := Nat.div_mul_le_self _ _

/-- The entry loop from iteration `i`: the declared entries that still fit. -/
theorem readSegments_eq {metadata : Bytes} {blockSize blockOffset : Nat}
    (hend : blockOffset + blockSize ≤ isizeMax) (remaining i : Nat)
    (hi : i ≤ segmentRoom blockSize) :
    readSegments metadata blockSize blockOffset (blockOffset + blockHeaderSize) remaining i =
      .ok ((List.range' i (min remaining (segmentRoom blockSize - i))).map
        (segmentAt metadata (blockOffset + blockHeaderSize))) := by
  have usize := usizeSize_eq
  have isize := isizeMax_eq
  induction remaining generalizing i with
  | zero => simp [readSegments]
  | succ remaining ih =>
      simp only [segmentRoom, blockHeaderSize, segFirstEntryPayloadOffset, segEntryStride]
        at hi ih ⊢
      unfold readSegments
      simp only [segFirstEntryPayloadOffset, segEntryStride]
      rw [uadd_eq (by omega), ok_bind, umul_eq (by omega), ok_bind, uadd_eq (by omega), ok_bind,
        uadd_eq (by omega), ok_bind, uadd_eq (by omega), ok_bind]
      by_cases full : i = (blockSize - (64 + 8)) / 40
      · rw [if_pos (by omega), full]
        simp
      · rw [if_neg (by omega),
          leU64_eq metadata (by simp only [segPhysicalBlockOffset]; omega), ok_bind,
          leU64_eq metadata (by simp only [segLogicalBlockOffset]; omega), ok_bind,
          leU32_eq metadata (by simp only [segNumBlocksOffset]; omega), ok_bind,
          ih (i + 1) (by omega)]
        have count : min (remaining + 1) ((blockSize - (64 + 8)) / 40 - i) =
            min remaining ((blockSize - (64 + 8)) / 40 - (i + 1)) + 1 := by omega
        rw [count, List.range'_succ]
        rfl

/-- `parse_segments` without its machine arithmetic. -/
def segmentsOf (metadata : Bytes) (blockSize : Nat) : List SegmentEntry :=
  match firstBlockOfType metadata blockSize blockTypeSegmentDescriptor 0
      (metadata.length / blockSize) with
  | none => []
  | some blockOffset =>
      let declared := UInt32.ofNat (fieldAt 4 metadata (blockOffset + blockHeaderSize))
      (List.range (min (min declared maxSegments).toNat (segmentRoom blockSize))).map
        (segmentAt metadata (blockOffset + blockHeaderSize))

/-- The parser is total, and returns exactly the declared entries of the first
`0x0305` block that fit in it. -/
theorem parseSegments_eq {metadata : Bytes} {blockSize : Nat}
    (hlen : metadata.length ≤ isizeMax) (hsize : blockSize < usizeSize) :
    parseSegments metadata blockSize = .ok (segmentsOf metadata blockSize) := by
  have usize := usizeSize_eq
  have isize := isizeMax_eq
  unfold parseSegments segmentsOf
  rw [findBlockOfType_eq _ hlen hsize, ok_bind]
  cases hfound : firstBlockOfType metadata blockSize blockTypeSegmentDescriptor 0
      (metadata.length / blockSize) with
  | none => rfl
  | some blockOffset =>
      have inside := firstBlockOfType_inside hfound
      simp only
      rw [uadd_eq (by simp only [blockHeaderSize]; omega), ok_bind,
        leU32_eq metadata (by simp only [blockHeaderSize]; omega), ok_bind,
        readSegments_eq (by omega) _ 0 (by omega)]
      simp [List.range_eq_range']

end FileVault
