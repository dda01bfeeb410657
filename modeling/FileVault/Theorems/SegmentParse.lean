import FileVault.Lib.Units
import FileVault.Logic.Load

/-!
# What the segment parser accepts

`parse_segments` decodes the first `0x0305` block and nothing else: the number of
its entries is the least of the declared count, the cap and the room in the block,
every entry lies inside the block, and bytes elsewhere only matter where they are
the type of an earlier block. A block that was rendered from a list of entries
parses back to the list.
-/

namespace FileVault

open Lib

/-- Block `k` is the first whole block of type `0x0305`. -/
structure SegmentBlockAt (metadata : Bytes) (blockSize k : Nat) : Prop where
  block_pos : 0 < blockSize
  inside : (k + 1) * blockSize ≤ metadata.length
  block_type : blockTypeAt metadata blockSize k = blockTypeSegmentDescriptor
  first : ∀ j < k, blockTypeAt metadata blockSize j ≠ blockTypeSegmentDescriptor

/-- The entry whose 40 bytes start at this offset. -/
def entryAt (metadata : Bytes) (offset : Nat) : SegmentEntry where
  logicalBlock := .ofNat (fieldAt 8 metadata (offset + 8))
  physicalBlock := .ofNat (fieldAt 8 metadata (offset + 32) % 2 ^ 48)
  numberOfBlocks := .ofNat (fieldAt 4 metadata (offset + 16))

/-- The bytes the parser looks at when block `k` is the one it finds: the block, and the
types of the blocks before it. -/
def SegmentBytes (blockSize k x : Nat) : Prop :=
  (k * blockSize ≤ x ∧ x < (k + 1) * blockSize) ∨
    ∃ j < k, j * blockSize + 10 ≤ x ∧ x < j * blockSize + 12

section

variable {metadata other : Bytes} {blockSize k : Nat}

/-- The search finds the block, if there is one. -/
theorem firstBlockOfType_eq_some :
    firstBlockOfType metadata blockSize blockTypeSegmentDescriptor 0
        (metadata.length / blockSize) = some (k * blockSize) ↔
      SegmentBlockAt metadata blockSize k := by
  unfold firstBlockOfType
  rw [← List.range_eq_range', Option.map_eq_some_iff]
  constructor
  · rintro ⟨j, hfind, hj⟩
    obtain ⟨htype, hmem, hfirst⟩ := List.find?_range_eq_some.mp hfind
    have hlt := List.mem_range.mp hmem
    -- blocks of no bytes are not searched
    have hpos : 0 < blockSize := by
      by_contra h0
      rw [show blockSize = 0 by omega, Nat.div_zero] at hlt
      omega
    obtain rfl := Nat.eq_of_mul_eq_mul_right hpos hj
    refine ⟨hpos, (Nat.le_div_iff_mul_le hpos).mp hlt, by simpa using htype, ?_⟩
    intro i hi
    simpa using hfirst i hi
  · intro h
    refine ⟨k, List.find?_range_eq_some.mpr ⟨by simpa using h.block_type, ?_, ?_⟩, rfl⟩
    · rw [List.mem_range]
      exact (Nat.le_div_iff_mul_le h.block_pos).mpr h.inside
    · intro i hi
      simpa using h.first i hi

/-- Without a segment block there are no segments. -/
theorem segmentsOf_of_none (h : ¬ ∃ k, SegmentBlockAt metadata blockSize k) :
    segmentsOf metadata blockSize = [] := by
  unfold segmentsOf
  cases hfound : firstBlockOfType metadata blockSize blockTypeSegmentDescriptor 0
      (metadata.length / blockSize) with
  | none => rfl
  | some blockOffset =>
      obtain ⟨k, -, rfl⟩ := Option.map_eq_some_iff.mp hfound
      exact absurd ⟨k, firstBlockOfType_eq_some.mp hfound⟩ h

theorem segmentAt_eq_entryAt (metadata : Bytes) (blockOffset i : Nat) :
    segmentAt metadata (blockOffset + blockHeaderSize) i =
      entryAt metadata (blockOffset + 72 + 40 * i) := by
  have place : blockOffset + blockHeaderSize + segFirstEntryPayloadOffset + i * segEntryStride =
      blockOffset + 72 + 40 * i := by
    simp only [blockHeaderSize, segFirstEntryPayloadOffset, segEntryStride]
    omega
  -- the mask keeps the low 48 bits
  have mask : ∀ off, UInt64.ofNat (fieldAt 8 metadata off) &&& blockNumberMask =
      UInt64.ofNat (fieldAt 8 metadata off % 2 ^ 48) := by
    intro off
    apply UInt64.toNat_inj.mp
    rw [and_blockNumberMask, toNat_fieldAt_u64, UInt64.toNat_ofNat']
    omega
  unfold segmentAt entryAt
  simp only [place, mask]
  rfl

/-- With one, the entries are those of the block. -/
theorem SegmentBlockAt.segments (h : SegmentBlockAt metadata blockSize k) :
    segmentsOf metadata blockSize =
      (List.range (min (min (fieldAt 4 metadata (k * blockSize + 64)) 65536)
        ((blockSize - 72) / 40))).map fun i =>
          entryAt metadata (k * blockSize + 72 + 40 * i) := by
  have declared : (min (UInt32.ofNat (fieldAt 4 metadata (k * blockSize + blockHeaderSize)))
      maxSegments).toNat = min (fieldAt 4 metadata (k * blockSize + 64)) 65536 := by
    rw [UInt32.toNat_min, toNat_fieldAt_u32]
    rfl
  unfold segmentsOf
  rw [firstBlockOfType_eq_some.mpr h]
  simp only [declared]
  exact List.map_congr_left fun i _ => segmentAt_eq_entryAt metadata _ i

/-- A field of the block is the same in metadata that agrees on the block. -/
theorem fieldAt_of_agree {off width : Nat} (hlen : other.length = metadata.length)
    (hinside : off + width ≤ metadata.length)
    (agree : ∀ x, off ≤ x → x < off + width → other[x]? = metadata[x]?) :
    fieldAt width other off = fieldAt width metadata off := by
  apply fieldAt_congr (by omega) hinside
  apply List.ext_getElem?
  intro i
  rw [slice_getElem?, slice_getElem?]
  by_cases hi : i < width
  · rw [if_pos hi, if_pos hi, agree _ (by omega) (by omega)]
  · rw [if_neg hi, if_neg hi]

/-- Metadata that agrees on what the parser looks at has the same segments. -/
theorem SegmentBlockAt.segments_of_agree (h : SegmentBlockAt metadata blockSize k)
    (hlen : other.length = metadata.length)
    (agree : ∀ x, SegmentBytes blockSize k x → other[x]? = metadata[x]?) :
    segmentsOf other blockSize = segmentsOf metadata blockSize := by
  have hinside := h.inside
  rw [Nat.succ_mul] at hinside
  by_cases hroom : blockSize < 112
  -- no entry fits, whatever block it would be in
  · have none : ∀ bytes, segmentsOf bytes blockSize = [] := by
      intro bytes
      by_cases hblock : ∃ j, SegmentBlockAt bytes blockSize j
      · obtain ⟨j, hj⟩ := hblock
        rw [hj.segments, Nat.div_eq_of_lt (by omega), Nat.min_zero]
        rfl
      · exact segmentsOf_of_none hblock
    rw [none, none]
  have block : ∀ off width, off + width ≤ blockSize →
      fieldAt width other (k * blockSize + off) =
        fieldAt width metadata (k * blockSize + off) := by
    intro off width hle
    refine fieldAt_of_agree hlen (by omega) fun x hlow hhigh => agree x (.inl ⟨by omega, ?_⟩)
    rw [Nat.succ_mul]
    omega
  have earlier : ∀ j < k, blockTypeAt other blockSize j = blockTypeAt metadata blockSize j := by
    intro j hj
    have hbefore : (j + 1) * blockSize ≤ k * blockSize := Nat.mul_le_mul_right _ hj
    rw [Nat.succ_mul] at hbefore
    unfold blockTypeAt blockHeaderTypeOffset
    rw [fieldAt_of_agree hlen (by omega) fun x hlow hhigh =>
      agree x (.inr ⟨j, hj, hlow, by omega⟩)]
  -- so the search ends at the same block
  have hother : SegmentBlockAt other blockSize k :=
    { block_pos := h.block_pos
      inside := hlen ▸ h.inside
      block_type := by
        rw [← h.block_type, blockTypeAt, blockTypeAt, blockHeaderTypeOffset,
          block 10 2 (by omega)]
      first := fun j hj => by
        rw [earlier j hj]
        exact h.first j hj }
  rw [hother.segments, h.segments, block 64 4 (by omega)]
  apply List.map_congr_left
  intro i hi
  rw [List.mem_range] at hi
  unfold entryAt
  rw [show k * blockSize + 72 + 40 * i + 8 = k * blockSize + (80 + 40 * i) by omega,
    show k * blockSize + 72 + 40 * i + 32 = k * blockSize + (104 + 40 * i) by omega,
    show k * blockSize + 72 + 40 * i + 16 = k * blockSize + (88 + 40 * i) by omega,
    block _ 8 (by omega), block _ 8 (by omega), block _ 4 (by omega)]

end

/-! ## Rendered blocks -/

/-- An entry as it is written: with the volume index above its physical block, and with
the bytes no reader looks at. -/
structure SegmentRecord where
  entry : SegmentEntry
  volumeIndex : UInt16
  pad : ByteArr 8
  gap : ByteArr 12
  physical_lt : entry.physicalBlock.toNat < 2 ^ 48

/-- The 40 bytes of the entry. -/
def SegmentRecord.render (r : SegmentRecord) : Bytes :=
  r.pad.val ++ (leBytes 8 r.entry.logicalBlock.toNat ++
    (leBytes 4 r.entry.numberOfBlocks.toNat ++ (r.gap.val ++
      leBytes 8 (r.volumeIndex.toNat * 2 ^ 48 + r.entry.physicalBlock.toNat))))

/-- A segment-descriptor block: its type, the count, the entries, and whatever fills up
the header and the end of the block. -/
structure SegmentBlock where
  head : ByteArr 10
  middle : ByteArr 52
  unused : ByteArr 4
  records : List SegmentRecord
  padding : Bytes
  count_le : records.length ≤ 65536

namespace SegmentBlock

variable (block : SegmentBlock)

/-- The 72 bytes before the entries. -/
def lead : Bytes :=
  block.head.val ++ (leBytes 2 blockTypeSegmentDescriptor.toNat ++ (block.middle.val ++
    (leBytes 4 block.records.length ++ block.unused.val)))

def render : Bytes :=
  block.lead ++ (block.records.flatMap SegmentRecord.render ++ block.padding)

end SegmentBlock

theorem SegmentRecord.render_length (r : SegmentRecord) : r.render.length = 40 := by
  simp [render, r.pad.property, r.gap.property]

theorem SegmentBlock.lead_length (block : SegmentBlock) : block.lead.length = 72 := by
  simp [lead, block.head.property, block.middle.property, block.unused.property]

theorem SegmentBlock.render_length (block : SegmentBlock) :
    block.render.length = 72 + 40 * block.records.length + block.padding.length := by
  simp only [render, List.length_append, block.lead_length,
    flatMap_records_length SegmentRecord.render_length]
  omega

/-- A field in the middle of the text. -/
theorem fieldAt_middle {before text after : Bytes} {width n : Nat} (h : n < 256 ^ width)
    (htext : text = before ++ (leBytes width n ++ after)) :
    fieldAt width text before.length = n := by
  have hlen := leBytes_length width n
  subst htext
  apply fieldAt_of_slice _ h
  · rw [slice_append_right (le_refl _), Nat.sub_self, slice_append_left (by omega)]
    exact List.take_of_length_le (by rw [List.drop_zero, hlen])
  · simp only [List.length_append]
    omega

/-- An entry is read back from where it was written. -/
theorem SegmentRecord.entryAt_render (r : SegmentRecord) (before after : Bytes) :
    entryAt (before ++ (r.render ++ after)) before.length = r.entry := by
  have hvolume := r.volumeIndex.toNat_lt
  have hphysical := r.physical_lt
  have logical : fieldAt 8 (before ++ (r.render ++ after)) (before.length + 8) =
      r.entry.logicalBlock.toNat := by
    have place : (before ++ r.pad.val).length = before.length + 8 := by
      rw [List.length_append, r.pad.property]
    rw [← place]
    exact fieldAt_middle r.entry.logicalBlock.toNat_lt
      (by simp only [render, List.append_assoc]; rfl)
  have blocks : fieldAt 4 (before ++ (r.render ++ after)) (before.length + 16) =
      r.entry.numberOfBlocks.toNat := by
    have place : (before ++ (r.pad.val ++ leBytes 8 r.entry.logicalBlock.toNat)).length =
        before.length + 16 := by
      simp only [List.length_append, r.pad.property, leBytes_length]
    rw [← place]
    exact fieldAt_middle r.entry.numberOfBlocks.toNat_lt
      (by simp only [render, List.append_assoc]; rfl)
  have physical : fieldAt 8 (before ++ (r.render ++ after)) (before.length + 32) =
      r.volumeIndex.toNat * 2 ^ 48 + r.entry.physicalBlock.toNat := by
    have place : (before ++ (r.pad.val ++ (leBytes 8 r.entry.logicalBlock.toNat ++
        (leBytes 4 r.entry.numberOfBlocks.toNat ++ r.gap.val)))).length =
          before.length + 32 := by
      simp only [List.length_append, r.pad.property, r.gap.property, leBytes_length]
    rw [← place]
    exact fieldAt_middle (by omega) (by simp only [render, List.append_assoc]; rfl)
  -- the volume index is above the 48 bits that are kept
  unfold entryAt
  rw [logical, blocks, physical, Nat.mul_comm, Nat.mul_add_mod, Nat.mod_eq_of_lt hphysical,
    UInt64.ofNat_toNat, UInt64.ofNat_toNat, UInt32.ofNat_toNat]

/-- The text around one of the entries. -/
theorem SegmentBlock.render_split (block : SegmentBlock) (before after : Bytes) {i : Nat}
    (hi : i < block.records.length) :
    ∃ text rest, text.length = before.length + 72 + 40 * i ∧
      before ++ (block.render ++ after) = text ++ (block.records[i].render ++ rest) := by
  have split : block.records =
      block.records.take i ++ block.records[i] :: block.records.drop (i + 1) := by
    rw [← List.drop_eq_getElem_cons hi, List.take_append_drop]
  refine ⟨before ++ (block.lead ++ (block.records.take i).flatMap SegmentRecord.render),
    (block.records.drop (i + 1)).flatMap SegmentRecord.render ++ (block.padding ++ after), ?_, ?_⟩
  · rw [List.length_append, List.length_append, block.lead_length,
      flatMap_records_length SegmentRecord.render_length, List.length_take]
    omega
  · conv_lhs => rw [render, split]
    simp only [List.flatMap_append, List.flatMap_cons, List.append_assoc]

/-- The entries are read back from the block they were rendered into. -/
theorem SegmentBlock.segments_render (block : SegmentBlock) {before after : Bytes} {k : Nat}
    (hbefore : before.length = k * block.render.length)
    (first : ∀ j < k, blockTypeAt before block.render.length j ≠ blockTypeSegmentDescriptor) :
    segmentsOf (before ++ (block.render ++ after)) block.render.length =
      block.records.map (·.entry) := by
  have hlen := block.render_length
  have hcount := block.count_le
  have htype : fieldAt 2 (before ++ (block.render ++ after)) (before.length + 10) =
      blockTypeSegmentDescriptor.toNat := by
    have place : (before ++ block.head.val).length = before.length + 10 := by
      rw [List.length_append, block.head.property]
    rw [← place]
    exact fieldAt_middle (by decide) (by simp only [render, lead, List.append_assoc]; rfl)
  have hdeclared : fieldAt 4 (before ++ (block.render ++ after)) (before.length + 64) =
      block.records.length := by
    have place : (before ++ (block.head.val ++ (leBytes 2 blockTypeSegmentDescriptor.toNat ++
        block.middle.val))).length = before.length + 64 := by
      simp only [List.length_append, block.head.property, block.middle.property, leBytes_length]
    rw [← place]
    exact fieldAt_middle (by omega) (by simp only [render, lead, List.append_assoc]; rfl)
  have found : SegmentBlockAt (before ++ (block.render ++ after)) block.render.length k :=
    { block_pos := by omega
      inside := by
        simp only [List.length_append, hbefore, Nat.succ_mul]
        omega
      block_type := by
        rw [blockTypeAt, ← hbefore, blockHeaderTypeOffset, htype]
        rfl
      first := by
        intro j hj
        have hle : (j + 1) * block.render.length ≤ k * block.render.length :=
          Nat.mul_le_mul_right _ hj
        rw [Nat.succ_mul] at hle
        have same : fieldAt 2 (before ++ (block.render ++ after))
            (j * block.render.length + 10) = fieldAt 2 before (j * block.render.length + 10) := by
          apply fieldAt_congr
          · simp only [List.length_append]
            omega
          · omega
          · exact slice_append_left (by omega)
        rw [blockTypeAt, blockHeaderTypeOffset, same]
        exact first j hj }
  rw [found.segments, ← hbefore, hdeclared]
  -- the block was rendered with room for its records
  have room : min (min block.records.length 65536) ((block.render.length - 72) / 40) =
      block.records.length := by omega
  rw [room]
  apply List.ext_getElem?
  intro i
  rw [List.getElem?_map, List.getElem?_map]
  by_cases hi : i < block.records.length
  · rw [List.getElem?_range hi, List.getElem?_eq_getElem hi]
    obtain ⟨text, rest, hplace, htext⟩ := block.render_split before after hi
    rw [Option.map_some, Option.map_some, ← hplace, htext, SegmentRecord.entryAt_render]
  · rw [List.getElem?_eq_none (by rw [List.length_range]; omega),
      List.getElem?_eq_none (by omega)]
    rfl

/-! ## The parser -/

/-- What the parser makes of metadata at a block size: nothing without a segment block;
with one, as many entries as the least of the count, the cap and the room, each read
from its place inside the block, and the same entries whatever the other bytes are; and
from a rendered block the entries it was rendered from. No index it computes overflows. -/
structure ExactSegments (metadata : Bytes) (blockSize : Nat) : Prop where
  none : (¬ ∃ k, SegmentBlockAt metadata blockSize k) → parseSegments metadata blockSize = .ok []
  entries : ∀ k, SegmentBlockAt metadata blockSize k →
    ∃ entries, parseSegments metadata blockSize = .ok entries ∧
      entries.length = min (min (fieldAt 4 metadata (k * blockSize + 64)) 65536)
        ((blockSize - 72) / 40) ∧
      ∀ i < entries.length,
        entries[i]? = some (entryAt metadata (k * blockSize + 72 + 40 * i)) ∧
          k * blockSize + 72 + 40 * (i + 1) ≤ (k + 1) * blockSize
  confined : ∀ k, SegmentBlockAt metadata blockSize k → ∀ other : Bytes,
    other.length = metadata.length →
    (∀ x, SegmentBytes blockSize k x → other[x]? = metadata[x]?) →
    parseSegments other blockSize = parseSegments metadata blockSize
  rendered : ∀ (block : SegmentBlock) (before after : Bytes) (k : Nat),
    metadata = before ++ (block.render ++ after) → blockSize = block.render.length →
    before.length = k * blockSize →
    (∀ j < k, blockTypeAt before blockSize j ≠ blockTypeSegmentDescriptor) →
    parseSegments metadata blockSize = .ok (block.records.map (·.entry))

/-- The parser is exact on every metadata a slice can hold, at every block size. -/
theorem parseSegments_exact (metadata : Bytes) (blockSize : Nat)
    (hlen : metadata.length ≤ isizeMax) (hsize : blockSize < usizeSize) :
    ExactSegments metadata blockSize := by
  have parsed := parseSegments_eq hlen hsize
  constructor
  case none =>
    intro hnone
    rw [parsed, segmentsOf_of_none hnone]
  case entries =>
    intro k h
    refine ⟨_, parsed, by rw [h.segments]; simp, ?_⟩
    intro i hi
    rw [h.segments, List.length_map, List.length_range] at hi
    have hend : (k + 1) * blockSize = k * blockSize + blockSize := Nat.succ_mul _ _
    rw [h.segments, List.getElem?_map, List.getElem?_range hi]
    exact ⟨rfl, by omega⟩
  case confined =>
    intro k h other hsame agree
    rw [parsed, parseSegments_eq (by omega) hsize, h.segments_of_agree hsame agree]
  case rendered =>
    intro block before after k htext hblock hbefore first
    subst htext hblock
    rw [parsed, block.segments_render hbefore first]

/-- Two entries, the second with a volume index above its physical block. -/
def twoSegments : SegmentBlock where
  head := ⟨List.replicate 10 1, rfl⟩
  middle := ⟨List.replicate 52 2, rfl⟩
  unused := ⟨List.replicate 4 3, rfl⟩
  records := [
    ⟨⟨0, 16, 4⟩, 0, ⟨List.replicate 8 4, rfl⟩, ⟨List.replicate 12 5, rfl⟩, by decide⟩,
    ⟨⟨4, 99, 7⟩, 0x99, ⟨List.replicate 8 6, rfl⟩, ⟨List.replicate 12 7, rfl⟩, by decide⟩]
  padding := List.replicate 40 8
  count_le := by decide

theorem twoSegments_length : twoSegments.render.length = 192 := by
  rw [twoSegments.render_length]
  rfl

/-- The two segments are parsed behind a blank block. -/
theorem twoSegments_exact :
    ExactSegments (List.replicate 192 0 ++ twoSegments.render) twoSegments.render.length := by
  have usize := usizeSize_eq
  have isize := isizeMax_eq
  refine parseSegments_exact _ _ ?_ ?_
  · rw [List.length_append, List.length_replicate, twoSegments_length]
    omega
  · rw [twoSegments_length]
    omega

end FileVault
