import FileVault.Logic.Synthetic

/-!
# The segment map and what is read

A segment maps its logical blocks to physical ones. `read_at` knows the first
segment only, and of that one only where it begins physically: logical byte `x` is
taken from the physical base plus `x`, whatever the map says about `x`. So what is
read is what the map says exactly when every byte that can be read is covered, and
decrypts to the same value at both addresses.
-/

namespace FileVault

open Lib

namespace SegmentEntry

/-- The logical bytes of a segment. -/
def Covers (s : SegmentEntry) (blockSize x : Nat) : Prop :=
  s.logicalBlock.toNat * blockSize ≤ x ∧
    x < (s.logicalBlock.toNat + s.numberOfBlocks.toNat) * blockSize

/-- The physical address of logical byte `x` of a segment. -/
def address (s : SegmentEntry) (blockSize x : Nat) : Nat :=
  s.physicalBlock.toNat * blockSize + (x - s.logicalBlock.toNat * blockSize)

end SegmentEntry

/-- Logical byte `x`, decrypted where its physical byte is at `address`: the sector of
ciphertext around it, with the logical sector number as tweak. -/
def mappedByte? (crates : Crates) (keys : VolumeKeys) (image : Bytes) (address x : Nat) :
    Option UInt8 :=
  if x % sectorSize ≤ address then
    (crates.decryptSector keys.vmk keys.tweakKey (x / sectorSize)
      (sliceD image (address - x % sectorSize) sectorSize 0))[x % sectorSize]?
  else none

/-- Every byte that a read returns is the one the segment map puts there, and no byte
that the map leaves out is ever returned. -/
def SegmentFaithful (crates : Crates) (vol : DecryptedVolume) (segments : List SegmentEntry)
    (blockSize : Nat) : Prop :=
  ∀ (offset : UInt64) (buf : Bytes) (n : Nat) (buf' : Bytes) (vol' : DecryptedVolume),
    vol.readAt crates offset buf = (.ok n, buf', vol') → ∀ i < n,
      ∃ s ∈ segments, s.Covers blockSize (offset.toNat + i) ∧
        buf'[i]? = mappedByte? crates vol.keys vol.reader.data
          (s.address blockSize (offset.toNat + i)) (offset.toNat + i)

/-- The plaintext of a volume is mapped linearly. -/
theorem mappedByte?_linear (crates : Crates) (keys : VolumeKeys) (image : Bytes)
    (base x : Nat) :
    mappedByte? crates keys image (base + x) x = plainByte? crates keys image base x := by
  have hplace : base + x - x % sectorSize = base + sectorSize * (x / sectorSize) := by
    have := Nat.div_add_mod x sectorSize
    omega
  have hle : x % sectorSize ≤ x := Nat.mod_le _ _
  rw [mappedByte?, if_pos (by omega), hplace]
  rfl

section

variable {crates : Crates} {reader : Reader} {password : String} {vol : FileVaultVolume}

/-- A volume is faithful to its segment map when every byte that can be read is covered
and has the same value at both of its addresses. -/
theorem Unlocked.segmentFaithful_of_agree (healthy : reader.Healthy)
    (run : Unlocked crates reader password vol)
    (agree : ∀ x < run.size,
      (x + sectorSize < usizeSize ∨ run.base + sectorSize < usizeSize) →
      ∃ s ∈ run.segments, s.Covers run.blockSize x ∧
        mappedByte? crates run.keys reader.data (s.address run.blockSize x) x =
          mappedByte? crates run.keys reader.data (run.base + x) x) :
    SegmentFaithful crates vol.decrypted run.segments run.blockSize := by
  have follows := run.follows healthy
  intro offset buf n buf' vol' hread i hi
  obtain ⟨⟨hx, hroom⟩, hplain⟩ := DecryptedVolume.readAt_byte follows.healthy hread hi
  rw [run.size_eq] at hx
  rw [run.physicalBase_eq] at hroom
  rw [run.keys_eq, follows.data, run.physicalBase_eq] at hplain
  obtain ⟨s, hs, hcovers, hsame⟩ := agree _ hx hroom
  refine ⟨s, hs, hcovers, ?_⟩
  rw [hplain, run.keys_eq, follows.data, hsame, mappedByte?_linear]

/-- A volume in one segment is read faithfully: the entry starts at logical block 0, has an
address, and holds the whole volume. -/
theorem Unlocked.segmentFaithful_of_single (healthy : reader.Healthy)
    (run : Unlocked crates reader password vol) {first : SegmentEntry}
    (hfirst : run.segments.head? = some first) (hlogical : first.logicalBlock = 0)
    (haddress : first.physicalBlock.toNat * run.blockSize < usizeSize)
    (hsize : run.size ≤ first.numberOfBlocks.toNat * run.blockSize) :
    SegmentFaithful crates vol.decrypted run.segments run.blockSize := by
  have hbase := run.base_of_first hfirst haddress
  refine run.segmentFaithful_of_agree healthy fun x hx _ =>
    ⟨first, List.mem_of_head? hfirst, ?_, ?_⟩
  · simp only [SegmentEntry.Covers, hlogical, UInt64.toNat_zero, Nat.zero_mul, Nat.zero_add]
    omega
  · simp only [SegmentEntry.address, hlogical, UInt64.toNat_zero, Nat.zero_mul, Nat.sub_zero,
      hbase]

/-- What is read of an unlocked volume is what its segment map says exactly when every
logical byte that can be read is covered by an entry at whose address it decrypts to
the same value as at the physical base of the first entry plus its own offset. -/
theorem readAt_segmentFaithful_iff (healthy : reader.Healthy)
    (run : Unlocked crates reader password vol) :
    SegmentFaithful crates vol.decrypted run.segments run.blockSize ↔
      ∀ x < run.size,
        (x + sectorSize < usizeSize ∨ run.base + sectorSize < usizeSize) →
        ∃ s ∈ run.segments, s.Covers run.blockSize x ∧
          mappedByte? crates run.keys reader.data (s.address run.blockSize x) x =
            mappedByte? crates run.keys reader.data (run.base + x) x := by
  have follows := run.follows healthy
  refine ⟨?_, run.segmentFaithful_of_agree healthy⟩
  intro faithful x hx hroom
  -- some read gives the byte out, so it is covered and of the value read
  obtain ⟨offset, buf, n, buf', vol', i, hread, hi, rfl⟩ :=
    DecryptedVolume.readAt_readable crates follows.healthy (x := x)
      ⟨by rw [run.size_eq]; exact hx, by rw [run.physicalBase_eq]; exact hroom⟩
  obtain ⟨s, hs, hcovers, hbyte⟩ := faithful offset buf n buf' vol' hread i hi
  have hplain := (DecryptedVolume.readAt_byte follows.healthy hread hi).2
  rw [hbyte, run.keys_eq, follows.data, run.physicalBase_eq, ← mappedByte?_linear] at hplain
  exact ⟨s, hs, hcovers, hplain⟩

end

/-- The synthetic image is read as its segment map says. -/
theorem readAt_segmentFaithful_synthetic :
    ∃ vol, ∃ run : Unlocked standardCrates
        (.cursor (Fixture.synthetic.buildImage standardCrates)) Fixture.synthetic.password vol,
      SegmentFaithful standardCrates vol.decrypted run.segments run.blockSize := by
  obtain ⟨vol, run, hsegments, hblock, -, hsize, -⟩ := Fixture.unlocked_buildImage
    standardCrates_lawful Fixture.synthetic_fits Fixture.synthetic_placed (by decide) (by decide)
  have hbase := run.base_of_first
    (show run.segments.head? = some Fixture.synthetic.segment by rw [hsegments]; rfl)
    (by rw [hblock]; decide)
  refine ⟨vol, run, (readAt_segmentFaithful_iff (Reader.healthy_cursor _) run).mpr ?_⟩
  rw [hsegments, hblock, hsize, hbase, hblock]
  intro x hx _
  have hlogical : Fixture.synthetic.segment.logicalBlock.toNat = 0 := rfl
  have hcount : Fixture.synthetic.segment.numberOfBlocks.toNat *
      Fixture.synthetic.blockSize.toNat = Fixture.synthetic.lvSize.toNat := by decide
  refine ⟨_, List.mem_singleton_self _, ⟨?_, ?_⟩, ?_⟩
  · rw [hlogical, Nat.zero_mul]
    exact Nat.zero_le x
  · rw [hlogical, Nat.zero_add, hcount]
    exact hx
  · rw [SegmentEntry.address, hlogical, Nat.zero_mul, Nat.sub_zero]

/-! ## A volume larger than its segment -/

/-- The synthetic image with a volume twice the size of its one segment. -/
def oversized : Fixture := { Fixture.synthetic with lvSize := 0x8000, lvPlain := [] }

theorem oversized_fits : oversized.Fits standardCrates where
  context_fits := by
    rw [show (oversized.contextPlist standardCrates).length = 1101 from
      Fixture.synthetic_contextPlist_length standardCrates_lawful]
    decide
  lv_fits := by
    rw [show (oversized.lvPlist standardCrates).length = 379 by decide +kernel]
    decide
  segment_fits := by decide
  status_clean := by decide
  name_clean := by decide
  identifier_clean := by decide
  blocks_min := by decide
  blocks_max := by decide

/-- The oversized volume unlocks, and bytes past its segment are answered with data. -/
theorem oversized_not_segmentFaithful :
    ∃ vol, ∃ run : Unlocked standardCrates (.cursor (oversized.buildImage standardCrates))
        oversized.password vol,
      ¬ SegmentFaithful standardCrates vol.decrypted run.segments run.blockSize := by
  obtain ⟨vol, run, hsegments, hblock, -, hsize, -⟩ := Fixture.unlocked_buildImage
    standardCrates_lawful oversized_fits { Fixture.synthetic_placed with lv_apart := .inl rfl }
    (by decide) (by decide)
  have reads := (run.follows (Reader.healthy_cursor _)).healthy
  have readable : vol.decrypted.Readable 0x4000 :=
    ⟨by rw [run.size_eq, hsize]; decide, .inl (by decide)⟩
  refine ⟨vol, run, ?_⟩
  intro faithful
  obtain ⟨offset, buf, n, buf', vol', i, hread, hi, hx⟩ :=
    DecryptedVolume.readAt_readable standardCrates reads readable
  obtain ⟨s, hs, hcovers, -⟩ := faithful offset buf n buf' vol' hread i hi
  rw [hsegments, List.mem_singleton] at hs
  rw [hs, hblock, hx] at hcovers
  exact absurd hcovers.2 (by decide)

end FileVault
