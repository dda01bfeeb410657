import FileVault.Logic.Layout
import FileVault.Logic.Synthetic

/-!
# The read set of a parse

Which bytes `parse_info` reads is itself computed from bytes it has read. The
result is a function of those bytes alone, and an image that lacks one of them is
an error, never a partial result.
-/

namespace FileVault

open Lib

/-- The bytes of an image that a successful parse of it depends on. -/
def ReadSet (image : Bytes) (x : Nat) : Prop :=
  let layout := layoutOf image
  x < volumeHeaderLen ∨
    (layout.regionOffset ≤ x ∧
      x < layout.regionOffset + max layout.blockSize layout.regionSize) ∨
    (layout.primaryOffset ≤ x ∧ x < layout.primaryOffset + layout.length)

theorem readSet_iff_ranges (image : Bytes) (x : Nat) :
    ReadSet image x ↔ ∃ r ∈ (layoutOf image).ranges, r.1 ≤ x ∧ x < r.1 + r.2 := by
  simp only [ReadSet, Layout.ranges, List.exists_mem_cons_iff, List.not_mem_nil, false_and,
    exists_false, or_false]
  omega

/-- A stretch of another image with the same bytes. -/
theorem slice_congr {xs ys : Bytes} {off n : Nat}
    (h : ∀ i < n, xs[off + i]? = ys[off + i]?) : slice xs off n = slice ys off n := by
  apply List.ext_getElem?
  intro i
  rw [slice_getElem?, slice_getElem?]
  by_cases hi : i < n
  · rw [if_pos hi, if_pos hi, h i hi]
  · rw [if_neg hi, if_neg hi]

/-- Every range of an accepted image is inside it and not empty. -/
theorem Accepted.range_inside {image : Bytes} (h : Accepted image (layoutOf image)) :
    ∀ r ∈ (layoutOf image).ranges, 0 < r.2 ∧ r.1 + r.2 ≤ image.length := by
  have hheader := h.header_inside
  simp only [Layout.ranges, List.forall_mem_cons, List.not_mem_nil, false_implies, implies_true,
    and_true]
  exact ⟨⟨by decide, by omega⟩, ⟨h.block_pos, h.block_inside⟩, ⟨h.region_pos, h.region_inside⟩,
    Nat.mul_pos h.count_pos h.block_pos, h.primary_inside⟩

/-- An image that agrees on the read set has all of its ranges. -/
theorem Accepted.range_of_agree {image other : Bytes} (h : Accepted image (layoutOf image))
    (agree : ∀ x, ReadSet image x → other[x]? = image[x]?) :
    ∀ r ∈ (layoutOf image).ranges, r.1 + r.2 ≤ other.length := by
  intro r hr
  obtain ⟨hpos, hinside⟩ := h.range_inside r hr
  -- with its last byte the image has the whole range
  have last := agree (r.1 + r.2 - 1)
    ((readSet_iff_ranges _ _).mpr ⟨r, hr, by omega, by omega⟩)
  rw [List.getElem?_eq_getElem (l := image) (by omega), List.getElem?_eq_some_iff] at last
  obtain ⟨hlt, -⟩ := last
  omega

/-- The metadata of an image is a function of its read set. -/
theorem loadMetadata_of_agree (crates : Crates) {image other : Bytes}
    (h : Accepted image (layoutOf image))
    (agree : ∀ x, ReadSet image x → other[x]? = image[x]?) :
    loadMetadata crates other = loadMetadata crates image := by
  have same : ∀ r ∈ (layoutOf image).ranges, r.1 + r.2 ≤ other.length →
      slice other r.1 r.2 = slice image r.1 r.2 := by
    intro r hr _
    apply slice_congr
    intro i hi
    exact agree _ ((readSet_iff_ranges _ _).mpr ⟨r, hr, by omega, by omega⟩)
  rw [h.load_of_same crates same, if_pos (h.range_of_agree agree), h.load]

/-- Cutting a byte of the read set off makes loading fail with the short read. -/
theorem loadMetadata_take (crates : Crates) {image : Bytes} {n x : Nat}
    (h : Accepted image (layoutOf image)) (hx : ReadSet image x) (hcut : n ≤ x) :
    loadMetadata crates (image.take n) = fail (.io .unexpectedEof) := by
  have same : ∀ r ∈ (layoutOf image).ranges, r.1 + r.2 ≤ (image.take n).length →
      slice (image.take n) r.1 r.2 = slice image r.1 r.2 := by
    intro r _ hle
    rw [List.length_take] at hle
    exact slice_take (by omega)
  rw [h.load_of_same crates same, if_neg]
  intro hall
  obtain ⟨r, hr, -, hlt⟩ := (readSet_iff_ranges _ _).mp hx
  have := hall r hr
  rw [List.length_take] at this
  omega

/-- A successful parse depends on its read set only, and every truncation that
takes a byte of the read set away is the I/O error of a short read. -/
theorem parseInfo_readSet (crates : Crates) {reader : Reader} {info : FileVaultInfo}
    (healthy : reader.Healthy) (h : parseInfo crates reader = .ok info) :
    (∀ other : Reader, other.Healthy →
      (∀ x, ReadSet reader.data x → other.data[x]? = reader.data[x]?) →
      parseInfo crates other = .ok info) ∧
    (∀ (other : Reader) (n : Nat), other.Healthy → other.data = reader.data.take n →
      (∃ x, ReadSet reader.data x ∧ n ≤ x) →
      parseInfo crates other = fail (.io .unexpectedEof)) := by
  rw [parseInfo_healthy crates healthy] at h
  obtain ⟨loaded, hload, -⟩ := bind_eq_ok.mp h
  have accepted := accepted_of_load hload
  constructor
  · intro other hother agree
    rw [parseInfo_healthy crates hother, loadMetadata_of_agree crates accepted agree]
    exact h
  · rintro other n hother hdata ⟨x, hx, hcut⟩
    rw [parseInfo_healthy crates hother, hdata, loadMetadata_take crates accepted hx hcut]
    rfl

/-- The synthetic image, in memory. -/
def syntheticReader : Reader := .cursor (Fixture.synthetic.buildImage standardCrates)

theorem parseInfo_syntheticReader :
    parseInfo standardCrates syntheticReader = .ok (Fixture.synthetic.info standardCrates) :=
  Fixture.parseInfo_buildImage standardCrates_lawful Fixture.synthetic_fits
    Fixture.synthetic_placed (by decide) (Reader.healthy_cursor _) (by rw [syntheticReader]; rfl)

/-- A parse of the synthetic image reads its header, the block of the region and the four blocks of
metadata. -/
theorem readSet_synthetic {x : Nat} (h : ReadSet syntheticReader.data x) :
    x < 512 ∨ (4096 ≤ x ∧ x < 8192) ∨ (32768 ≤ x ∧ x < 49152) := by
  have layout : layoutOf syntheticReader.data = _ :=
    Fixture.layoutOf_buildImage Fixture.synthetic_fits Fixture.synthetic_placed
  rw [ReadSet, layout] at h
  have start : Fixture.synthetic.regionStart = 4096 := by decide
  have region : max Fixture.synthetic.blockSize.toNat
      Fixture.synthetic.regionSize.toNat = 4096 := by
    decide
  have metadata : Fixture.synthetic.metadataBlock.toNat % 2 ^ 48 *
      Fixture.synthetic.blockSize.toNat = 32768 := by decide
  have length : Fixture.synthetic.metadataBlocks * Fixture.synthetic.blockSize.toNat = 16384 := by
    decide
  have header : volumeHeaderLen = 512 := rfl
  simp only [Layout.primaryOffset, Layout.length] at h
  omega

/-- The synthetic image parses, and depends on its read set alone. -/
theorem parseInfo_synthetic_readSet :
    (∀ other : Reader, other.Healthy →
      (∀ x, ReadSet syntheticReader.data x → other.data[x]? = syntheticReader.data[x]?) →
      parseInfo standardCrates other = .ok (Fixture.synthetic.info standardCrates)) ∧
    (∀ (other : Reader) (n : Nat), other.Healthy → other.data = syntheticReader.data.take n →
      (∃ x, ReadSet syntheticReader.data x ∧ n ≤ x) →
      parseInfo standardCrates other = fail (.io .unexpectedEof)) :=
  parseInfo_readSet standardCrates (Reader.healthy_cursor _) parseInfo_syntheticReader

end FileVault
