import FileVault.Logic.Layout

/-!
# Images with other metadata

Where the encrypted metadata lies apart from what is read before it, any bytes can stand in its
place: the header, the pointer block and the region stay as they are, and what is loaded is what
the bytes decrypt to.
-/

namespace FileVault

open Lib

section

variable {image other : Bytes}

/-- The checks and the layout of an image are those of its header, pointer block and region. -/
theorem Accepted.of_same_front (h : Accepted image (layoutOf image))
    (hlen : other.length = image.length)
    (header : slice other 0 volumeHeaderLen = slice image 0 volumeHeaderLen)
    (block : slice other (layoutOf image).regionOffset (layoutOf image).blockSize =
      (layoutOf image).firstBlock image)
    (region : slice other (layoutOf image).regionOffset (layoutOf image).regionSize =
      (layoutOf image).region image) :
    layoutOf other = layoutOf image ∧ VolumeHeader.ofFields other = .ofFields image ∧
      Accepted other (layoutOf other) := by
  have inside := h.header_inside
  have inside' : volumeHeaderLen ≤ other.length := by omega
  have field : ∀ width off, off + width ≤ volumeHeaderLen →
      fieldAt width other off = fieldAt width image off := by
    intro width off hle
    have same := congrArg (fun front => slice front off width) header
    simp only [slice_slice hle, Nat.zero_add] at same
    exact fieldAt_congr (by omega) (by omega) same
  have fields : VolumeHeader.ofFields other = .ofFields image := by
    rw [← ofFields_slice inside', header, ofFields_slice inside]
  have layout : layoutOf other = layoutOf image := by
    have block' : slice other (saturatingMul (fieldAt 8 image 104) (fieldAt 4 image 96))
        (fieldAt 4 image 96) = slice image (saturatingMul (fieldAt 8 image 104)
          (fieldAt 4 image 96)) (fieldAt 4 image 96) := block
    have region' : slice other (saturatingMul (fieldAt 8 image 104) (fieldAt 4 image 96))
        (layoutOf image).regionSize = slice image (saturatingMul (fieldAt 8 image 104)
          (fieldAt 4 image 96)) (layoutOf image).regionSize := region
    unfold layoutOf at region' ⊢
    simp only at region' ⊢
    rw [field 4 96 (by decide), field 8 104 (by decide), block', region']
  refine ⟨layout, fields, ?_⟩
  rw [layout]
  exact { h with
    header_inside := inside'
    signature := by rw [field 2 88 (by decide)]; exact h.signature
    method := by rw [field 4 172 (by decide)]; exact h.method
    block_inside := by rw [hlen]; exact h.block_inside
    block_type := by rw [Layout.firstBlock, block]; exact h.block_type
    region_inside := by rw [hlen]; exact h.region_inside
    region_type := by rw [Layout.region, region]; exact h.region_type
    descriptor_inside := by rw [Layout.region, region]; exact h.descriptor_inside
    primary_inside := by rw [hlen]; exact h.primary_inside }

end

/-- Nothing that is read before the encrypted metadata is part of it. -/
def MetadataApart (image : Bytes) : Prop :=
  let layout := layoutOf image
  volumeHeaderLen ≤ layout.primaryOffset ∧
    (layout.primaryOffset + layout.length ≤ layout.regionOffset ∨
      layout.regionOffset + max layout.blockSize layout.regionSize ≤ layout.primaryOffset)

/-- The image with these bytes in the place of its encrypted metadata. -/
def withMetadata (image cipher : Bytes) : Bytes :=
  splice image (layoutOf image).primaryOffset cipher

/-- The bytes in place of the encrypted metadata are what is decrypted then, under the same keys. -/
theorem loadMetadata_withMetadata (crates : Crates) {image cipher : Bytes}
    (h : Accepted image (layoutOf image)) (apart : MetadataApart image)
    (hlen : cipher.length = (layoutOf image).length) :
    loadMetadata crates (withMetadata image cipher) = do
      let plaintext ← decryptMetadata crates (.ofFields image) cipher
      return (.ofFields image, plaintext) := by
  obtain ⟨behind_header, apart_region⟩ := apart
  have inside : (layoutOf image).primaryOffset + cipher.length ≤ image.length := by
    rw [hlen]
    exact h.primary_inside
  obtain ⟨layout, fields, accepted⟩ := h.of_same_front (splice_length inside)
    (slice_splice_disjoint inside (by omega)) (slice_splice_disjoint inside (by omega))
    (slice_splice_disjoint inside (by omega))
  have found : slice (withMetadata image cipher) (layoutOf image).primaryOffset
      (layoutOf image).length = cipher := by
    rw [← hlen]
    exact slice_splice_self inside
  rw [withMetadata, accepted.load, layout, fields]
  show (decryptMetadata _ _ (slice (withMetadata image cipher) _ _) >>= _) = _
  rw [found]

/-- What is loaded from an image with other metadata is what these bytes decrypt to. -/
theorem loadMetadata_withMetadata_iff {crates : Crates} {image cipher plain : Bytes}
    (h : Accepted image (layoutOf image)) (apart : MetadataApart image)
    (hlen : cipher.length = (layoutOf image).length) :
    loadMetadata crates (withMetadata image cipher) = .ok (.ofFields image, plain) ↔
      decryptMetadata crates (.ofFields image) cipher = .ok plain := by
  rw [loadMetadata_withMetadata crates h apart hlen]
  cases decryptMetadata crates (.ofFields image) cipher with
  | error stop => simp
  | ok plain' => simp

end FileVault
