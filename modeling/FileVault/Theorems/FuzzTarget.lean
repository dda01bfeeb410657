import FileVault.Core.Fuzz
import FileVault.Logic.Requests
import FileVault.Theorems.PanicFree

/-!
# What fuzzing can find

The target is to panic on no input. Each stage that it calls by itself keeps to that, whatever the
bytes are taken for; the whole parse does not, and the inputs that show it are the images whose
metadata is ragged.
-/

namespace FileVault

theorem dropped_of_ne {α : Type} {call : Run α} (h : call ≠ panicked) : dropped call = .ok () := by
  unfold dropped
  split
  · rfl
  · rfl
  · exact absurd rfl h

/-- The stages behind the header, whatever the header is. -/
theorem fuzzHeader_ok (data : Bytes) : fuzzHeader data = .ok () := by
  have header : VolumeHeader.parse data ≠ panicked := by
    rw [VolumeHeader.parse_eq]
    split_ifs <;> simp
  unfold fuzzHeader
  split
  · next header _ =>
      rw [dropped_of_ne (plaintextMetadataSize_ne_panicked header data), ok_bind]
      exact dropped_of_ne (locateEncryptedMetadata_ne_panicked header data)
  · rfl
  · next heq => exact absurd heq header

/-- The stages that take the input for metadata, at the two block sizes. -/
theorem fuzzStages_ok (crates : Crates) {data : Bytes} (hlen : data.length ≤ isizeMax) :
    dropped (parseSegments data 4096) = .ok () ∧ dropped (parseSegments data 0) = .ok () ∧
      dropped (EncryptionContext.extract crates data) = .ok () ∧
      dropped (LogicalVolumeInfo.extract data) = .ok () := by
  have segments : ∀ blockSize, blockSize < usizeSize →
      dropped (parseSegments data blockSize) = .ok () := by
    intro blockSize hsize
    rw [parseSegments_eq hlen hsize]
    rfl
  exact ⟨segments 4096 (by decide), segments 0 (by decide),
    dropped_of_ne (EncryptionContext.extract_ne_panicked crates data),
    dropped_of_ne (LogicalVolumeInfo.extract_ne_panicked data)⟩

/-- Each stage that the target calls by itself returns whatever the input is; the target panics
where the parse of the input as an image does, and nowhere else. -/
theorem fuzzMetadata_outcome (crates : Crates) {data : Bytes} (hlen : data.length ≤ isizeMax) :
    (fuzzHeader data = .ok () ∧ dropped (parseSegments data 4096) = .ok () ∧
      dropped (parseSegments data 0) = .ok () ∧
      dropped (EncryptionContext.extract crates data) = .ok () ∧
      dropped (LogicalVolumeInfo.extract data) = .ok ()) ∧
      (fuzzMetadata crates data = panicked ↔ RaggedMetadata data) ∧
      (fuzzMetadata crates data = .ok () ↔ ¬ RaggedMetadata data) := by
  obtain ⟨blocks, empty, context, volume⟩ := fuzzStages_ok crates hlen
  have target : fuzzMetadata crates data = dropped (parseInfo crates (.cursor data)) := by
    unfold fuzzMetadata
    rw [fuzzHeader_ok, blocks, empty, context, volume]
    exact bind_pure _
  refine ⟨⟨fuzzHeader_ok data, blocks, empty, context, volume⟩, ?_⟩
  rw [target, ← parseInfo_panicked_iff crates]
  by_cases panics : parseInfo crates (.cursor data) = panicked
  · rw [panics]
    simp [dropped, panicked]
  · rw [dropped_of_ne panics]
    simp [panics]

/-- A unit and a byte more are found, in the parse and in no stage by itself. -/
theorem fuzzMetadata_raggedImage :
    (fuzzHeader raggedImage = .ok () ∧ dropped (parseSegments raggedImage 4096) = .ok () ∧
      dropped (parseSegments raggedImage 0) = .ok () ∧
      dropped (EncryptionContext.extract standardCrates raggedImage) = .ok () ∧
      dropped (LogicalVolumeInfo.extract raggedImage) = .ok ()) ∧
      (fuzzMetadata standardCrates raggedImage = panicked ↔ RaggedMetadata raggedImage) ∧
      (fuzzMetadata standardCrates raggedImage = .ok () ↔ ¬ RaggedMetadata raggedImage) :=
  fuzzMetadata_outcome standardCrates (by rw [raggedImage_length]; decide)

end FileVault
