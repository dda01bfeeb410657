import FileVault.Lib.Traced
import FileVault.Logic.Load

/-!
# The buffers that `decrypt_metadata_region` asks for

Three lengths come from the image: the block size, the size of the plaintext region
and the length of the encrypted metadata. Each is the length of a buffer that is
allocated before the read that fills it. The traced run notes these lengths; over an
image they are the ones its fields spell, as far as the run gets.
-/

namespace FileVault

open Lib

/-- `vec![0u8; n]`, noted. -/
def vecRequested (n : Nat) : Traced Nat Stop Bytes := .noting n (vecZeroed n)

/-- `decrypt_metadata_region` with the buffers it asks for. -/
def decryptMetadataRegionTraced (crates : Crates) (reader : Reader) (header : VolumeHeader) :
    Traced Nat Stop (Bytes × Reader) := do
  let (regionOffset, _) := plaintextMetadataRegion header
  let blockSize := header.blockSize.toNat
  if blockSize = 0 then
    .of (fail (.outOfRange "block size is zero"))
  else
    let firstBlock ← vecRequested blockSize
    let (firstBlock, reader) ← .of (seekRead reader regionOffset firstBlock)
    let regionSize ← .of (plaintextMetadataSize header firstBlock)
    let region ← vecRequested regionSize
    let (region, reader) ← .of (seekRead reader regionOffset region)
    let location ← .of (locateEncryptedMetadata header region)
    let ciphertext ← vecRequested location.length
    let (ciphertext, reader) ← .of (seekRead reader location.primaryOffset ciphertext)
    let plaintext ← .of (decryptMetadata crates header ciphertext)
    return (plaintext, reader)

/-- The trace is one of the run itself. -/
theorem decryptMetadataRegionTraced_result (crates : Crates) (reader : Reader)
    (header : VolumeHeader) :
    (decryptMetadataRegionTraced crates reader header).result =
      decryptMetadataRegion crates reader header := by
  unfold decryptMetadataRegionTraced decryptMetadataRegion
  by_cases hzero : header.blockSize.toNat = 0
  · simp only [if_pos hzero, Traced.of_result]
  · simp only [if_neg hzero, Traced.bind_result, Traced.of_result, Traced.pure_result,
      vecRequested, Traced.noting_result, seekRead, bind_assoc]
    rfl

/-- The lengths of the buffers that a run asks for, in order. -/
def regionRequests (crates : Crates) (reader : Reader) (header : VolumeHeader) : List Nat :=
  (decryptMetadataRegionTraced crates reader header).log

/-! ## Over an image -/

/-- The size of the plaintext region that the pointer block of the image gives. -/
def imageRegionSize (header : VolumeHeader) (image : Bytes) : Run Nat := do
  let (regionOffset, _) := plaintextMetadataRegion header
  if header.blockSize.toNat = 0 then
    fail (.outOfRange "block size is zero")
  else
    let firstBlock ← imageRange image regionOffset header.blockSize.toNat
    plaintextMetadataSize header firstBlock

/-- A length that the fields of the image spell, where decoding them gets that far. -/
def Spelled (header : VolumeHeader) (image : Bytes) (n : Nat) : Prop :=
  n = header.blockSize.toNat ∨ imageRegionSize header image = .ok n ∨
    ∃ location, imageLocation header image = .ok location ∧ n = location.length

/-- A seek and an exact read that succeed deliver the range of the image. -/
theorem seekRead_ok {reader reader' : Reader} {offset n : Nat} {bytes : Bytes} (hn : 0 < n)
    (h : seekRead reader offset (List.replicate n 0) = .ok (bytes, reader')) :
    imageRange reader.data offset n = .ok bytes ∧ reader'.data = reader.data := by
  rcases seekRead_outcome reader offset hn with ⟨reader'', serves, heq⟩ | ⟨e, -, -, heq⟩
  · rw [heq] at h
    obtain ⟨bytes', hrange, hok⟩ := bind_eq_ok.mp h
    simp only [Except.ok.injEq, Prod.mk.injEq] at hok
    obtain ⟨rfl, rfl⟩ := hok
    exact ⟨hrange, serves.data⟩
  · simp [heq, fail] at h

/-- Over a healthy reader every range of the image is delivered. -/
theorem seekRead_healthy {reader : Reader} (healthy : reader.Healthy) {offset n : Nat}
    {bytes : Bytes} (hn : 0 < n) (hrange : imageRange reader.data offset n = .ok bytes) :
    ∃ reader', reader.Follows reader' ∧
      seekRead reader offset (List.replicate n 0) = .ok (bytes, reader') := by
  rcases seekRead_outcome reader offset hn with ⟨reader', serves, heq⟩ | ⟨_, _, failed, -⟩
  · exact ⟨reader', serves.follows healthy, by rw [heq, hrange]; rfl⟩
  · exact absurd failed healthy.not_failed

/-- The encrypted metadata that is located fits a Rust object. -/
theorem location_length_le {header : VolumeHeader} {region : Bytes}
    {location : EncryptedMetadataLocation}
    (h : locateEncryptedMetadata header region = .ok location) : location.length ≤ isizeMax := by
  have hbs := header.blockSize.toNat_lt
  have isize := isizeMax_eq
  obtain ⟨-, hcap, hlen⟩ := locateEncryptedMetadata_ok h
  have hlt := Nat.mul_le_mul_right header.blockSize.toNat hcap
  omega

/-- What a run asks for, the image spells. -/
theorem spelled_of_requested {crates : Crates} {reader : Reader} {header : VolumeHeader} {n : Nat}
    (h : n ∈ regionRequests crates reader header) : Spelled header reader.data n := by
  have hbs := header.blockSize.toNat_lt
  have isize := isizeMax_eq
  unfold regionRequests decryptMetadataRegionTraced at h
  by_cases hzero : header.blockSize.toNat = 0
  · simp [if_pos hzero] at h
  have hpos := Nat.pos_of_ne_zero hzero
  simp only [if_neg hzero, Traced.mem_bind_log, vecRequested, Traced.noting_log,
    Traced.noting_result, Traced.of_log, Traced.of_result, Traced.pure_log, List.mem_singleton,
    List.not_mem_nil, false_or, or_false, and_false, exists_false] at h
  -- the first buffer, or one that is asked for after the first read
  rcases h with rfl | ⟨zeros, hzeros, ⟨firstBlock, reader₁⟩, hread, size, hsize, h⟩
  · exact .inl rfl
  rw [vecZeroed_eq (by omega)] at hzeros
  obtain rfl := Except.ok.inj hzeros
  obtain ⟨hfirst, hdata⟩ := seekRead_ok hpos hread
  have hregionSize : imageRegionSize header reader.data = .ok size := by
    unfold imageRegionSize
    simp only [if_neg hzero, hfirst, ok_bind, hsize]
  rcases h with rfl | ⟨zeros, hzeros, ⟨region, reader₂⟩, hread', location, hlocate, rfl⟩
  · exact .inr (.inl hregionSize)
  obtain ⟨hsizePos, hsizeLt⟩ := plaintextMetadataSize_ok hsize
  rw [vecZeroed_eq (by omega)] at hzeros
  obtain rfl := Except.ok.inj hzeros
  obtain ⟨hregion, -⟩ := seekRead_ok hsizePos hread'
  rw [hdata] at hregion
  refine .inr (.inr ⟨location, ?_, rfl⟩)
  unfold imageLocation
  simp only [if_neg hzero, hfirst, ok_bind, hsize, hregion, hlocate]

/-- Over a healthy reader what is spelled is asked for, unless the block size is zero. -/
theorem requested_of_spelled (crates : Crates) {reader : Reader} (healthy : reader.Healthy)
    {header : VolumeHeader} {n : Nat} (hzero : header.blockSize.toNat ≠ 0)
    (h : Spelled header reader.data n) : n ∈ regionRequests crates reader header := by
  have hbs := header.blockSize.toNat_lt
  have isize := isizeMax_eq
  have hpos := Nat.pos_of_ne_zero hzero
  unfold regionRequests decryptMetadataRegionTraced
  simp only [if_neg hzero, Traced.mem_bind_log, vecRequested, Traced.noting_log,
    Traced.noting_result, Traced.of_log, Traced.of_result, Traced.pure_log, List.mem_singleton,
    List.not_mem_nil, false_or, or_false, and_false, exists_false]
  rcases h with rfl | hsize | ⟨location, hlocation, rfl⟩
  · exact .inl rfl
  · unfold imageRegionSize at hsize
    simp only [if_neg hzero] at hsize
    obtain ⟨firstBlock, hfirst, hsize⟩ := bind_eq_ok.mp hsize
    obtain ⟨reader₁, -, hread⟩ := seekRead_healthy healthy hpos hfirst
    exact .inr ⟨_, vecZeroed_eq (by omega), _, hread, n, hsize, .inl rfl⟩
  · unfold imageLocation at hlocation
    simp only [if_neg hzero] at hlocation
    obtain ⟨firstBlock, hfirst, hlocation⟩ := bind_eq_ok.mp hlocation
    obtain ⟨size, hsize, hlocation⟩ := bind_eq_ok.mp hlocation
    obtain ⟨region, hregion, hlocate⟩ := bind_eq_ok.mp hlocation
    obtain ⟨hsizePos, hsizeLt⟩ := plaintextMetadataSize_ok hsize
    obtain ⟨reader₁, follows, hread⟩ := seekRead_healthy healthy hpos hfirst
    obtain ⟨reader₂, -, hread'⟩ := seekRead_healthy follows.healthy hsizePos
      (by rw [follows.data]; exact hregion)
    exact .inr ⟨_, vecZeroed_eq (by omega), _, hread, size, hsize,
      .inr ⟨_, vecZeroed_eq (by omega), _, hread', location, hlocate, rfl⟩⟩

/-! ## A run that stops early -/

theorem seekRead_ne_panicked (reader : Reader) (offset : Nat) (buf : Bytes) :
    seekRead reader offset buf ≠ panicked := by
  unfold seekRead
  refine bind_ne_panicked ?_ fun reader _ => ?_
  · unfold seekStart
    cases reader.seek offset with
    | mk sought reader' => cases sought <;> simp
  · unfold readExactOrErr
    cases reader.readExact buf 0 with
    | mk result rest => cases result <;> simp

theorem plaintextMetadataSize_ne_panicked (header : VolumeHeader) (firstBlock : Bytes) :
    plaintextMetadataSize header firstBlock ≠ panicked := by
  rw [plaintextMetadataSize_eq]
  split_ifs <;> simp

theorem locateEncryptedMetadata_ne_panicked (header : VolumeHeader) (region : Bytes) :
    locateEncryptedMetadata header region ≠ panicked := by
  rw [locateEncryptedMetadata_eq]
  split_ifs <;> simp

/-- A run that stops before it has asked for all three buffers ends in an error. -/
theorem error_of_few_requests {crates : Crates} {reader : Reader} {header : VolumeHeader}
    (h : (regionRequests crates reader header).length < 3) :
    ∃ e, decryptMetadataRegion crates reader header = fail e := by
  have hbs := header.blockSize.toNat_lt
  have isize := isizeMax_eq
  rw [← decryptMetadataRegionTraced_result]
  unfold regionRequests at h
  unfold decryptMetadataRegionTraced at h ⊢
  by_cases hzero : header.blockSize.toNat = 0
  · simp only [if_pos hzero]
    exact ⟨_, rfl⟩
  simp only [if_neg hzero, vecRequested] at h ⊢
  rw [vecZeroed_eq (n := header.blockSize.toNat) (by omega), Traced.noting_ok_bind] at h ⊢
  have stops {α : Type} {x : Run α} {stop : Stop} (hx : x ≠ panicked) (hstop : x = .error stop) :
      ∃ e, (Except.error stop : Run (Bytes × Reader)) = fail e := by
    cases stop with
    | error e => exact ⟨e, rfl⟩
    | panic => exact absurd hstop hx
  cases hread : seekRead reader (plaintextMetadataRegion header).1
      (List.replicate header.blockSize.toNat 0) with
  | error stop => exact stops (seekRead_ne_panicked _ _ _) hread
  | ok read =>
    simp only [hread, Traced.of_ok_bind] at h ⊢
    cases hsize : plaintextMetadataSize header read.1 with
    | error stop => exact stops (plaintextMetadataSize_ne_panicked _ _) hsize
    | ok size =>
      obtain ⟨-, hsizeLt⟩ := plaintextMetadataSize_ok hsize
      simp only [hsize, Traced.of_ok_bind] at h ⊢
      rw [vecZeroed_eq (n := size) (by omega), Traced.noting_ok_bind] at h ⊢
      cases hread' : seekRead read.2 (plaintextMetadataRegion header).1
          (List.replicate size 0) with
      | error stop => exact stops (seekRead_ne_panicked _ _ _) hread'
      | ok read' =>
        simp only [hread', Traced.of_ok_bind] at h ⊢
        cases hlocate : locateEncryptedMetadata header read'.1 with
        | error stop => exact stops (locateEncryptedMetadata_ne_panicked _ _) hlocate
        | ok location =>
          -- the third request has been made
          simp only [hlocate, Traced.of_ok_bind] at h ⊢
          rw [vecZeroed_eq (location_length_le hlocate), Traced.noting_ok_bind] at h
          simp only [List.length_cons] at h
          omega

end FileVault
