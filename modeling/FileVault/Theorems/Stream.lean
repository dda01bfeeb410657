import FileVault.Lib.Machine
import FileVault.Logic.Primitives
import FileVault.Logic.Sectors

/-!
# A decrypted volume is a cursor over its plaintext

Over a reader that never fails for good, whatever short reads and interrupts it
serves, a volume whose sectors all have an address answers every sequence of
`read`, `read_at` and `seek` as an in-memory cursor over the plaintext does.
-/

namespace FileVault

open Lib

/-- The plaintext of a volume: the decrypted sectors one after another, up to its
size. -/
def plaintextOf (crates : Crates) (keys : VolumeKeys) (image : Bytes) (base size : Nat) : Bytes :=
  ((List.range ((size + (sectorSize - 1)) / sectorSize)).flatMap
    (plainSector crates keys image base)).take size

theorem plaintextOf_length (crates : Crates) (keys : VolumeKeys) (image : Bytes)
    (base size : Nat) : (plaintextOf crates keys image base size).length = size := by
  unfold plaintextOf
  rw [List.length_take, flatMap_units_length fun k _ =>
    plainSector_length crates keys image base k]
  unfold sectorSize
  omega

theorem plaintextOf_getElem? (crates : Crates) (keys : VolumeKeys) (image : Bytes)
    {base size x : Nat} (hx : x < size) :
    (plaintextOf crates keys image base size)[x]? = plainByte? crates keys image base x := by
  unfold plaintextOf
  rw [List.getElem?_take, if_pos hx, flatMap_units_getElem?
    (fun k _ => plainSector_length crates keys image base k)]
  · rfl
  · unfold sectorSize
    omega

/-! ## The two machines -/

/-- What a user of the stream can ask for. -/
inductive StreamOp
  | read (buf : Bytes)
  | readAt (offset : UInt64) (buf : Bytes)
  | seek (pos : SeekFrom)

/-- What comes back: a count and the caller's buffer, or the new position. -/
inductive StreamReply
  | data (result : Run Nat) (buf : Bytes)
  | position (new : Option UInt64)

/-- The volume as a machine. -/
def DecryptedVolume.perform (crates : Crates) (vol : DecryptedVolume) :
    StreamOp → StreamReply × DecryptedVolume
  | .read buf =>
      let (result, buf', vol') := vol.read crates buf
      (.data result buf', vol')
  | .readAt offset buf =>
      let (result, buf', vol') := vol.readAt crates offset buf
      (.data result buf', vol')
  | .seek pos =>
      let (new, vol') := vol.seek pos
      (.position new, vol')

/-- An in-memory cursor. -/
structure StreamCursor where
  data : Bytes
  position : Nat

namespace StreamCursor

/-- Where a seek goes, as an integer. -/
def target (cursor : StreamCursor) : SeekFrom → Int
  | .start o => o.toNat
  | .fromEnd o => cursor.data.length + o.toInt
  | .current o => cursor.position + o.toInt

/-- The cursor as a machine: a read overwrites the front of the buffer with the
bytes there are, and a seek outside the 64-bit range is refused. -/
def perform (cursor : StreamCursor) : StreamOp → StreamReply × StreamCursor
  | .read buf =>
      let bytes := slice cursor.data cursor.position buf.length
      (.data (.ok bytes.length) (splice buf 0 bytes),
        { cursor with position := cursor.position + bytes.length })
  | .readAt offset buf =>
      let bytes := slice cursor.data offset.toNat buf.length
      (.data (.ok bytes.length) (splice buf 0 bytes), cursor)
  | .seek pos =>
      let target := cursor.target pos
      if 0 ≤ target ∧ target < 2 ^ 64 then
        (.position (some (.ofNat target.toNat)), { cursor with position := target.toNat })
      else (.position none, cursor)

end StreamCursor

/-! ## The refinement -/

/-- The cursor that a volume stands for. -/
def DecryptedVolume.cursor (crates : Crates) (vol : DecryptedVolume) : StreamCursor where
  data := plaintextOf crates vol.keys vol.reader.data vol.physicalBase.toNat vol.size.toNat
  position := vol.position.toNat

theorem DecryptedVolume.cursor_length (crates : Crates) (vol : DecryptedVolume) :
    (vol.cursor crates).data.length = vol.size.toNat := plaintextOf_length ..

/-- Every sector of the volume has a physical address. -/
def DecryptedVolume.Fits (vol : DecryptedVolume) : Prop :=
  vol.physicalBase.toNat +
    sectorSize * ((vol.size.toNat + (sectorSize - 1)) / sectorSize) ≤ usizeSize - 1

/-- The relation the refinement maintains. -/
structure StandsFor (crates : Crates) (vol : DecryptedVolume) (cursor : StreamCursor) : Prop where
  healthy : vol.reader.Healthy
  fits : vol.Fits
  cursor : cursor = vol.cursor crates

section

variable {crates : Crates} {vol : DecryptedVolume}

/-- A request in a volume that fits has its sectors in the address space. -/
theorem DecryptedVolume.Fits.window (fits : vol.Fits) {offset : Nat} (len : Nat)
    (hoff : offset < vol.size.toNat) :
    vol.sectorCountOf offset len * sectorSize < usizeSize ∧
      vol.physicalBase.toNat + offset / sectorSize * sectorSize < usizeSize := by
  have usize := usizeSize_eq
  unfold DecryptedVolume.Fits at fits
  unfold DecryptedVolume.sectorCountOf DecryptedVolume.wantOf
  unfold sectorSize at *
  omega

/-- `read_at` in terms of the cursor. -/
theorem readAt_cursor (crates : Crates) (healthy : vol.reader.Healthy) (fits : vol.Fits)
    (offset : UInt64) (buf : Bytes) :
    ∃ reader', vol.reader.Follows reader' ∧ vol.readAt crates offset buf =
      (.ok (slice (vol.cursor crates).data offset.toNat buf.length).length,
        splice buf 0 (slice (vol.cursor crates).data offset.toNat buf.length),
        { vol with reader := reader' }) := by
  have hdata := vol.cursor_length crates
  have hslice := slice_length (vol.cursor crates).data offset.toNat buf.length
  by_cases hguard : vol.size.toNat ≤ offset.toNat ∨ buf = []
  · have none : slice (vol.cursor crates).data offset.toNat buf.length = [] := by
      rw [List.eq_nil_iff_length_eq_zero, hslice]
      rcases hguard with h | h
      · omega
      · simp [h]
    refine ⟨vol.reader, .refl healthy, ?_⟩
    rw [DecryptedVolume.readAt_nothing hguard, none]
    simp [splice]
  · obtain ⟨hoff, hbuf⟩ := not_or.mp hguard
    obtain ⟨hregion, haddress⟩ := fits.window buf.length (not_le.mp hoff)
    obtain ⟨reader', bytes, follows, hread, hlen, hplain⟩ :=
      DecryptedVolume.readAt_eq crates healthy (not_le.mp hoff) hbuf hregion haddress
    have hwant : vol.wantOf offset.toNat buf.length =
        (slice (vol.cursor crates).data offset.toNat buf.length).length := by
      rw [hslice, hdata]
      rfl
    have hbytes : bytes = slice (vol.cursor crates).data offset.toNat buf.length := by
      apply List.ext_getElem?
      intro i
      by_cases hi : i < vol.wantOf offset.toNat buf.length
      · have hx : offset.toNat + i < vol.size.toNat := by omega
        rw [hplain i hi, slice_getElem?, if_pos (by omega), DecryptedVolume.cursor,
          plaintextOf_getElem? _ _ _ hx]
      · rw [List.getElem?_eq_none (by omega), List.getElem?_eq_none (by omega)]
    exact ⟨reader', follows, by rw [hread, hwant, hbytes]⟩

/-- `add_signed` is exact integer addition, refused outside the 64-bit range. -/
theorem addSigned_eq (base : UInt64) (offset : Int64) :
    addSigned base offset =
      if 0 ≤ (base.toNat : Int) + offset.toInt ∧ (base.toNat : Int) + offset.toInt < 2 ^ 64 then
        some (.ofNat ((base.toNat : Int) + offset.toInt).toNat)
      else none := by
  have usize := usizeSize_eq
  have hbase := base.toNat_lt
  unfold addSigned checkedAdd checkedSub
  -- by its sign the offset is added or subtracted
  by_cases hsign : 0 ≤ offset.toInt
  · rw [if_pos hsign]
    by_cases hfits : base.toNat + offset.toInt.toNat < usizeSize
    · rw [if_pos hfits, if_pos (by omega), Option.map_some]
      congr 2
      omega
    · rw [if_neg hfits, if_neg (by omega)]
      rfl
  · rw [if_neg hsign]
    by_cases hfits : offset.toInt.natAbs ≤ base.toNat
    · rw [if_pos hfits, if_pos (by omega), Option.map_some]
      congr 2
      omega
    · rw [if_neg hfits, if_neg (by omega)]
      rfl

/-- A volume stands for the same cursor whatever became of its reader. -/
theorem StandsFor.ofReader {cursor : StreamCursor} {reader' : Reader}
    (h : StandsFor crates vol cursor) (follows : vol.reader.Follows reader') :
    StandsFor crates { vol with reader := reader' } cursor :=
  ⟨follows.healthy, h.fits, by
    rw [h.cursor, DecryptedVolume.cursor, DecryptedVolume.cursor]
    simp only [follows.data]⟩

/-- A volume stands for the moved cursor when both positions move alike. -/
theorem StandsFor.move {cursor : StreamCursor} (h : StandsFor crates vol cursor)
    (position : UInt64) :
    StandsFor crates { vol with position }
      { cursor with position := position.toNat } :=
  ⟨h.healthy, h.fits, by rw [h.cursor]; rfl⟩

/-- The step lemma for `read`. -/
theorem read_simulates {cursor : StreamCursor} (h : StandsFor crates vol cursor) (buf : Bytes) :
    (vol.perform crates (.read buf)).1 = (cursor.perform (.read buf)).1 ∧
      StandsFor crates (vol.perform crates (.read buf)).2 (cursor.perform (.read buf)).2 := by
  obtain ⟨reader', follows, hread⟩ := readAt_cursor crates h.healthy h.fits
    vol.position buf
  have hdata := vol.cursor_length crates
  have hslice := slice_length (vol.cursor crates).data vol.position.toNat buf.length
  have hposition := vol.position.toNat_lt
  have hsize := vol.size.toNat_lt
  have usize := usizeSize_eq
  -- past the end nothing is read, so the sum never leaves the 64-bit range
  have hfits : vol.position.toNat +
      (slice (vol.cursor crates).data vol.position.toNat buf.length).length < usizeSize := by
    omega
  have hstep : vol.perform crates (.read buf) =
      (.data (.ok (slice (vol.cursor crates).data vol.position.toNat buf.length).length)
        (splice buf 0 (slice (vol.cursor crates).data vol.position.toNat buf.length)),
        { vol with
          reader := reader'
          position := .ofNat (vol.position.toNat +
            (slice (vol.cursor crates).data vol.position.toNat buf.length).length) }) := by
    simp only [DecryptedVolume.perform, DecryptedVolume.read, hread, uadd_eq hfits]
  rw [hstep, h.cursor]
  refine ⟨rfl, ?_⟩
  have moved := (h.ofReader follows).move (.ofNat (vol.position.toNat +
    (slice (vol.cursor crates).data vol.position.toNat buf.length).length))
  rw [UInt64.toNat_ofNat', Nat.mod_eq_of_lt (by omega), h.cursor] at moved
  exact moved

/-- The step lemma for `read_at`. -/
theorem readAt_simulates {cursor : StreamCursor} (h : StandsFor crates vol cursor)
    (offset : UInt64) (buf : Bytes) :
    (vol.perform crates (.readAt offset buf)).1 = (cursor.perform (.readAt offset buf)).1 ∧
      StandsFor crates (vol.perform crates (.readAt offset buf)).2
        (cursor.perform (.readAt offset buf)).2 := by
  obtain ⟨reader', follows, hread⟩ := readAt_cursor crates h.healthy h.fits offset buf
  have hstep : vol.perform crates (.readAt offset buf) =
      (.data (.ok (slice (vol.cursor crates).data offset.toNat buf.length).length)
        (splice buf 0 (slice (vol.cursor crates).data offset.toNat buf.length)),
        { vol with reader := reader' }) := by
    simp only [DecryptedVolume.perform, hread]
  rw [hstep]
  exact ⟨by rw [h.cursor]; rfl, h.ofReader follows⟩

/-- Where a seek of the volume goes, as an integer. -/
theorem seek_eq (crates : Crates) (vol : DecryptedVolume) (pos : SeekFrom) :
    vol.seek pos =
      if 0 ≤ (vol.cursor crates).target pos ∧ (vol.cursor crates).target pos < 2 ^ 64 then
        (some (.ofNat ((vol.cursor crates).target pos).toNat),
          { vol with position := .ofNat ((vol.cursor crates).target pos).toNat })
      else (none, vol) := by
  have hdata := vol.cursor_length crates
  cases pos with
  | start o =>
      have ho := o.toNat_lt
      rw [if_pos (by simp only [StreamCursor.target]; omega)]
      simp [DecryptedVolume.seek, StreamCursor.target]
  | fromEnd o =>
      simp only [DecryptedVolume.seek, StreamCursor.target, addSigned_eq, hdata]
      by_cases hrange : 0 ≤ (vol.size.toNat : Int) + o.toInt ∧
          (vol.size.toNat : Int) + o.toInt < 2 ^ 64
      · simp only [if_pos hrange]
      · simp only [if_neg hrange]
  | current o =>
      by_cases hrange : 0 ≤ (vol.position.toNat : Int) + o.toInt ∧
          (vol.position.toNat : Int) + o.toInt < 2 ^ 64
      · have inside : 0 ≤ (vol.cursor crates).target (.current o) ∧
            (vol.cursor crates).target (.current o) < 2 ^ 64 := hrange
        rw [if_pos inside]
        simp only [DecryptedVolume.seek, addSigned_eq, if_pos hrange]
        rfl
      · have outside : ¬ (0 ≤ (vol.cursor crates).target (.current o) ∧
            (vol.cursor crates).target (.current o) < 2 ^ 64) := hrange
        rw [if_neg outside]
        simp only [DecryptedVolume.seek, addSigned_eq, if_neg hrange]

/-- The step lemma for `seek`. -/
theorem seek_simulates {cursor : StreamCursor} (h : StandsFor crates vol cursor)
    (pos : SeekFrom) :
    (vol.perform crates (.seek pos)).1 = (cursor.perform (.seek pos)).1 ∧
      StandsFor crates (vol.perform crates (.seek pos)).2 (cursor.perform (.seek pos)).2 := by
  rw [h.cursor]
  simp only [DecryptedVolume.perform, StreamCursor.perform, seek_eq crates]
  by_cases hrange : 0 ≤ (vol.cursor crates).target pos ∧ (vol.cursor crates).target pos < 2 ^ 64
  · rw [if_pos hrange, if_pos hrange]
    refine ⟨rfl, ?_⟩
    have moved := h.move (.ofNat ((vol.cursor crates).target pos).toNat)
    rw [UInt64.toNat_ofNat', Nat.mod_eq_of_lt (by omega), h.cursor] at moved
    exact moved
  · rw [if_neg hrange, if_neg hrange]
    exact ⟨rfl, ⟨h.healthy, h.fits, rfl⟩⟩

/-- Every step of the volume is the step of the cursor it stands for. -/
theorem perform_simulates (crates : Crates) :
    Simulates (DecryptedVolume.perform crates) StreamCursor.perform (StandsFor crates) := by
  intro vol cursor h op
  cases op with
  | read buf => exact read_simulates h buf
  | readAt offset buf => exact readAt_simulates h offset buf
  | seek pos => exact seek_simulates h pos

end

/-- Every sequence of operations on a volume that fits, over a reader that never
fails for good, is answered as the cursor over its plaintext answers it. -/
theorem volume_refines_cursor (crates : Crates) (vol : DecryptedVolume)
    (healthy : vol.reader.Healthy) (fits : vol.Fits) (ops : List StreamOp) :
    (runAll (DecryptedVolume.perform crates) vol ops).1 =
      (runAll StreamCursor.perform (vol.cursor crates) ops).1 :=
  ((perform_simulates crates).runAll ⟨healthy, fits, rfl⟩ ops).1

/-- A volume of three sectors that ends inside the last one, over an image that ends
before it does, behind a reader that interrupts and delivers short reads. -/
def halfServed : DecryptedVolume where
  reader := ⟨List.replicate 2000 0x5a, 7, [.interrupted, .short 99, .interrupted, .short 0], []⟩
  keys := ⟨ByteArr.fill 16 0x20, ByteArr.fill 16 0x21⟩
  physicalBase := 512
  size := 1300
  position := 0

theorem halfServed_healthy : halfServed.reader.Healthy := by
  simp only [Reader.Healthy, halfServed, List.mem_cons, List.not_mem_nil, reduceCtorEq, or_self,
    not_false_eq_true, implies_true, and_self]

theorem halfServed_refines_cursor :
    (runAll (DecryptedVolume.perform standardCrates) halfServed
      [.seek (.fromEnd (-40)), .read (List.replicate 64 0), .readAt 500 [0, 0, 0],
        .seek (.current (-2000))]).1 =
    (runAll StreamCursor.perform (halfServed.cursor standardCrates)
      [.seek (.fromEnd (-40)), .read (List.replicate 64 0), .readAt 500 [0, 0, 0],
        .seek (.current (-2000))]).1 :=
  volume_refines_cursor standardCrates halfServed halfServed_healthy
    (by unfold DecryptedVolume.Fits; decide) _

end FileVault
