import FileVault.Lib.LittleEndian
import FileVault.Lib.Units
import Mathlib.Data.Fintype.Vector

/-!
# Modes over a 16-byte block cipher

XTS for sectors of storage, with ciphertext stealing for a sector that is not a whole
number of blocks, and the key wrap for a key of two 8-byte halves. Both are over any
pair of a cipher and its inverse, and undone when that pair is.
-/

namespace FileVault.Lib

/-- The bytes of two strings added bit by bit. -/
def xorBytes (xs ys : List UInt8) : List UInt8 := List.zipWith (· ^^^ ·) xs ys

@[simp] theorem xorBytes_length (xs ys : List UInt8) :
    (xorBytes xs ys).length = min xs.length ys.length := by
  simp [xorBytes]

/-- Adding the same string twice changes nothing. -/
theorem xorBytes_xorBytes {xs ys : List UInt8} (h : xs.length ≤ ys.length) :
    xorBytes (xorBytes xs ys) ys = xs := by
  unfold xorBytes
  induction xs generalizing ys with
  | nil => rfl
  | cons x xs ih =>
      cases ys with
      | nil => simp at h
      | cons y ys =>
          simp only [List.zipWith_cons_cons, UInt8.xor_assoc, UInt8.xor_self, UInt8.xor_zero]
          rw [ih (by simpa using h)]

/-! ## XTS -/

/-- Multiplication by `x` in the field of 2^128 elements. -/
def doubleTweak (t : Nat) : Nat := (2 * t % 2 ^ 128) ^^^ (if 2 ^ 127 ≤ t then 0x87 else 0)

section

variable (cipher : List UInt8 → List UInt8)

/-- The tweak of block `i` of a sector, from the encrypted tweak of the sector. -/
def blockTweak (start : List UInt8) (i : Nat) : List UInt8 :=
  leBytes 16 (doubleTweak^[i] (leNat start))

/-- One block under its tweak. -/
def xtsBlock (tweak block : List UInt8) : List UInt8 :=
  xorBytes (cipher (xorBytes block tweak)) tweak

/-- The last whole block and the piece after it: the piece is filled up from the block
once that is done, and what it was filled up with is left off at the end. -/
def xtsSteal (first second pair : List UInt8) : List UInt8 :=
  let done := xtsBlock cipher first (pair.take 16)
  xtsBlock cipher second (pair.drop 16 ++ done.drop (pair.length - 16)) ++
    done.take (pair.length - 16)

/-- The whole blocks of a sector. -/
def xtsBlocks (start : List UInt8) (count : Nat) (sector : List UInt8) : List UInt8 :=
  mapUnits 16 (fun i block => xtsBlock cipher (blockTweak start i) block) count 0 sector

end

/-- A sector: its blocks, or all blocks but the last and the pair at the end, whose two
tweaks are taken in the order given by `swap`. A sector without a whole block is left
alone. -/
def xtsSector (cipher : List UInt8 → List UInt8) (swap : Bool) (start sector : List UInt8) :
    List UInt8 :=
  let count := sector.length / 16
  if sector.length % 16 = 0 then xtsBlocks cipher start count sector
  else if count = 0 then sector
  else
    let front := count - 1
    let tweaks := (blockTweak start front, blockTweak start count)
    let tweaks := if swap then tweaks.swap else tweaks
    xtsBlocks cipher start front sector ++
      xtsSteal cipher tweaks.1 tweaks.2 (sector.drop (front * 16))

@[simp] theorem blockTweak_length (start : List UInt8) (i : Nat) :
    (blockTweak start i).length = 16 := leBytes_length _ _

section

variable {cipher : List UInt8 → List UInt8} (len : ∀ block, (cipher block).length = 16)
include len

theorem xtsBlock_length {tweak : List UInt8} (block : List UInt8) (htweak : tweak.length = 16) :
    (xtsBlock cipher tweak block).length = 16 := by
  rw [xtsBlock, xorBytes_length, len, htweak]
  rfl

theorem xtsBlocks_length {start sector : List UInt8} {count : Nat}
    (h : count * 16 ≤ sector.length) : (xtsBlocks cipher start count sector).length = count * 16 :=
  mapUnits_length (fun _ block _ => xtsBlock_length len block (blockTweak_length _ _)) h

theorem xtsSteal_length {first second pair : List UInt8} (hfirst : first.length = 16)
    (hsecond : second.length = 16) (hlow : 16 ≤ pair.length) (hhigh : pair.length ≤ 32) :
    (xtsSteal cipher first second pair).length = pair.length := by
  simp only [xtsSteal, List.length_append, List.length_take, xtsBlock_length len _ hfirst,
    xtsBlock_length len _ hsecond]
  omega

/-- A sector keeps its length. -/
theorem xtsSector_length (swap : Bool) (start sector : List UInt8) :
    (xtsSector cipher swap start sector).length = sector.length := by
  unfold xtsSector
  simp only
  split
  · rw [xtsBlocks_length len (by omega)]
    omega
  split
  · rfl
  · have hpair : (sector.drop ((sector.length / 16 - 1) * 16)).length =
        16 + sector.length % 16 := by
      rw [List.length_drop]
      omega
    rw [List.length_append, xtsBlocks_length len (by omega), xtsSteal_length len
      (by split <;> exact blockTweak_length _ _) (by split <;> exact blockTweak_length _ _)
      (by omega) (by omega), hpair]
    omega

/-- In a sector of whole blocks every block is by itself. -/
theorem xtsSector_slice (swap : Bool) (start : List UInt8) {sector : List UInt8} {j : Nat}
    (hwhole : sector.length % 16 = 0) (hj : j < sector.length / 16) :
    slice (xtsSector cipher swap start sector) (j * 16) 16 =
      xtsBlock cipher (blockTweak start j) (slice sector (j * 16) 16) := by
  have out : xtsSector cipher swap start sector =
      xtsBlocks cipher start (sector.length / 16) sector := by
    rw [xtsSector, if_pos hwhole]
  rw [out, xtsBlocks, mapUnits_slice
    (fun i block _ => xtsBlock_length len block (blockTweak_length start i))
    (Nat.div_mul_le_self _ _) hj, Nat.zero_add]

end

section

variable {encrypt decrypt : List UInt8 → List UInt8} (len : ∀ block, (encrypt block).length = 16)
  (undo : ∀ block, block.length = 16 → decrypt (encrypt block) = block)
include len undo

/-- A block is undone under the same tweak. -/
theorem xtsBlock_undo {tweak block : List UInt8} (htweak : tweak.length = 16)
    (hblock : block.length = 16) :
    xtsBlock decrypt tweak (xtsBlock encrypt tweak block) = block := by
  have hinner : (xorBytes block tweak).length = 16 := by
    rw [xorBytes_length, hblock, htweak]
    rfl
  rw [xtsBlock, xtsBlock, xorBytes_xorBytes (by rw [len, htweak]), undo _ hinner,
    xorBytes_xorBytes (by rw [hblock, htweak])]

theorem xtsBlocks_undo {start sector : List UInt8} (rest : List UInt8) {count : Nat}
    (h : count * 16 ≤ sector.length) :
    xtsBlocks decrypt start count (xtsBlocks encrypt start count sector ++ rest) =
      sector.take (count * 16) :=
  mapUnits_inverse (fun _ block _ => xtsBlock_length len block (blockTweak_length _ _)) h
    fun _ _ hblock => xtsBlock_undo len undo (blockTweak_length _ _) hblock

/-- A stolen pair is undone under the two tweaks swapped. -/
theorem xtsSteal_undo {first second pair : List UInt8} (hfirst : first.length = 16)
    (hsecond : second.length = 16) (hlow : 16 ≤ pair.length) (hhigh : pair.length ≤ 32) :
    xtsSteal decrypt second first (xtsSteal encrypt first second pair) = pair := by
  have hlen := xtsSteal_length len hfirst hsecond hlow hhigh
  generalize hdone : xtsBlock encrypt first (pair.take 16) = done
  generalize hfilled : pair.drop 16 ++ done.drop (pair.length - 16) = filled
  have doneLen : done.length = 16 := hdone ▸ xtsBlock_length len _ hfirst
  have filledLen : filled.length = 16 := by
    rw [← hfilled, List.length_append, List.length_drop, List.length_drop]
    omega
  have out : xtsSteal encrypt first second pair =
      xtsBlock encrypt second filled ++ done.take (pair.length - 16) := by
    rw [xtsSteal, hdone, hfilled]
  have outLen := xtsBlock_length len filled hsecond
  have rest : (pair.drop 16).length = pair.length - 16 := List.length_drop
  rw [xtsSteal, hlen, out, List.take_left' outLen, List.drop_left' outLen,
    xtsBlock_undo len undo hsecond filledLen, ← hfilled, List.drop_left' rest,
    List.take_left' rest, List.take_append_drop, ← hdone,
    xtsBlock_undo len undo hfirst (by rw [List.length_take]; omega), List.take_append_drop]

/-- Decryption of a sector undoes its encryption. -/
theorem xtsSector_undo (start sector : List UInt8) :
    xtsSector decrypt true start (xtsSector encrypt false start sector) = sector := by
  have hlen := xtsSector_length len false start sector
  by_cases hwhole : sector.length % 16 = 0
  · have hout : xtsSector encrypt false start sector =
        xtsBlocks encrypt start (sector.length / 16) sector := by
      rw [xtsSector, if_pos hwhole]
    have undone : xtsBlocks decrypt start (sector.length / 16)
        (xtsBlocks encrypt start (sector.length / 16) sector ++ []) =
          sector.take (sector.length / 16 * 16) :=
      xtsBlocks_undo len undo [] (Nat.div_mul_le_self sector.length 16)
    rw [List.append_nil, List.take_of_length_le (by omega)] at undone
    rw [xtsSector, hlen, if_pos hwhole, hout, undone]
  by_cases hnone : sector.length / 16 = 0
  · have hout : xtsSector encrypt false start sector = sector := by
      rw [xtsSector, if_neg hwhole, if_pos hnone]
    rw [hout, xtsSector, if_neg hwhole, if_pos hnone]
  · have hout : xtsSector encrypt false start sector =
        xtsBlocks encrypt start (sector.length / 16 - 1) sector ++
          xtsSteal encrypt (blockTweak start (sector.length / 16 - 1))
            (blockTweak start (sector.length / 16))
            (sector.drop ((sector.length / 16 - 1) * 16)) := by
      rw [xtsSector, if_neg hwhole, if_neg hnone]
      rfl
    have front : (sector.length / 16 - 1) * 16 ≤ sector.length := by omega
    have hpair : (sector.drop ((sector.length / 16 - 1) * 16)).length =
        16 + sector.length % 16 := by
      rw [List.length_drop]
      omega
    rw [xtsSector, hlen, if_neg hwhole, if_neg hnone, hout]
    simp only [Prod.swap, if_true]
    rw [xtsBlocks_undo len undo _ front, List.drop_left' (xtsBlocks_length len front),
      xtsSteal_undo len undo (blockTweak_length _ _) (blockTweak_length _ _) (by omega) (by omega),
      List.take_append_drop]

/-- Under one tweak different blocks stay different. -/
theorem xtsBlock_inj {tweak block block' : List UInt8} (htweak : tweak.length = 16)
    (hblock : block.length = 16) (hblock' : block'.length = 16) :
    xtsBlock encrypt tweak block = xtsBlock encrypt tweak block' ↔ block = block' := by
  constructor
  · intro h
    rw [← xtsBlock_undo len undo htweak hblock, h, xtsBlock_undo len undo htweak hblock']
  · rintro rfl
    rfl

end

/-! ## Key wrap -/

/-- The integrity register and the two halves of the key. -/
structure WrapState where
  a : List UInt8
  r1 : List UInt8
  r2 : List UInt8
  deriving DecidableEq

/-- All three are 8 bytes long. -/
structure WrapState.Sized (s : WrapState) : Prop where
  a : s.a.length = 8
  r1 : s.r1.length = 8
  r2 : s.r2.length = 8

/-- The step counter as 8 big-endian bytes. -/
def counterBytes (t : Nat) : List UInt8 := (leBytes 8 t).reverse

@[simp] theorem counterBytes_length (t : Nat) : (counterBytes t).length = 8 := by
  simp [counterBytes]

/-- The initial value of the integrity register. -/
def wrapInit : List UInt8 := List.replicate 8 0xa6

/-- Step `t`: the half in front goes through the cipher and to the back. -/
def wrapStep (cipher : List UInt8 → List UInt8) (s : WrapState) (t : Nat) : WrapState :=
  let block := cipher (s.a ++ s.r1)
  { a := xorBytes (block.take 8) (counterBytes t), r1 := s.r2, r2 := block.drop 8 }

def unwrapStep (cipher : List UInt8 → List UInt8) (s : WrapState) (t : Nat) : WrapState :=
  let block := cipher (xorBytes s.a (counterBytes t) ++ s.r2)
  { a := block.take 8, r1 := block.drop 8, r2 := s.r1 }

/-- The twelve step counters: six rounds over two halves. -/
def wrapCounters : List Nat := List.range' 1 12

/-- The wrapped form of a 16-byte key. -/
def wrapKey (cipher : List UInt8 → List UInt8) (key : List UInt8) : List UInt8 :=
  let s := wrapCounters.foldl (wrapStep cipher) ⟨wrapInit, key.take 8, key.drop 8⟩
  s.a ++ (s.r1 ++ s.r2)

/-- The key in a 24-byte wrapped form, if its integrity check passes. -/
def unwrapKey (cipher : List UInt8 → List UInt8) (wrapped : List UInt8) : Option (List UInt8) :=
  let s := wrapCounters.reverse.foldl (unwrapStep cipher)
    ⟨wrapped.take 8, (wrapped.drop 8).take 8, wrapped.drop 16⟩
  if s.a = wrapInit then some (s.r1 ++ s.r2) else none

/-- What every step keeps, a run of steps keeps. -/
theorem foldl_keeps {σ ι : Type} {step : σ → ι → σ} {Valid : σ → Prop}
    (keeps : ∀ s i, Valid s → Valid (step s i)) (is : List ι) {s : σ} (h : Valid s) :
    Valid (is.foldl step s) := by
  induction is generalizing s with
  | nil => exact h
  | cons i is ih => exact ih (keeps s i h)

/-- Steps that are undone one by one are undone in reverse. -/
theorem foldl_undo {σ ι : Type} {step back : σ → ι → σ} {Valid : σ → Prop}
    (keeps : ∀ s i, Valid s → Valid (step s i))
    (undo : ∀ s i, Valid s → back (step s i) i = s) (is : List ι) {s : σ} (h : Valid s) :
    is.reverse.foldl back (is.foldl step s) = s := by
  induction is generalizing s with
  | nil => rfl
  | cons i is ih =>
      rw [List.foldl_cons, List.reverse_cons, List.foldl_append, ih (keeps s i h)]
      exact undo s i h

section

variable {encrypt decrypt : List UInt8 → List UInt8}

theorem wrapStep_sized (len : ∀ block, (encrypt block).length = 16) (s : WrapState) (t : Nat)
    (h : s.Sized) : (wrapStep encrypt s t).Sized where
  a := by simp [wrapStep, len]
  r1 := h.r2
  r2 := by simp [wrapStep, len]

theorem unwrapStep_wrapStep (len : ∀ block, (encrypt block).length = 16)
    (undo : ∀ block, block.length = 16 → decrypt (encrypt block) = block) (s : WrapState) (t : Nat)
    (h : s.Sized) : unwrapStep decrypt (wrapStep encrypt s t) t = s := by
  have hblock : (s.a ++ s.r1).length = 16 := by rw [List.length_append, h.a, h.r1]
  simp only [unwrapStep, wrapStep]
  rw [xorBytes_xorBytes (by simp [len]), List.take_append_drop, undo _ hblock,
    List.take_left' h.a, List.drop_left' h.a]

theorem wrapKey_sized (len : ∀ block, (encrypt block).length = 16) {key : List UInt8}
    (hkey : key.length = 16) (ts : List Nat) :
    (ts.foldl (wrapStep encrypt) ⟨wrapInit, key.take 8, key.drop 8⟩).Sized := by
  have start : (⟨wrapInit, key.take 8, key.drop 8⟩ : WrapState).Sized :=
    ⟨rfl, by simp [hkey], by simp [hkey]⟩
  exact foldl_keeps (wrapStep_sized len) ts start

theorem wrapKey_length (len : ∀ block, (encrypt block).length = 16) {key : List UInt8}
    (hkey : key.length = 16) : (wrapKey encrypt key).length = 24 := by
  obtain ⟨ha, hr1, hr2⟩ := wrapKey_sized len hkey wrapCounters
  simp only [wrapKey, List.length_append, ha, hr1, hr2]

/-- Unwrapping with the wrapping key gives the key back. -/
theorem unwrapKey_wrapKey (len : ∀ block, (encrypt block).length = 16)
    (undo : ∀ block, block.length = 16 → decrypt (encrypt block) = block) {key : List UInt8}
    (hkey : key.length = 16) : unwrapKey decrypt (wrapKey encrypt key) = some key := by
  have start : (⟨wrapInit, key.take 8, key.drop 8⟩ : WrapState).Sized :=
    ⟨rfl, by simp [hkey], by simp [hkey]⟩
  have undone := foldl_undo (wrapStep_sized len) (unwrapStep_wrapStep len undo) wrapCounters start
  obtain ⟨ha, hr1, hr2⟩ := wrapKey_sized len hkey wrapCounters
  unfold unwrapKey wrapKey
  generalize wrapCounters.foldl (wrapStep encrypt) ⟨wrapInit, key.take 8, key.drop 8⟩ = s
    at ha hr1 hr2 undone ⊢
  simp only
  rw [List.take_left' ha, List.drop_left' ha, List.take_left' hr1, ← List.append_assoc,
    List.drop_left' (by rw [List.length_append, ha, hr1]), undone, if_pos rfl,
    List.take_append_drop]

theorem unwrapStep_sized (len : ∀ block, (decrypt block).length = 16) (s : WrapState) (t : Nat)
    (h : s.Sized) : (unwrapStep decrypt s t).Sized where
  a := by simp [unwrapStep, len]
  r1 := by simp [unwrapStep, len]
  r2 := h.r1

theorem wrapStep_unwrapStep
    (redo : ∀ block, block.length = 16 → encrypt (decrypt block) = block) (s : WrapState)
    (t : Nat) (h : s.Sized) : wrapStep encrypt (unwrapStep decrypt s t) t = s := by
  have hxor : (xorBytes s.a (counterBytes t)).length = 8 := by
    rw [xorBytes_length, h.a, counterBytes_length]
    rfl
  have hblock : (xorBytes s.a (counterBytes t) ++ s.r2).length = 16 := by
    rw [List.length_append, hxor, h.r2]
  simp only [wrapStep, unwrapStep]
  rw [List.take_append_drop, redo _ hblock, List.take_left' hxor, List.drop_left' hxor,
    xorBytes_xorBytes (by rw [h.a, counterBytes_length])]

/-- What unwraps to a key is the wrapped form of that key. -/
theorem wrapKey_of_unwrapKey (len : ∀ block, (decrypt block).length = 16)
    (redo : ∀ block, block.length = 16 → encrypt (decrypt block) = block)
    {wrapped key : List UInt8} (hwrapped : wrapped.length = 24)
    (h : unwrapKey decrypt wrapped = some key) : wrapKey encrypt key = wrapped := by
  have start : (⟨wrapped.take 8, (wrapped.drop 8).take 8, wrapped.drop 16⟩ : WrapState).Sized :=
    ⟨by simp [hwrapped], by simp [hwrapped], by simp [hwrapped]⟩
  have redone := foldl_undo (unwrapStep_sized len) (wrapStep_unwrapStep redo)
    wrapCounters.reverse start
  have sized := foldl_keeps (unwrapStep_sized len) wrapCounters.reverse start
  rw [List.reverse_reverse] at redone
  unfold unwrapKey at h
  unfold wrapKey
  generalize wrapCounters.reverse.foldl (unwrapStep decrypt)
    ⟨wrapped.take 8, (wrapped.drop 8).take 8, wrapped.drop 16⟩ = s at h redone sized
  simp only at h
  split at h
  · next hinit =>
      obtain rfl := Option.some.inj h
      have state : (⟨wrapInit, (s.r1 ++ s.r2).take 8, (s.r1 ++ s.r2).drop 8⟩ : WrapState) = s := by
        rw [List.take_left' sized.r1, List.drop_left' sized.r1, ← hinit]
      have tail : (wrapped.drop 8).drop 8 = wrapped.drop 16 := List.drop_drop
      rw [state, redone]
      simp only
      rw [← tail, List.take_append_drop, List.take_append_drop]
  · simp at h

end

/-! ## Both ways round -/

/-- On blocks of one length a cipher that can be undone reaches every block, so it undoes its
inverse as well. -/
theorem redo_of_undo {encrypt decrypt : List UInt8 → List UInt8} {n : Nat}
    (len : ∀ block, block.length = n → (encrypt block).length = n)
    (undo : ∀ block, block.length = n → decrypt (encrypt block) = block) {block : List UInt8}
    (hblock : block.length = n) : encrypt (decrypt block) = block := by
  let onBlocks : List.Vector UInt8 n → List.Vector UInt8 n :=
    fun v => ⟨encrypt v.val, len v.val v.property⟩
  have injective : Function.Injective onBlocks := by
    intro v w h
    have hval : encrypt v.val = encrypt w.val := congrArg Subtype.val h
    have back := congrArg decrypt hval
    rw [undo _ v.property, undo _ w.property] at back
    exact Subtype.ext back
  have : Finite UInt8 := .of_injective UInt8.toFin fun _ _ h => UInt8.toFin_inj.mp h
  have : Fintype UInt8 := .ofFinite UInt8
  obtain ⟨v, hv⟩ := (Finite.injective_iff_surjective.mp injective) ⟨block, hblock⟩
  have himage : encrypt v.val = block := congrArg Subtype.val hv
  rw [← himage, undo _ v.property]

end FileVault.Lib
