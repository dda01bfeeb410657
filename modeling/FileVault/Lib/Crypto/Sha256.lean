import FileVault.Lib.Crypto.Modes

/-!
# SHA-256, HMAC and PBKDF2

The hash over byte strings, the message authentication code built on it, and the
first 32 bytes of the key derivation built on that.
-/

namespace FileVault.Lib.Sha256

/-- The round constants. -/
def roundConstants : List UInt32 := [
  0x428a2f98, 0x71374491, 0xb5c0fbcf, 0xe9b5dba5, 0x3956c25b, 0x59f111f1, 0x923f82a4, 0xab1c5ed5,
  0xd807aa98, 0x12835b01, 0x243185be, 0x550c7dc3, 0x72be5d74, 0x80deb1fe, 0x9bdc06a7, 0xc19bf174,
  0xe49b69c1, 0xefbe4786, 0x0fc19dc6, 0x240ca1cc, 0x2de92c6f, 0x4a7484aa, 0x5cb0a9dc, 0x76f988da,
  0x983e5152, 0xa831c66d, 0xb00327c8, 0xbf597fc7, 0xc6e00bf3, 0xd5a79147, 0x06ca6351, 0x14292967,
  0x27b70a85, 0x2e1b2138, 0x4d2c6dfc, 0x53380d13, 0x650a7354, 0x766a0abb, 0x81c2c92e, 0x92722c85,
  0xa2bfe8a1, 0xa81a664b, 0xc24b8b70, 0xc76c51a3, 0xd192e819, 0xd6990624, 0xf40e3585, 0x106aa070,
  0x19a4c116, 0x1e376c08, 0x2748774c, 0x34b0bcb5, 0x391c0cb3, 0x4ed8aa4a, 0x5b9cca4f, 0x682e6ff3,
  0x748f82ee, 0x78a5636f, 0x84c87814, 0x8cc70208, 0x90befffa, 0xa4506ceb, 0xbef9a3f7, 0xc67178f2]

/-- The eight working words. -/
structure State where
  a : UInt32
  b : UInt32
  c : UInt32
  d : UInt32
  e : UInt32
  f : UInt32
  g : UInt32
  h : UInt32
  deriving DecidableEq

/-- The initial hash value. -/
def init : State :=
  ⟨0x6a09e667, 0xbb67ae85, 0x3c6ef372, 0xa54ff53a,
    0x510e527f, 0x9b05688c, 0x1f83d9ab, 0x5be0cd19⟩

def rotr (x : UInt32) (n : UInt32) : UInt32 := (x >>> n) ||| (x <<< (32 - n))

def bigSigma0 (x : UInt32) : UInt32 := rotr x 2 ^^^ rotr x 13 ^^^ rotr x 22

def bigSigma1 (x : UInt32) : UInt32 := rotr x 6 ^^^ rotr x 11 ^^^ rotr x 25

def smallSigma0 (x : UInt32) : UInt32 := rotr x 7 ^^^ rotr x 18 ^^^ (x >>> 3)

def smallSigma1 (x : UInt32) : UInt32 := rotr x 17 ^^^ rotr x 19 ^^^ (x >>> 10)

/-- One round, with its constant and its word of the message schedule. -/
def round (s : State) (k w : UInt32) : State :=
  let t1 := s.h + bigSigma1 s.e + ((s.e &&& s.f) ^^^ (~~~s.e &&& s.g)) + k + w
  let t2 := bigSigma0 s.a + ((s.a &&& s.b) ^^^ (s.a &&& s.c) ^^^ (s.b &&& s.c))
  { a := t1 + t2, b := s.a, c := s.b, d := s.c, e := s.d + t1, f := s.e, g := s.f, h := s.g }

/-- The word of the schedule that follows sixteen others. -/
def nextWord (window : List UInt32) : UInt32 :=
  smallSigma1 (window.getD 14 0) + window.getD 9 0 + smallSigma0 (window.getD 1 0) +
    window.getD 0 0

/-- The rounds with these constants, over a sliding window of the schedule. -/
def rounds : List UInt32 → List UInt32 → State → State
  | [], _, s => s
  | k :: ks, window, s =>
      rounds ks (window.tail ++ [nextWord window]) (round s k (window.headD 0))

def State.add (s t : State) : State :=
  ⟨s.a + t.a, s.b + t.b, s.c + t.c, s.d + t.d, s.e + t.e, s.f + t.f, s.g + t.g, s.h + t.h⟩

/-- The big-endian words of a byte string. -/
def beWords : List UInt8 → List UInt32
  | b0 :: b1 :: b2 :: b3 :: rest =>
      UInt32.ofNat (leNat [b3, b2, b1, b0]) :: beWords rest
  | _ => []

def compress (s : State) (block : List UInt8) : State :=
  s.add (rounds roundConstants (beWords block) s)

/-- The padded message. -/
def pad (message : List UInt8) : List UInt8 :=
  message ++ 0x80 :: (List.replicate ((119 - message.length % 64) % 64) 0 ++
    (leBytes 8 (8 * message.length)).reverse)

def State.bytes (s : State) : List UInt8 :=
  [s.a, s.b, s.c, s.d, s.e, s.f, s.g, s.h].flatMap fun w => (leBytes 4 w.toNat).reverse

/-- The hash of a message. -/
def sha256 (message : List UInt8) : List UInt8 :=
  let padded := pad message
  ((List.range (padded.length / 64)).foldl (fun s i => compress s (slice padded (i * 64) 64))
    init).bytes

@[simp] theorem sha256_length (message : List UInt8) : (sha256 message).length = 32 := by
  simp [sha256, State.bytes]

/-! ## HMAC and PBKDF2 -/

/-- The key as one block of the hash. -/
def hmacKey (key : List UInt8) : List UInt8 :=
  let short := if 64 < key.length then sha256 key else key
  short ++ List.replicate (64 - short.length) 0

def hmac (key message : List UInt8) : List UInt8 :=
  let block := hmacKey key
  sha256 (block.map (· ^^^ 0x5c) ++ sha256 (block.map (· ^^^ 0x36) ++ message))

@[simp] theorem hmac_length (key message : List UInt8) : (hmac key message).length = 32 :=
  sha256_length _

/-- `n` more iterations after the one that gave `last`, added up in `total`. -/
def pbkdf2Loop (password : List UInt8) : (n : Nat) → (last total : List UInt8) → List UInt8
  | 0, _, total => total
  | n + 1, last, total =>
      pbkdf2Loop password n (hmac password last) (xorBytes total (hmac password last))

/-- The first block of the derived key. -/
def pbkdf2 (password salt : List UInt8) (rounds : Nat) : List UInt8 :=
  let first := hmac password (salt ++ [0, 0, 0, 1])
  pbkdf2Loop password (rounds - 1) first first

theorem pbkdf2Loop_length (password : List UInt8) (n : Nat) {last total : List UInt8}
    (h : total.length = 32) : (pbkdf2Loop password n last total).length = 32 := by
  induction n generalizing last total with
  | zero => exact h
  | succ n ih => exact ih (by simp [h])

@[simp] theorem pbkdf2_length (password salt : List UInt8) (rounds : Nat) :
    (pbkdf2 password salt rounds).length = 32 := pbkdf2Loop_length _ _ (hmac_length _ _)

end FileVault.Lib.Sha256
