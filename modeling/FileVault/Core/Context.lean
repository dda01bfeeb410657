import FileVault.Core.Crates
import FileVault.Core.Read
import FileVault.Core.Text
import FileVault.Lib.Search

/-!
# Targeted extraction (`context.rs`)

The decrypted metadata carries XML plists; the values needed from them are found
by bounded substring search, without a plist parser. The substring machine is
`extractTaggedFrom`: four leftmost searches, each starting where the one before
it ended.
-/

namespace FileVault

open Lib

/-- Classification of a CoreStorage crypto-user `UserType`. -/
inductive ProtectorKind
  | password
  | recovery
  | institutional
  | unknown
  deriving DecidableEq, Repr

/-- `ProtectorKind::from_user_type`. -/
def ProtectorKind.fromUserType (userType : UInt32) : ProtectorKind :=
  if userType = 0x10000001 then .password
  else if userType = 0x10000009 then .recovery
  else if userType = 0x10000005 ∨ userType = 0x1000000f then .institutional
  else .unknown

/-- `ProtectorKind::label`. -/
def ProtectorKind.label : ProtectorKind → String
  | .password => "password"
  | .recovery => "recovery"
  | .institutional => "institutional"
  | .unknown => "unknown"

theorem ProtectorKind.label_injective : Function.Injective ProtectorKind.label := by
  intro k l h
  cases k <;> cases l <;> first | rfl | exact absurd h (by decide)

/-- A crypto-user (protector), by its `UserType` code. -/
structure Protector where
  userType : UInt32
  kind : ProtectorKind
  deriving DecidableEq, Repr

/-- The password protector's wrapped-key material and PBKDF2 parameters. -/
structure EncryptionContext where
  salt : ByteArr 16
  iterations : UInt32
  wrappedKek : ByteArr 24
  wrappedVmk : ByteArr 24
  protectors : List Protector
  conversionStatus : Option String
  deriving DecidableEq

def pwSaltOffset : Nat := 8
def pwWrappedKekOffset : Nat := 32
def pwIterationsOffset : Nat := 168
def kekWrappedVmkOffset : Nat := 8
def maxBase64Blob : Nat := 4096

/-! ## The substring machine -/

/-- `data.get(start..)`. -/
def getFrom (data : Bytes) (start : Nat) : Option Bytes :=
  if start ≤ data.length then some (data.drop start) else none

/-- `find_sub`: the first window of the haystack that equals the needle. -/
def findSub (haystack needle : Bytes) : Option Nat :=
  if needle = [] ∨ haystack.length < needle.length then none
  else firstMatch needle haystack

/-- `<key>NAME</key>`. -/
def keyElement (keyName : String) : Bytes :=
  asBytes "<key>" ++ asBytes keyName ++ asBytes "</key>"

/-- `extract_tagged_from`: the text between the tags, and the position just past
the closing tag. -/
def extractTaggedFrom (metadata : Bytes) (keyName : String) (openTag closeTag : Bytes)
    (start : Nat) : Option (Bytes × Nat) := do
  let key := keyElement keyName
  let keyAt ← checkedAdd start (← findSub (← getFrom metadata start) key)
  let afterKey ← checkedAdd keyAt key.length
  let openRel ← findSub (← getFrom metadata afterKey) openTag
  let openAbs ← checkedAdd afterKey openRel
  -- the '>' that closes the opening tag
  let gtRel ← findSub (← getFrom metadata openAbs) (asBytes ">")
  let innerStart ← checkedAdd (← checkedAdd openAbs gtRel) 1
  let closeRel ← findSub (← getFrom metadata innerStart) closeTag
  let innerEnd ← checkedAdd innerStart closeRel
  let inner ← getRange metadata innerStart innerEnd
  let stop ← checkedAdd innerEnd closeTag.length
  return (inner, stop)

/-- `extract_tagged`. -/
def extractTagged (metadata : Bytes) (keyName : String) (openTag closeTag : Bytes) :
    Option Bytes :=
  (extractTaggedFrom metadata keyName openTag closeTag 0).map (·.1)

theorem findSub_eq_some {haystack needle : Bytes} {i : Nat}
    (h : findSub haystack needle = some i) :
    needle ≠ [] ∧ firstMatch needle haystack = some i := by
  unfold findSub at h
  split at h
  · simp at h
  · next hguard => exact ⟨fun hnil => hguard (Or.inl hnil), h⟩

theorem findSub_of_firstMatch {haystack needle : Bytes} (hne : needle ≠ []) :
    findSub haystack needle = firstMatch needle haystack := by
  unfold findSub
  split
  · next hguard =>
      rcases hguard with h | h
      · exact absurd h hne
      · symm
        cases hm : firstMatch needle haystack with
        | none => rfl
        | some i =>
            have := firstMatch_bound hm
            omega
  · rfl

theorem checkedAdd_eq_some {a b c : Nat} : checkedAdd a b = some c ↔
    a + b < usizeSize ∧ c = a + b := by
  unfold checkedAdd
  split
  · simp_all [eq_comm]
  · simp_all

theorem getFrom_eq_some {data rest : Bytes} {start : Nat} :
    getFrom data start = some rest ↔ start ≤ data.length ∧ rest = data.drop start := by
  unfold getFrom
  split
  · simp_all [eq_comm]
  · simp_all

/-- What a successful extraction found: a match of each of the four needles, each
leftmost from where the one before it ended. -/
theorem extractTaggedFrom_some {metadata openTag closeTag value : Bytes} {keyName : String}
    {start stop : Nat}
    (h : extractTaggedFrom metadata keyName openTag closeTag start = some (value, stop)) :
    ∃ keyRel openRel gtRel closeRel,
      findSub (metadata.drop start) (keyElement keyName) = some keyRel ∧
      findSub (metadata.drop (start + keyRel + (keyElement keyName).length)) openTag
        = some openRel ∧
      findSub (metadata.drop (start + keyRel + (keyElement keyName).length + openRel))
        (asBytes ">") = some gtRel ∧
      findSub (metadata.drop
        (start + keyRel + (keyElement keyName).length + openRel + gtRel + 1)) closeTag
        = some closeRel ∧
      value = slice metadata
        (start + keyRel + (keyElement keyName).length + openRel + gtRel + 1) closeRel ∧
      stop = start + keyRel + (keyElement keyName).length + openRel + gtRel + 1 + closeRel
        + closeTag.length ∧
      stop ≤ metadata.length := by
  simp only [extractTaggedFrom, Option.bind_eq_bind, Option.bind_eq_some_iff,
    getFrom_eq_some, checkedAdd_eq_some] at h
  obtain ⟨_, ⟨_, rfl⟩, keyRel, hkey, keyAt, ⟨_, rfl⟩, afterKey, ⟨_, rfl⟩, _, ⟨_, rfl⟩,
    openRel, hopen, openAbs, ⟨_, rfl⟩, _, ⟨_, rfl⟩, gtRel, hgt, _, ⟨_, rfl⟩, innerStart,
    ⟨_, rfl⟩, _, ⟨inside, rfl⟩, closeRel, hclose, innerEnd, ⟨_, rfl⟩, inner, hinner,
    last, ⟨_, rfl⟩, hpair⟩ := h
  have bound := firstMatch_bound (findSub_eq_some hclose).2
  rw [List.length_drop] at bound
  rw [getRange_add, if_pos (by omega)] at hinner
  simp only [Option.some.injEq] at hinner
  simp only [Option.pure_def, Option.some.injEq, Prod.mk.injEq] at hpair
  exact ⟨keyRel, openRel, gtRel, closeRel, hkey, hopen, hgt, hclose,
    by rw [← hpair.1, ← hinner], hpair.2.symm, by omega⟩

/-- An extraction ends inside the metadata and past where it started. -/
theorem extractTaggedFrom_progress {metadata openTag closeTag value : Bytes}
    {keyName : String} {start stop : Nat}
    (h : extractTaggedFrom metadata keyName openTag closeTag start = some (value, stop)) :
    start < stop ∧ stop ≤ metadata.length := by
  obtain ⟨_, _, _, _, -, -, -, -, -, hstop, hle⟩ := extractTaggedFrom_some h
  omega

/-! ## Typed values -/

/-- `extract_data`. -/
def extractData (crates : Crates) (metadata : Bytes) (keyName : String) : Option Bytes := do
  let value ← extractTagged metadata keyName (asBytes "<data ID=") (asBytes "</data>")
  let trimmed := value.filter (!isAsciiWhitespace ·)
  if maxBase64Blob < trimmed.length then none
  else crates.base64Decode trimmed

/-- `extract_string`. -/
def extractString (metadata : Bytes) (keyName : String) : Option String := do
  let value ← extractTagged metadata keyName (asBytes "<string ID=") (asBytes "</string>")
  fromUtf8 value

/-- The body of `extract_integer_from` and `extract_u64_integer`, for an unsigned
type with `bound` values. -/
def extractUnsignedFrom (bound : Nat) (metadata : Bytes) (keyName : String) (start : Nat) :
    Option (Nat × Nat) := do
  let (value, stop) ← extractTaggedFrom metadata keyName (asBytes "<integer")
    (asBytes "</integer>") start
  let text ← fromUtf8 value
  let parsed ← parseInteger bound text.toList
  return (parsed, stop)

/-- `extract_integer_from`. -/
def extractIntegerFrom (metadata : Bytes) (keyName : String) (start : Nat) :
    Option (UInt32 × Nat) :=
  (extractUnsignedFrom (2 ^ 32) metadata keyName start).map
    fun (parsed, stop) => (UInt32.ofNat parsed, stop)

/-- `extract_u64_integer`. -/
def extractU64Integer (metadata : Bytes) (keyName : String) : Option (UInt64 × Nat) :=
  (extractUnsignedFrom (2 ^ 64) metadata keyName 0).map
    fun (parsed, stop) => (UInt64.ofNat parsed, stop)

/-- The loop of `extract_protectors`, with room for `room` more entries. -/
def protectorsFrom (metadata : Bytes) : (room : Nat) → (cursor : Nat) → List Protector
  | 0, _ => []
  | room + 1, cursor =>
      match extractIntegerFrom metadata "UserType" cursor with
      | none => []
      | some (userType, stop) =>
          { userType, kind := .fromUserType userType } :: protectorsFrom metadata room stop

/-- `extract_protectors`: the loop breaks once 64 have been found. -/
def extractProtectors (metadata : Bytes) : List Protector := protectorsFrom metadata 64 0

theorem protectorsFrom_none {metadata : Bytes} {room cursor : Nat}
    (h : extractIntegerFrom metadata "UserType" cursor = none) :
    protectorsFrom metadata room cursor = [] := by
  cases room with
  | zero => rfl
  | succ room => rw [protectorsFrom, h]

theorem protectorsFrom_some {metadata : Bytes} {room cursor stop : Nat} {userType : UInt32}
    (h : extractIntegerFrom metadata "UserType" cursor = some (userType, stop)) :
    protectorsFrom metadata (room + 1) cursor =
      ⟨userType, .fromUserType userType⟩ :: protectorsFrom metadata room stop := by
  rw [protectorsFrom, h]

/-- The loop of `extract_kek_wrapped_aes_xts`. -/
def kekWrappedAesXtsFrom (crates : Crates) (metadata : Bytes) (cursor : Nat) : Option Bytes :=
  match _h : extractTaggedFrom metadata "BlockAlgorithm" (asBytes "<string ID=")
      (asBytes "</string>") cursor with
  | none => none
  | some (algo, stop) =>
      -- the struct is looked for in what is left behind the algorithm
      if algo = asBytes "AES-XTS" then do
        extractData crates (← getFrom metadata stop) "KEKWrappedVolumeKeyStruct"
      else kekWrappedAesXtsFrom crates metadata stop
termination_by metadata.length - cursor
decreasing_by
  have := extractTaggedFrom_progress _h
  omega

/-- `extract_kek_wrapped_aes_xts`. -/
def extractKekWrappedAesXts (crates : Crates) (metadata : Bytes) : Option Bytes :=
  kekWrappedAesXtsFrom crates metadata 0

theorem kekWrappedAesXtsFrom_none {crates : Crates} {metadata : Bytes} {cursor : Nat}
    (h : extractTaggedFrom metadata "BlockAlgorithm" (asBytes "<string ID=")
      (asBytes "</string>") cursor = none) :
    kekWrappedAesXtsFrom crates metadata cursor = none := by
  rw [kekWrappedAesXtsFrom]
  split
  · rfl
  · next hsome =>
      rw [h] at hsome
      cases hsome

theorem kekWrappedAesXtsFrom_some {crates : Crates} {metadata algo : Bytes} {cursor stop : Nat}
    (h : extractTaggedFrom metadata "BlockAlgorithm" (asBytes "<string ID=")
      (asBytes "</string>") cursor = some (algo, stop)) :
    kekWrappedAesXtsFrom crates metadata cursor =
      if algo = asBytes "AES-XTS" then
        (getFrom metadata stop).bind (extractData crates · "KEKWrappedVolumeKeyStruct")
      else kekWrappedAesXtsFrom crates metadata stop := by
  rw [kekWrappedAesXtsFrom]
  split
  · next hnone =>
      rw [h] at hnone
      cases hnone
  · next algo' stop' hsome =>
      rw [h] at hsome
      obtain ⟨rfl, rfl⟩ := Prod.mk.inj (Option.some.inj hsome)
      rfl

/-- `slice16`, `slice24`: a fixed-size array at an offset. -/
def sliceArr (n : Nat) (data : Bytes) (off : Nat) : Option (ByteArr n) := do
  let s ← getRange data off (← checkedAdd off n)
  if h : s.length = n then some ⟨s, h⟩ else none

/-- `read_u32_le`. -/
def readU32Le (data : Bytes) (off : Nat) : Option UInt32 := do
  let s ← getRange data off (← checkedAdd off 4)
  return UInt32.ofNat (leNat s)

/-! ## The two records -/

/-- `EncryptionContext::extract`. -/
def EncryptionContext.extract (crates : Crates) (metadata : Bytes) : Run EncryptionContext := do
  let pw ← okOr (extractData crates metadata "PassphraseWrappedKEKStruct")
    (.metadataStructureMissing "PassphraseWrappedKEKStruct")
  let salt ← okOr (sliceArr 16 pw pwSaltOffset)
    (.outOfRange "PassphraseWrappedKEKStruct salt")
  let wrappedKek ← okOr (sliceArr 24 pw pwWrappedKekOffset)
    (.outOfRange "PassphraseWrappedKEKStruct wrapped KEK")
  let iterations ← okOr (readU32Le pw pwIterationsOffset)
    (.outOfRange "PassphraseWrappedKEKStruct iterations")
  let vmkStruct ← okOr (extractKekWrappedAesXts crates metadata)
    (.metadataStructureMissing "AES-XTS KEKWrappedVolumeKeyStruct")
  let wrappedVmk ← okOr (sliceArr 24 vmkStruct kekWrappedVmkOffset)
    (.outOfRange "KEKWrappedVolumeKeyStruct wrapped VMK")
  return {
    salt, iterations, wrappedKek, wrappedVmk
    protectors := extractProtectors metadata
    conversionStatus := extractString metadata "ConversionStatus" }

/-- The LV logical size and family UUID, from the decrypted metadata. -/
structure LogicalVolumeInfo where
  size : UInt64
  familyUuid : String
  lvIdentifier : Option String
  name : Option String
  deriving DecidableEq, Repr

/-- `extract_lv_size`. -/
def extractLvSize (metadata : Bytes) : Option UInt64 :=
  match extractU64Integer metadata "com.apple.corestorage.lv.size" with
  | some (value, _) => some value
  | none => none

/-- `LogicalVolumeInfo::extract`. -/
def LogicalVolumeInfo.extract (metadata : Bytes) : Run LogicalVolumeInfo := do
  let familyUuid ← okOr (extractString metadata "com.apple.corestorage.lv.familyUUID")
    (.metadataStructureMissing "com.apple.corestorage.lv.familyUUID")
  -- a size that is missing or malformed is 0: then the segment has it
  let size := (extractLvSize metadata).getD 0
  let lvIdentifier := extractString metadata "com.apple.corestorage.lv.uuid"
  let name := extractString metadata "com.apple.corestorage.lv.name"
  return { size, familyUuid, lvIdentifier, name }

end FileVault
