import FileVault.Logic.Plist

/-!
# The protector inventory

`extract_protectors` goes from one `UserType` to the next, and ends at the first whose
text is not a number of 32 bits, or after 64 of them. What it lists is a prefix of the
inventory; it is all of it when no number comes after the first text that is none, and
there are not more than 64.
-/

namespace FileVault

open Lib

/-- A crypto-user record, up to the end of its `UserType`. What comes after that belongs to
the text before the next one, or to the end of the metadata. -/
structure UserRecord where
  before : Bytes
  attributes : Bytes
  text : Bytes
  one_pair : ¬ keyElement "UserType" <:+: before
  attributes_clean : 0x3e ∉ attributes
  text_closed : ¬ asBytes "</integer>" <:+: text

namespace UserRecord

/-- The record as it stands in the metadata. -/
def render (record : UserRecord) : Bytes :=
  record.before ++
    tagged "UserType" (asBytes "<integer") record.attributes record.text (asBytes "</integer>")

/-- The user type, if the text is a `0x`-hexadecimal or decimal number of 32 bits. -/
def userType (record : UserRecord) : Option UInt32 :=
  (unsignedOf (2 ^ 32) record.text).map UInt32.ofNat

end UserRecord

/-- The metadata of a sequence of records. -/
def recordsMetadata (records : List UserRecord) (trail : Bytes) : Bytes :=
  records.flatMap UserRecord.render ++ trail

/-- The user type of every record that has one, with its kind. -/
def inventory (records : List UserRecord) : List Protector :=
  records.filterMap fun record =>
    record.userType.map fun userType => { userType, kind := .fromUserType userType }

/-- The text does not reach over its closing tag. -/
theorem UserRecord.text_before (record : UserRecord) (rest : Bytes) :
    AvoidsBefore (asBytes "</integer>") record.text (asBytes "</integer>" ++ rest) := by
  have opening : [0x3c] <+: asBytes "</integer>" ++ rest := by
    rw [asBytes_integer_close]
    simp
  have once : Avoids [0x3c] (asBytes "</integer>").tail := by
    rw [asBytes_integer_close]
    exact avoids_of_not_mem (by decide)
  exact avoidsBefore_of_not_infix record.text_closed opening once

/-- From the end of one record the next is read, if its text is a number. -/
theorem extractIntegerFrom_record (front : Bytes) (record : UserRecord) (rest : Bytes)
    (hlen : (front ++ (record.render ++ rest)).length < usizeSize) :
    extractIntegerFrom (front ++ (record.render ++ rest)) "UserType" front.length =
      record.userType.map fun userType => (userType, (front ++ record.render).length) := by
  have split : front ++ (record.render ++ rest) =
      front ++ (record.before ++ (tagged "UserType" (asBytes "<integer") record.attributes
        record.text (asBytes "</integer>") ++ rest)) := by
    rw [UserRecord.render, List.append_assoc]
  have gap : AvoidsBefore (keyElement "UserType") record.before
      (tagged "UserType" (asBytes "<integer") record.attributes record.text
        (asBytes "</integer>") ++ rest) := by
    rw [tagged, List.append_assoc]
    exact avoidsBefore_keyElement "UserType" (by decide) record.one_pair
  rw [split] at hlen ⊢
  unfold extractIntegerFrom UserRecord.userType
  rw [extractUnsignedFrom_element gap record.attributes_clean (record.text_before rest) hlen]
  cases unsignedOf (2 ^ 32) record.text with
  | none => rfl
  | some n => rfl

/-- After the last record there is no other. -/
theorem extractIntegerFrom_trail (front : Bytes) {trail : Bytes}
    (htrail : ¬ keyElement "UserType" <:+: trail) :
    extractIntegerFrom (front ++ trail) "UserType" front.length = none := by
  unfold extractIntegerFrom extractUnsignedFrom
  rw [extractTaggedFrom_none (avoidsBefore_nil htrail)]
  rfl

/-- The loop lists the records up to the first without a number, as far as there is room. -/
theorem protectorsFrom_records (records : List UserRecord) {front trail : Bytes}
    (htrail : ¬ keyElement "UserType" <:+: trail) (room : Nat)
    (hlen : (front ++ recordsMetadata records trail).length < usizeSize) :
    protectorsFrom (front ++ recordsMetadata records trail) room front.length =
      (inventory (records.takeWhile (·.userType.isSome))).take room := by
  induction records generalizing front room with
  | nil =>
      show protectorsFrom (front ++ trail) room front.length = _
      rw [protectorsFrom_none (extractIntegerFrom_trail front htrail)]
      simp [inventory]
  | cons record records ih =>
      cases room with
      | zero => rw [protectorsFrom, List.take_zero]
      | succ room =>
          have split : front ++ recordsMetadata (record :: records) trail =
              front ++ (record.render ++ recordsMetadata records trail) := by
            simp only [recordsMetadata, List.flatMap_cons, List.append_assoc]
          rw [split] at hlen ⊢
          have found := extractIntegerFrom_record front record _ hlen
          -- a text that is no number ends the loop
          cases htype : record.userType with
          | none =>
              rw [htype, Option.map_none] at found
              rw [protectorsFrom_none found]
              simp [htype, inventory]
          | some userType =>
              rw [htype, Option.map_some] at found
              have rest := @ih (front ++ record.render) room
                (by simpa only [List.append_assoc] using hlen)
              rw [List.append_assoc] at rest
              rw [protectorsFrom_some found, rest]
              simp [htype, inventory]

theorem extractProtectors_records (records : List UserRecord) {trail : Bytes}
    (htrail : ¬ keyElement "UserType" <:+: trail)
    (hlen : (recordsMetadata records trail).length < usizeSize) :
    extractProtectors (recordsMetadata records trail) =
      (inventory (records.takeWhile (·.userType.isSome))).take 64 :=
  @protectorsFrom_records records [] trail htrail 64 hlen

/-! ## When it is all of them -/

/-- Every record after the first malformed one is malformed, and at most 64 are not. -/
structure AllListed (records : List UserRecord) : Prop where
  none_later : ∀ record ∈ records.dropWhile (·.userType.isSome), record.userType = none
  room : (records.takeWhile (·.userType.isSome)).length ≤ 64

/-- Records that are all well formed have one entry each. -/
theorem inventory_length {records : List UserRecord}
    (h : ∀ record ∈ records, record.userType.isSome) :
    (inventory records).length = records.length := by
  induction records with
  | nil => rfl
  | cons record records ih =>
      obtain ⟨userType, htype⟩ := Option.isSome_iff_exists.mp (h record (by simp))
      have rest := ih fun r hr => h r (List.mem_cons_of_mem _ hr)
      have entry : inventory (record :: records) =
          { userType, kind := .fromUserType userType } :: inventory records := by
        simp [inventory, htype]
      rw [entry, List.length_cons, rest, List.length_cons]

theorem inventory_eq_nil {records : List UserRecord} :
    inventory records = [] ↔ ∀ record ∈ records, record.userType = none := by
  simp [inventory, List.filterMap_eq_nil_iff]

theorem inventory_split (records : List UserRecord) :
    inventory records = inventory (records.takeWhile (·.userType.isSome)) ++
      inventory (records.dropWhile (·.userType.isSome)) := by
  conv_lhs => rw [← List.takeWhile_append_dropWhile (p := (·.userType.isSome)) (l := records)]
  simp only [inventory, List.filterMap_append]

/-- The inventory is complete exactly when no well-formed record comes after a malformed one
and there are at most 64 of them. -/
theorem inventory_complete_iff (records : List UserRecord) {trail : Bytes}
    (htrail : ¬ keyElement "UserType" <:+: trail)
    (hlen : (recordsMetadata records trail).length < usizeSize) :
    extractProtectors (recordsMetadata records trail) = inventory records ↔
      AllListed records := by
  -- the loop lists what comes before the first malformed record, up to 64
  have listed : (inventory (records.takeWhile (·.userType.isSome))).length =
      (records.takeWhile (·.userType.isSome)).length :=
    inventory_length fun record hrecord => by simpa using List.mem_takeWhile_imp hrecord
  rw [extractProtectors_records records htrail hlen, inventory_split records]
  constructor
  · intro complete
    have lengths := congrArg List.length complete
    rw [List.length_take, List.length_append, listed] at lengths
    have later : inventory (records.dropWhile (·.userType.isSome)) = [] :=
      List.length_eq_zero_iff.mp (by omega)
    exact ⟨inventory_eq_nil.mp later, by omega⟩
  · rintro ⟨none_later, room⟩
    rw [inventory_eq_nil.mpr none_later, List.append_nil, List.take_of_length_le (by omega)]

/-- A record with nothing but its pair. -/
def UserRecord.bare (text : String) (h : ¬ asBytes "</integer>" <:+: asBytes text) :
    UserRecord where
  before := []
  attributes := []
  text := asBytes text
  one_pair := by decide
  attributes_clean := by simp
  text_closed := h

/-- A password user after a record whose type is no number. -/
def shadowedRecords : List UserRecord :=
  [.bare "none" (by decide), .bare "0x10000001" (by decide)]

theorem shadowedRecords_iff :
    extractProtectors (recordsMetadata shadowedRecords []) = inventory shadowedRecords ↔
      AllListed shadowedRecords :=
  inventory_complete_iff shadowedRecords (by decide) (by decide +kernel)

/-- The user is not listed. -/
theorem shadowedRecords_lost :
    inventory shadowedRecords = [⟨0x10000001, .password⟩] ∧
      extractProtectors (recordsMetadata shadowedRecords []) = [] := by
  constructor
  · decide +kernel
  · decide +kernel

end FileVault
