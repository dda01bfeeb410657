import FileVault.Core.Unlock
import FileVault.Logic.Plist

/-!
# Encryption contexts with several crypto users

The property list of an encryption context as a list of items: elements of the four kinds that
the key material comes from, and text in which no key of theirs starts. A crypto user is a stretch
of items with one passphrase struct and one user type, and the wrapped volume keys stand anywhere
in between or behind. Extraction finds the first struct of the list, and the first volume key
behind the first algorithm that is `AES-XTS`.
-/

namespace FileVault

open Lib

/-- The kinds of elements that the key material and the protectors come from. -/
inductive ElementKey
  | passphraseStruct
  | userType
  | blockAlgorithm
  | volumeKey
  deriving DecidableEq, Repr

namespace ElementKey

def name : ElementKey → String
  | passphraseStruct => "PassphraseWrappedKEKStruct"
  | userType => "UserType"
  | blockAlgorithm => "BlockAlgorithm"
  | volumeKey => "KEKWrappedVolumeKeyStruct"

def openTag : ElementKey → Bytes
  | passphraseStruct | volumeKey => asBytes "<data ID="
  | userType => asBytes "<integer"
  | blockAlgorithm => asBytes "<string ID="

def closeTag : ElementKey → Bytes
  | passphraseStruct | volumeKey => asBytes "</data>"
  | userType => asBytes "</integer>"
  | blockAlgorithm => asBytes "</string>"

theorem name_clean (key : ElementKey) : '<' ∉ key.name.toList := by
  cases key <;> decide

theorem name_injective : Function.Injective name := by
  intro key other h
  cases key <;> cases other <;> first | rfl | exact absurd h (by decide)

theorem openTag_cons (key : ElementKey) : key.openTag = 0x3c :: key.openTag.tail := by
  cases key <;> decide

theorem openTag_clean (key : ElementKey) : 0x3e ∉ key.openTag := by
  cases key <;> decide

theorem openTag_markup (key : ElementKey) :
    clashesEverywhere [0x3c, 0x6b] key.openTag = true := by
  cases key <;> decide

theorem closeTag_cons (key : ElementKey) : key.closeTag = 0x3c :: key.closeTag.tail := by
  cases key <;> decide

theorem closeTag_markup (key : ElementKey) :
    clashesEverywhere [0x3c, 0x6b] key.closeTag = true := by
  cases key <;> decide

end ElementKey

/-- An element: its key, and behind it the value with its text. -/
structure ContextElement where
  key : ElementKey
  space : Bytes
  attributes : Bytes
  text : Bytes
  space_clean : 0x3c ∉ space
  attributes_clean : 0x3c ∉ attributes ∧ 0x3e ∉ attributes
  text_clean : 0x3c ∉ text

/-- The element as it stands in the context. -/
def ContextElement.render (e : ContextElement) : Bytes :=
  keyElement e.key.name ++ (e.space ++ (e.key.openTag ++ (e.attributes ++ (asBytes ">" ++
    (e.text ++ e.key.closeTag)))))

/-- A piece of a context. -/
inductive ContextItem
  | text (bytes : Bytes) (clean : ∀ key : ElementKey, AvoidsKey key.name bytes)
  | element (e : ContextElement)

namespace ContextItem

def render : ContextItem → Bytes
  | text bytes _ => bytes
  | element e => e.render

/-- The text of an element of this kind. -/
def textOf? (key : ElementKey) : ContextItem → Option Bytes
  | text _ _ => none
  | element e => if e.key = key then some e.text else none

end ContextItem

/-- The text of a list of items. -/
def renderItems (items : List ContextItem) : Bytes := items.flatMap ContextItem.render

theorem renderItems_append (items items' : List ContextItem) :
    renderItems (items ++ items') = renderItems items ++ renderItems items' :=
  List.flatMap_append

/-- The texts of the elements of one kind, in order. -/
def textsOf (key : ElementKey) (items : List ContextItem) : List Bytes :=
  items.filterMap (·.textOf? key)

/-- The text of the first volume key behind the first algorithm that is `AES-XTS`. -/
def volumeKeyText : List ContextItem → Option Bytes
  | [] => none
  | item :: items =>
      if item.textOf? .blockAlgorithm = some (asBytes "AES-XTS") then
        (textsOf .volumeKey items).head?
      else volumeKeyText items

/-! ## Scanning a list of items -/

/-- An element holds no key but its own. -/
theorem ContextElement.avoidsKey (e : ContextElement) {keyName : String}
    (hne : e.key.name ≠ keyName) (hkey : '<' ∉ keyName.toList) : AvoidsKey keyName e.render := by
  have gt : AvoidsKey keyName (asBytes ">") := avoidsKey_markup (by decide)
  exact (avoidsKey_keyElement hne hkey e.key.name_clean).append
    ((avoidsKey_of_not_mem e.space_clean).append ((avoidsKey_markup e.key.openTag_markup).append
      ((avoidsKey_of_not_mem e.attributes_clean.1).append (gt.append
        ((avoidsKey_of_not_mem e.text_clean).append (avoidsKey_markup e.key.closeTag_markup))))))

/-- An item without an element of the kind does not hold its key. -/
theorem ContextItem.avoidsKey {item : ContextItem} {key : ElementKey}
    (h : item.textOf? key = none) : AvoidsKey key.name item.render := by
  cases item with
  | text bytes clean => exact clean key
  | element e =>
      refine e.avoidsKey ?_ key.name_clean
      intro hname
      simp [ContextItem.textOf?, ElementKey.name_injective hname] at h

theorem avoidsKey_renderItems {keyName : String} {items : List ContextItem}
    (h : ∀ item ∈ items, AvoidsKey keyName item.render) :
    AvoidsKey keyName (renderItems items) := by
  rw [renderItems, List.flatMap_def]
  apply avoids_flatten
  intro text htext
  obtain ⟨item, hitem, rfl⟩ := List.mem_map.mp htext
  exact h item hitem

/-- The scanner finds an element behind text that does not hold its key. -/
theorem extractTaggedFrom_element (e : ContextElement) {front pending rest : Bytes}
    (hpending : AvoidsKey e.key.name pending)
    (hlen : (front ++ (pending ++ (e.render ++ rest))).length < usizeSize) :
    extractTaggedFrom (front ++ (pending ++ (e.render ++ rest))) e.key.name e.key.openTag
        e.key.closeTag front.length =
      some (e.text, (front ++ (pending ++ e.render)).length) := by
  have split : front ++ (pending ++ (e.render ++ rest)) = front ++ (pending ++
      (keyElement e.key.name ++ (e.space ++ (e.key.openTag ++ (e.attributes ++
        (asBytes ">" ++ (e.text ++ (e.key.closeTag ++ rest)))))))) := by
    simp only [ContextElement.render, List.append_assoc]
  have attributes : 0x3e ∉ e.key.openTag ++ e.attributes := by
    rw [List.mem_append, not_or]
    exact ⟨e.key.openTag_clean, e.attributes_clean.2⟩
  have space : AvoidsBefore e.key.openTag e.space (e.key.openTag ++ (e.attributes ++
      (asBytes ">" ++ (e.text ++ (e.key.closeTag ++ rest))))) := by
    rw [e.key.openTag_cons]
    exact (avoids_closing e.space_clean).before _
  have text : AvoidsBefore e.key.closeTag e.text (e.key.closeTag ++ rest) := by
    rw [e.key.closeTag_cons]
    exact (avoids_closing e.text_clean).before _
  rw [extractTaggedFrom_found (by rw [e.key.openTag_cons]; simp)
    (by rw [e.key.closeTag_cons]; simp) split (hpending.before _) space attributes text hlen]
  simp only [List.length_append, Option.some.injEq, Prod.mk.injEq, true_and]
  omega

/-- The text that is extracted for a kind is that of the first element of the kind. -/
theorem extractTagged_items (key : ElementKey) (items : List ContextItem) {pending : Bytes}
    (hpending : AvoidsKey key.name pending)
    (hlen : (pending ++ renderItems items).length < usizeSize) :
    extractTagged (pending ++ renderItems items) key.name key.openTag key.closeTag =
      (textsOf key items).head? := by
  induction items generalizing pending with
  | nil =>
      have nothing : extractTaggedFrom ([] ++ pending) key.name key.openTag key.closeTag
          ([] : Bytes).length = none := extractTaggedFrom_none (hpending.before _)
      rw [List.nil_append, List.length_nil] at nothing
      rw [renderItems, List.flatMap_nil, List.append_nil, extractTagged, nothing]
      rfl
  | cons item items ih =>
      have split : pending ++ renderItems (item :: items) =
          pending ++ (item.render ++ renderItems items) := rfl
      rw [split] at hlen ⊢
      cases hitem : item.textOf? key with
      | none =>
          have skipped : textsOf key (item :: items) = textsOf key items := by
            simp only [textsOf, List.filterMap_cons, hitem]
          rw [skipped, ← List.append_assoc]
          exact ih (hpending.append (ContextItem.avoidsKey hitem))
            (by simpa only [List.append_assoc] using hlen)
      | some text =>
          have first : (textsOf key (item :: items)).head? = some text := by
            simp only [textsOf, List.filterMap_cons, hitem, List.head?_cons]
          cases item with
          | text bytes clean => cases hitem
          | element e =>
              obtain ⟨rfl, rfl⟩ : e.key = key ∧ e.text = text := by
                simpa [ContextItem.textOf?] using hitem
              have found := @extractTaggedFrom_element e [] pending (renderItems items) hpending
                hlen
              rw [List.nil_append, List.length_nil] at found
              rw [first, extractTagged]
              show Option.map _ (extractTaggedFrom (pending ++ (e.render ++ renderItems items))
                _ _ _ 0) = _
              rw [found]
              rfl

/-- The text of the volume key is that of the first one behind the first algorithm that is
`AES-XTS`. -/
theorem wrappedKeyText_items (items : List ContextItem) {front pending : Bytes}
    (hpending : AvoidsKey "BlockAlgorithm" pending)
    (hlen : (front ++ (pending ++ renderItems items)).length < usizeSize) :
    wrappedKeyText (front ++ (pending ++ renderItems items)) front.length =
      volumeKeyText items := by
  induction items generalizing front pending with
  | nil =>
      have nothing : extractTaggedFrom (front ++ (pending ++ renderItems [])) "BlockAlgorithm"
          (asBytes "<string ID=") (asBytes "</string>") front.length = none := by
        rw [renderItems, List.flatMap_nil, List.append_nil]
        exact extractTaggedFrom_none (hpending.before _)
      rw [wrappedKeyText, aesXtsFrom_none nothing]
      rfl
  | cons item items ih =>
      have split : front ++ (pending ++ renderItems (item :: items)) =
          front ++ (pending ++ (item.render ++ renderItems items)) := rfl
      rw [split] at hlen ⊢
      cases hitem : item.textOf? .blockAlgorithm with
      | none =>
          have skipped : volumeKeyText (item :: items) = volumeKeyText items := by
            rw [volumeKeyText, hitem, if_neg (by simp)]
          have avoids : AvoidsKey "BlockAlgorithm" item.render := ContextItem.avoidsKey hitem
          rw [skipped, ← List.append_assoc pending]
          exact ih (hpending.append avoids) (by simpa only [List.append_assoc] using hlen)
      | some algorithm =>
          cases item with
          | text bytes clean => cases hitem
          | element e =>
              obtain ⟨hkey, rfl⟩ : e.key = .blockAlgorithm ∧ e.text = algorithm := by
                simpa [ContextItem.textOf?] using hitem
              have found := @extractTaggedFrom_element e front pending (renderItems items)
                (by rw [hkey]; exact hpending) hlen
              rw [hkey] at found
              have past : (front ++ (pending ++ e.render)) ++ renderItems items =
                  front ++ (pending ++ (e.render ++ renderItems items)) := by
                simp only [List.append_assoc]
              show wrappedKeyText (front ++ (pending ++ (e.render ++ renderItems items))) _ = _
              rw [volumeKeyText, hitem, wrappedKeyText, aesXtsFrom_some found]
              simp only [Option.some.injEq]
              by_cases hxts : e.text = asBytes "AES-XTS"
              · -- the key is looked for behind the algorithm
                have behind : getFrom (front ++ (pending ++ (e.render ++ renderItems items)))
                    (front ++ (pending ++ e.render)).length = some (renderItems items) := by
                  rw [getFrom_eq_some, ← past, List.drop_left]
                  exact ⟨by simp, rfl⟩
                have short : (renderItems items).length < usizeSize := by
                  simp only [ContextItem.render, List.length_append] at hlen
                  omega
                rw [if_pos hxts, if_pos hxts]
                simp only [Option.bind_eq_bind, Option.bind_some, behind]
                exact @extractTagged_items .volumeKey items [] (avoids_nil _) short
              · rw [if_neg hxts, if_neg hxts]
                have rest := @ih (front ++ (pending ++ e.render)) [] (avoids_nil _) (by
                  rw [List.nil_append, past]
                  exact hlen)
                rw [List.nil_append, past] at rest
                exact rest

/-! ## The users -/

/-- A crypto user: the passphrase, which is written nowhere, and the dict, with one passphrase
struct and one user type in it. The struct is any that the fields can be read from. -/
structure CryptoUser (crates : Crates) where
  passphrase : String
  userType : UInt32
  struct : Bytes
  items : List ContextItem
  structText : Bytes
  typeText : Bytes
  one_struct : textsOf .passphraseStruct items = [structText]
  one_type : textsOf .userType items = [typeText]
  struct_decodes : decodeBlob crates structText = some struct
  struct_long : 172 ≤ struct.length
  type_spelled : unsignedOf (2 ^ 32) typeText = some userType.toNat

/-- `0x10000001`. -/
def passwordUserType : UInt32 := 0x10000001

/-- The `n` bytes at an offset of a blob that is long enough. -/
def fieldOf (blob : Bytes) (off n : Nat) (h : off + n ≤ blob.length) : ByteArr n :=
  ⟨slice blob off n, slice_length_of_le h⟩

namespace CryptoUser

variable {crates : Crates} (u : CryptoUser crates)

/-- The fields of the struct. -/
def salt : ByteArr 16 :=
  fieldOf u.struct pwSaltOffset 16 (le_trans (by decide) u.struct_long)

def wrappedKek : ByteArr 24 :=
  fieldOf u.struct pwWrappedKekOffset 24 (le_trans (by decide) u.struct_long)

def iterations : UInt32 := UInt32.ofNat (leNat (slice u.struct pwIterationsOffset 4))

/-- What PBKDF2 stretches a password to, with the salt and the rounds of the struct. -/
def passphraseKey (password : String) : ByteArr 16 :=
  crates.pbkdf2 (asBytes password) u.salt (max u.iterations.toNat 1)

/-- The fields are what extraction reads from the struct. -/
theorem struct_fields :
    sliceArr 16 u.struct pwSaltOffset = some u.salt ∧
    sliceArr 24 u.struct pwWrappedKekOffset = some u.wrappedKek ∧
    readU32Le u.struct pwIterationsOffset = some u.iterations :=
  ⟨sliceArr_eq (le_trans (by decide) u.struct_long) (by decide) rfl,
    sliceArr_eq (le_trans (by decide) u.struct_long) (by decide) rfl,
    readU32Le_eq (le_trans (by decide) u.struct_long) (by decide)⟩

end CryptoUser

/-- What a context holds in front of its users, and behind them. -/
structure ContextFrame where
  lead : List ContextItem
  trail : List ContextItem
  lead_structless : textsOf .passphraseStruct lead = []

namespace ContextFrame

section

variable {crates : Crates} (frame : ContextFrame) (users : List (CryptoUser crates))

/-- The items of the context with these users. -/
def items : List ContextItem := frame.lead ++ (users.flatMap (·.items) ++ frame.trail)

/-- The text of the context. -/
def render : Bytes := renderItems (frame.items users)

/-- The volume key behind the first `AES-XTS` can be read, and this is its wrapped key. -/
def HoldsVolumeKey (wrappedVmk : ByteArr 24) : Prop :=
  ∃ text blob, volumeKeyText (frame.items users) = some text ∧
    decodeBlob crates text = some blob ∧ 32 ≤ blob.length ∧
    slice blob kekWrappedVmkOffset 24 = wrappedVmk.val

end

variable {crates : Crates} {frame : ContextFrame} {users : List (CryptoUser crates)}

/-- The length of the context does not depend on the order of its users. -/
theorem render_length_perm {users' : List (CryptoUser crates)} (h : users'.Perm users) :
    (frame.render users').length = (frame.render users).length := by
  have same : (renderItems (users'.flatMap (·.items))).length =
      (renderItems (users.flatMap (·.items))).length :=
    ((h.flatMap_right _).flatMap_right _).length_eq
  simp only [render, items, renderItems_append, List.length_append, same]

/-- The struct that is found is that of the first user. -/
theorem extractData_struct {first : CryptoUser crates} (hfirst : users.head? = some first)
    (hlen : (frame.render users).length < usizeSize) :
    extractData crates (frame.render users) "PassphraseWrappedKEKStruct" = some first.struct := by
  obtain ⟨rest, rfl⟩ : ∃ rest, users = first :: rest := by
    cases users with
    | nil => simp at hfirst
    | cons u rest => exact ⟨rest, by rw [List.head?_cons, Option.some.injEq] at hfirst; rw [hfirst]⟩
  have texts : (textsOf .passphraseStruct (frame.items (first :: rest))).head? =
      some first.structText := by
    have lead := frame.lead_structless
    have own := first.one_struct
    simp only [textsOf] at lead own
    simp only [textsOf, items, List.flatMap_cons, List.filterMap_append, lead, own,
      List.nil_append, List.cons_append, List.head?_cons]
  have found : dataText (frame.render (first :: rest)) "PassphraseWrappedKEKStruct" =
      some first.structText :=
    (@extractTagged_items .passphraseStruct (frame.items (first :: rest)) [] (avoids_nil _)
      hlen).trans texts
  rw [extractData_eq, found]
  exact first.struct_decodes

/-- What is extracted from a context: the key material of the first user. -/
theorem extract_render {first : CryptoUser crates} {wrappedVmk : ByteArr 24}
    (hfirst : users.head? = some first) (hlen : (frame.render users).length < usizeSize)
    (hvmk : frame.HoldsVolumeKey users wrappedVmk) :
    EncryptionContext.extract crates (frame.render users) = .ok {
      salt := first.salt
      iterations := first.iterations
      wrappedKek := first.wrappedKek
      wrappedVmk
      protectors := extractProtectors (frame.render users)
      conversionStatus := extractString (frame.render users) "ConversionStatus" } := by
  obtain ⟨hsalt, hkek, hiterations⟩ := first.struct_fields
  obtain ⟨text, blob, htext, hdecode, hlong, hslice⟩ := hvmk
  have vmk_at : kekWrappedVmkOffset = 8 := rfl
  have found : wrappedKeyText (frame.render users) 0 = some text :=
    (@wrappedKeyText_items (frame.items users) [] [] (avoids_nil _) hlen).trans htext
  have volumeKey : extractKekWrappedAesXts crates (frame.render users) = some blob := by
    rw [extractKekWrappedAesXts, kekWrappedAesXtsFrom_eq, found]
    exact hdecode
  have field : sliceArr 24 blob kekWrappedVmkOffset = some wrappedVmk :=
    sliceArr_eq (by omega) (by decide) hslice
  unfold EncryptionContext.extract
  rw [extractData_struct hfirst hlen, volumeKey]
  simp only [okOr_some, ok_bind, hsalt, hkek, hiterations, field, pure_run]

end ContextFrame

end FileVault
