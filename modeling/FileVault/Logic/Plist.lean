import FileVault.Core.Context

/-!
# Extraction from a rendered property list

The scanner knows nothing of XML; what makes it find the right value is that the
key element does not occur in the text before it. `tagged` is how a key and its
value are written; extraction finds it after any text that avoids the key, and
finds nothing in a text that avoids it altogether.
-/

namespace FileVault

open Lib

/-- `<key>NAME</key>` and the element after it, attributes and all. -/
def tagged (keyName : String) (openTag attributes : Bytes) (value : Bytes) (closeTag : Bytes) :
    Bytes :=
  keyElement keyName ++ (openTag ++ (attributes ++ (asBytes ">" ++ (value ++ closeTag))))

/-- No key element of this name starts in the text. -/
def AvoidsKey (keyName : String) (text : Bytes) : Prop := Avoids (keyElement keyName) text

theorem asBytes_gt : asBytes ">" = [0x3e] := by decide

theorem keyElement_cons (keyName : String) :
    keyElement keyName = 0x3c :: ([0x6b, 0x65, 0x79, 0x3e] ++ asBytes keyName ++
      asBytes "</key>") := by
  have : asBytes "<key>" = 0x3c :: [0x6b, 0x65, 0x79, 0x3e] := by decide
  rw [keyElement, this]
  simp

theorem asBytes_key_close : asBytes "</key>" = 0x3c :: [0x2f, 0x6b, 0x65, 0x79, 0x3e] := by decide

theorem keyElement_ne_nil (keyName : String) : keyElement keyName ≠ [] := by
  rw [keyElement_cons]
  simp

/-- Text without a `<` holds no key element. -/
theorem avoidsKey_of_not_mem {keyName : String} {text : Bytes} (h : 0x3c ∉ text) :
    AvoidsKey keyName text := by
  unfold AvoidsKey
  rw [keyElement_cons]
  exact avoids_of_not_mem h

theorem not_mem_asBytes {text : String} (h : '<' ∉ text.toList) : 0x3c ∉ asBytes text :=
  fun hmem => h (mem_of_mem_asBytes (by decide) hmem)

/-- Of a key element only the start is a `<` and a `k`. -/
theorem avoids_keyElement_tail {keyName : String} (hkey : '<' ∉ keyName.toList) :
    Avoids [0x3c, 0x6b] (keyElement keyName).tail := by
  rw [keyElement_cons, List.tail_cons, List.append_assoc]
  refine (avoids_of_not_mem (by decide)).append ?_
  refine (avoids_of_not_mem (not_mem_asBytes hkey)).append ?_
  rw [asBytes_key_close]
  exact avoids_of_clashes (by decide)

/-- In front of another key element it is enough that the key element does not occur. -/
theorem avoidsBefore_keyElement {keyName : String} {text rest : Bytes} (other : String)
    (hkey : '<' ∉ keyName.toList) (h : ¬ keyElement keyName <:+: text) :
    AvoidsBefore (keyElement keyName) text (keyElement other ++ rest) := by
  refine avoidsBefore_of_not_infix h ?_ (avoids_keyElement_tail hkey)
  rw [keyElement_cons]
  simp

theorem AvoidsKey.append {keyName : String} {text text' : Bytes} (h : AvoidsKey keyName text)
    (h' : AvoidsKey keyName text') : AvoidsKey keyName (text ++ text') :=
  Avoids.append h h'

/-- Markup in which no tag starts with a `k` holds no key element. -/
theorem avoidsKey_markup {keyName : String} {text : Bytes}
    (h : clashesEverywhere [0x3c, 0x6b] text = true) : AvoidsKey keyName text := by
  unfold AvoidsKey
  rw [keyElement_cons]
  exact (avoids_of_clashes h).extend (by simp)

/-- A key element holds no other. -/
theorem avoidsKey_keyElement {keyName other : String} (hne : other ≠ keyName)
    (hkey : '<' ∉ keyName.toList) (hother : '<' ∉ other.toList) :
    AvoidsKey keyName (keyElement other) := by
  unfold AvoidsKey
  rw [keyElement_cons other]
  apply avoids_cons
  · intro rest hit
    rw [keyElement_cons, asBytes_key_close] at hit
    simp only [List.cons_append, List.append_assoc, List.nil_append, List.cons_prefix_cons,
      true_and] at hit
    have same := eq_of_marked_prefix (not_mem_asBytes hkey) (not_mem_asBytes hother) hit
    apply hne
    have decoded := congrArg fromUtf8 same
    rw [fromUtf8_asBytes, fromUtf8_asBytes] at decoded
    exact (Option.some.inj decoded).symm
  · rw [asBytes_key_close]
    apply AvoidsKey.append
    · apply avoidsKey_of_not_mem
      simp only [List.mem_append, not_or]
      exact ⟨by decide, not_mem_asBytes hother⟩
    · exact avoidsKey_markup (by decide)

/-- A tagged value under another key holds no key element. -/
theorem AvoidsKey.tagged {keyName other : String} {openTag attributes value closeTag : Bytes}
    (hne : other ≠ keyName) (hkey : '<' ∉ keyName.toList) (hother : '<' ∉ other.toList)
    (hopen : AvoidsKey keyName (openTag ++ (attributes ++ asBytes ">")))
    (hvalue : 0x3c ∉ value) (hclose : clashesEverywhere [0x3c, 0x6b] closeTag = true) :
    AvoidsKey keyName (tagged other openTag attributes value closeTag) := by
  have parts : FileVault.tagged other openTag attributes value closeTag =
      keyElement other ++ ((openTag ++ (attributes ++ asBytes ">")) ++ (value ++ closeTag)) := by
    simp only [FileVault.tagged, List.append_assoc]
  rw [parts]
  exact (avoidsKey_keyElement hne hkey hother).append (hopen.append
    ((avoidsKey_of_not_mem hvalue).append (avoidsKey_markup hclose)))

/-- A tagged value under another key and a fixed opening tag holds no key element. -/
theorem avoidsKey_tagged {keyName other : String} {openTag attributes value closeTag : Bytes}
    (hne : other ≠ keyName) (hkey : '<' ∉ keyName.toList) (hother : '<' ∉ other.toList)
    (hopen : clashesEverywhere [0x3c, 0x6b] (openTag ++ (attributes ++ asBytes ">")) = true)
    (hvalue : 0x3c ∉ value) (hclose : clashesEverywhere [0x3c, 0x6b] closeTag = true) :
    AvoidsKey keyName (tagged other openTag attributes value closeTag) :=
  AvoidsKey.tagged hne hkey hother (avoidsKey_markup hopen) hvalue hclose

/-- The absolute position of the next occurrence of a needle. -/
def locate (metadata needle : Bytes) (start : Nat) : Option Nat := do
  checkedAdd start (← findSub (← getFrom metadata start) needle)

/-- The scanner as four such steps. -/
theorem extractTaggedFrom_eq (metadata : Bytes) (keyName : String) (openTag closeTag : Bytes)
    (start : Nat) :
    extractTaggedFrom metadata keyName openTag closeTag start = (do
      let keyAt ← locate metadata (keyElement keyName) start
      let afterKey ← checkedAdd keyAt (keyElement keyName).length
      let openAbs ← locate metadata openTag afterKey
      let gtAbs ← locate metadata (asBytes ">") openAbs
      let innerStart ← checkedAdd gtAbs 1
      let innerEnd ← locate metadata closeTag innerStart
      let inner ← getRange metadata innerStart innerEnd
      let stop ← checkedAdd innerEnd closeTag.length
      return (inner, stop)) := by
  simp only [extractTaggedFrom, locate, bind_assoc]

/-- The next occurrence is after the text that avoids the needle. -/
theorem locate_eq {metadata before gap needle rest : Bytes} (hne : needle ≠ [])
    (avoids : AvoidsBefore needle gap (needle ++ rest))
    (hmetadata : metadata = before ++ (gap ++ (needle ++ rest)))
    (hlen : metadata.length < usizeSize) :
    locate metadata needle before.length = some (before ++ gap).length := by
  have hfrom : getFrom metadata before.length = some (gap ++ (needle ++ rest)) := by
    rw [getFrom_eq_some, hmetadata]
    exact ⟨by simp, by simp⟩
  have hfind : findSub (gap ++ (needle ++ rest)) needle = some gap.length := by
    rw [findSub_of_firstMatch hne, ← List.append_assoc, firstMatch_hit hne avoids]
  rw [hmetadata] at hlen
  simp only [List.length_append] at hlen
  simp only [locate, hfrom, hfind, Option.bind_eq_bind, Option.bind_some]
  rw [checkedAdd_eq (by omega), List.length_append]

/-- There is no occurrence in text that avoids the needle. -/
theorem locate_none {before rest needle : Bytes} (hne : needle ≠ [])
    (avoids : AvoidsBefore needle rest []) :
    locate (before ++ rest) needle before.length = none := by
  have hfrom : getFrom (before ++ rest) before.length = some rest := by
    rw [getFrom_eq_some]
    exact ⟨by simp, by simp⟩
  simp [locate, hfrom, findSub_of_firstMatch hne, firstMatch_none_of_avoids avoids]

/-- The scanner finds the first opening tag after the first key, and stops just past the
closing tag after it. -/
theorem extractTaggedFrom_found {metadata before gap space openTag attributes value closeTag
    rest : Bytes} {keyName : String} (hopen : openTag ≠ []) (hclose : closeTag ≠ [])
    (hmetadata : metadata = before ++ (gap ++ (keyElement keyName ++ (space ++ (openTag ++
      (attributes ++ (asBytes ">" ++ (value ++ (closeTag ++ rest)))))))))
    (hgap : AvoidsBefore (keyElement keyName) gap (keyElement keyName ++ (space ++ (openTag ++
      (attributes ++ (asBytes ">" ++ (value ++ (closeTag ++ rest))))))))
    (hspace : AvoidsBefore openTag space (openTag ++ (attributes ++ (asBytes ">" ++
      (value ++ (closeTag ++ rest))))))
    (hattributes : 0x3e ∉ openTag ++ attributes)
    (hvalue : AvoidsBefore closeTag value (closeTag ++ rest))
    (hlen : metadata.length < usizeSize) :
    extractTaggedFrom metadata keyName openTag closeTag before.length =
      some (value, metadata.length - rest.length) := by
  have hgt : asBytes ">" ≠ [] := by rw [asBytes_gt]; simp
  have avoidsGt : Avoids (asBytes ">") (openTag ++ attributes) := by
    rw [asBytes_gt]
    exact avoids_of_not_mem hattributes
  have gtLength : (asBytes ">").length = 1 := by rw [asBytes_gt]; rfl
  -- the four searches, each from the end of the text before it
  have atKey : locate metadata (keyElement keyName) before.length = some (before ++ gap).length :=
    locate_eq (keyElement_ne_nil keyName) hgap hmetadata hlen
  have atOpen : locate metadata openTag (before ++ gap ++ keyElement keyName).length =
      some (before ++ gap ++ keyElement keyName ++ space).length :=
    locate_eq hopen hspace (by rw [hmetadata]; simp only [List.append_assoc]) hlen
  have atGt : locate metadata (asBytes ">") (before ++ gap ++ keyElement keyName ++ space).length =
      some (before ++ gap ++ keyElement keyName ++ space ++ (openTag ++ attributes)).length :=
    locate_eq hgt (avoidsGt.before _) (by rw [hmetadata]; simp only [List.append_assoc]; rfl) hlen
  have atClose : locate metadata closeTag (before ++ gap ++ keyElement keyName ++ space ++
      openTag ++ attributes ++ asBytes ">").length =
      some (before ++ gap ++ keyElement keyName ++ space ++ openTag ++ attributes ++
        asBytes ">" ++ value).length :=
    locate_eq hclose hvalue (by rw [hmetadata]; simp only [List.append_assoc]) hlen
  have inner : slice metadata (before ++ gap ++ keyElement keyName ++ space ++ openTag ++
      attributes ++ asBytes ">").length value.length = value := by
    have split : metadata = before ++ gap ++ keyElement keyName ++ space ++ openTag ++
        attributes ++ asBytes ">" ++ value ++ (closeTag ++ rest) := by
      rw [hmetadata]
      simp only [List.append_assoc]
    rw [split]
    exact slice_append_middle _ _ _
  have total := congrArg List.length hmetadata
  simp only [List.length_append, gtLength] at total atKey atOpen atGt atClose inner
  rw [extractTaggedFrom_eq]
  simp only [Option.bind_eq_bind, atKey, Option.bind_some]
  rw [checkedAdd_eq (by omega), Option.bind_some, atOpen, Option.bind_some, atGt,
    Option.bind_some, checkedAdd_eq (by omega), Option.bind_some]
  rw [← Nat.add_assoc, atClose, Option.bind_some, getRange_eq (by omega), Option.bind_some,
    inner, checkedAdd_eq (by omega), Option.bind_some]
  simp only [Option.pure_def, Option.some.injEq, Prod.mk.injEq, true_and]
  omega

/-- Whatever the scanner returns, it found so. -/
theorem extractTaggedFrom_split {metadata openTag closeTag value : Bytes} {keyName : String}
    {start stop : Nat} (hopen : 0x3e ∉ openTag)
    (h : extractTaggedFrom metadata keyName openTag closeTag start = some (value, stop)) :
    ∃ gap space attributes rest,
      metadata.drop start = gap ++ (keyElement keyName ++ (space ++ (openTag ++ (attributes ++
        (asBytes ">" ++ (value ++ (closeTag ++ rest))))))) ∧
      AvoidsBefore (keyElement keyName) gap (keyElement keyName ++ (space ++ (openTag ++
        (attributes ++ (asBytes ">" ++ (value ++ (closeTag ++ rest))))))) ∧
      AvoidsBefore openTag space (openTag ++ (attributes ++ (asBytes ">" ++
        (value ++ (closeTag ++ rest))))) ∧
      0x3e ∉ attributes ∧ AvoidsBefore closeTag value (closeTag ++ rest) ∧
      stop = metadata.length - rest.length := by
  obtain ⟨keyRel, openRel, gtRel, closeRel, hkey, hopens, hgt, hclose, rfl, rfl, hle⟩ :=
    extractTaggedFrom_some h
  obtain ⟨gap, afterKey, keySplit, rfl, hgap⟩ := firstMatch_split (findSub_eq_some hkey).2
  rw [drop_past keySplit] at hopens
  obtain ⟨space, afterOpen, rfl, rfl, hspace⟩ := firstMatch_split (findSub_eq_some hopens).2
  have atOpen : metadata.drop (start + gap.length + (keyElement keyName).length + space.length) =
      openTag ++ afterOpen := by
    rw [← List.drop_drop, drop_past keySplit, List.drop_left]
  rw [atOpen] at hgt
  obtain ⟨front, afterGt, gtSplit, rfl, hfront⟩ := firstMatch_split (findSub_eq_some hgt).2
  have gtLength : (asBytes ">").length = 1 := by rw [asBytes_gt]; rfl
  have atInner := drop_past (atOpen.trans gtSplit)
  rw [gtLength] at atInner
  rw [atInner] at hclose
  obtain ⟨value, rest, rfl, rfl, hvalue⟩ := firstMatch_split (findSub_eq_some hclose).2
  rw [asBytes_gt] at hfront
  -- the opening tag has no `>`, so the first one is past it
  obtain ⟨attributes, rfl⟩ : openTag <+: front := by
    rw [asBytes_gt, List.singleton_append] at gtSplit
    exact prefix_of_mark hopen gtSplit
  have hattributes : 0x3e ∉ attributes := fun hmem => hfront.not_mem (List.mem_append_right _ hmem)
  have same : afterOpen = attributes ++ (asBytes ">" ++ (value ++ (closeTag ++ rest))) := by
    rw [List.append_assoc] at gtSplit
    exact List.append_cancel_left gtSplit
  subst same
  rw [slice, atInner, List.take_left]
  refine ⟨gap, space, attributes, rest, keySplit, hgap, hspace, hattributes, hvalue, ?_⟩
  have total := congrArg List.length keySplit
  simp only [List.length_append, List.length_drop, gtLength] at total hle ⊢
  omega

/-- The scanner finds the first element with the key, and stops just past it. -/
theorem extractTaggedFrom_tagged (before : Bytes)
    {gap openTag attributes value closeTag rest : Bytes} {keyName : String}
    (hopen : openTag ≠ []) (hclose : closeTag ≠ [])
    (hgap : AvoidsBefore (keyElement keyName) gap
      (tagged keyName openTag attributes value closeTag ++ rest))
    (hattributes : 0x3e ∉ openTag ++ attributes)
    (hvalue : AvoidsBefore closeTag value (closeTag ++ rest))
    (hlen : (before ++ (gap ++ (tagged keyName openTag attributes value closeTag ++ rest))).length
      < usizeSize) :
    extractTaggedFrom
        (before ++ (gap ++ (tagged keyName openTag attributes value closeTag ++ rest)))
        keyName openTag closeTag before.length =
      some (value,
        (before ++ (gap ++ tagged keyName openTag attributes value closeTag)).length) := by
  have split : tagged keyName openTag attributes value closeTag ++ rest =
      keyElement keyName ++ ([] ++ (openTag ++ (attributes ++ (asBytes ">" ++
        (value ++ (closeTag ++ rest)))))) := by
    simp only [tagged, List.append_assoc, List.nil_append]
  rw [extractTaggedFrom_found hopen hclose (by rw [split]) (split ▸ hgap)
    ((avoids_nil openTag).before _) hattributes hvalue hlen]
  simp only [List.length_append, Option.some.injEq, Prod.mk.injEq, true_and]
  omega

/-- In text without the key the scanner finds nothing. -/
theorem extractTaggedFrom_none {before rest openTag closeTag : Bytes} {keyName : String}
    (h : AvoidsBefore (keyElement keyName) rest []) :
    extractTaggedFrom (before ++ rest) keyName openTag closeTag before.length = none := by
  rw [extractTaggedFrom_eq, locate_none (keyElement_ne_nil keyName) h]
  rfl

/-! ## Typed values -/

/-- A closing tag cannot start in text without a `<`. -/
theorem avoids_closing {name : Bytes} {value : Bytes} (h : 0x3c ∉ value) :
    Avoids (0x3c :: name) value := avoids_of_not_mem h

/-- A `<string>` element is found behind the text before it, and gives its own text. -/
theorem extractTaggedFrom_string (before : Bytes) {gap attributes text rest : Bytes}
    {keyName : String}
    (hgap : AvoidsBefore (keyElement keyName) gap
      (tagged keyName (asBytes "<string ID=") attributes text (asBytes "</string>") ++ rest))
    (hattributes : 0x3e ∉ attributes) (htext : 0x3c ∉ text)
    (hlen : (before ++ (gap ++ (tagged keyName (asBytes "<string ID=") attributes text
      (asBytes "</string>") ++ rest))).length < usizeSize) :
    extractTaggedFrom (before ++ (gap ++ (tagged keyName (asBytes "<string ID=") attributes text
        (asBytes "</string>") ++ rest))) keyName (asBytes "<string ID=") (asBytes "</string>")
        before.length =
      some (text, (before ++ (gap ++ tagged keyName (asBytes "<string ID=") attributes text
        (asBytes "</string>"))).length) := by
  have hopen : asBytes "<string ID=" = [60, 115, 116, 114, 105, 110, 103, 32, 73, 68, 61] := by
    decide
  have hclose : asBytes "</string>" = 0x3c :: [47, 115, 116, 114, 105, 110, 103, 62] := by decide
  exact extractTaggedFrom_tagged before (by rw [hopen]; simp) (by rw [hclose]; simp) hgap
    (by rw [hopen]; simp [hattributes])
    (by rw [hclose]; exact (avoids_closing htext).before _) hlen

section

variable {gap attributes rest : Bytes} {keyName : String}

theorem extractTagged_tagged {openTag value closeTag : Bytes} (hopen : openTag ≠ [])
    (hclose : closeTag ≠ [])
    (hgap : AvoidsBefore (keyElement keyName) gap
      (tagged keyName openTag attributes value closeTag ++ rest))
    (hattributes : 0x3e ∉ openTag ++ attributes)
    (hvalue : AvoidsBefore closeTag value (closeTag ++ rest))
    (hlen : (gap ++ (tagged keyName openTag attributes value closeTag ++ rest)).length
      < usizeSize) :
    extractTagged (gap ++ (tagged keyName openTag attributes value closeTag ++ rest)) keyName
      openTag closeTag = some value := by
  have found := extractTaggedFrom_tagged [] hopen hclose hgap hattributes hvalue hlen
  unfold extractTagged
  rw [List.nil_append, List.length_nil] at found
  rw [found]
  rfl

theorem isBase64Byte_spec {b : UInt8} (h : isBase64Byte b = true) :
    b ≠ 0x3c ∧ isAsciiWhitespace b = false := by
  constructor
  · rintro rfl
    exact absurd h (by decide)
  · by_contra hspace
    simp only [isAsciiWhitespace, Bool.not_eq_false, Bool.or_eq_true, beq_iff_eq] at hspace
    rcases hspace with (((rfl | rfl) | rfl) | rfl) | rfl <;> exact absurd h (by decide)

theorem not_mem_base64 {crates : Crates} (lawful : crates.Lawful) (blob : Bytes) :
    0x3c ∉ crates.base64Encode blob :=
  fun hmem => (isBase64Byte_spec (lawful.encode_alphabet blob _ hmem)).1 rfl

/-- The text of a `<data>` element, if the scan finds one. -/
def dataText (metadata : Bytes) (keyName : String) : Option Bytes :=
  extractTagged metadata keyName (asBytes "<data ID=") (asBytes "</data>")

/-- The blob that such a text encodes. -/
def decodeBlob (crates : Crates) (text : Bytes) : Option Bytes :=
  let trimmed := text.filter (!isAsciiWhitespace ·)
  if maxBase64Blob < trimmed.length then none else crates.base64Decode trimmed

theorem extractData_eq (crates : Crates) (metadata : Bytes) (keyName : String) :
    extractData crates metadata keyName = (dataText metadata keyName).bind (decodeBlob crates) :=
  rfl

/-- A `<data>` element gives its text back. -/
theorem dataText_tagged {text : Bytes}
    (hgap : AvoidsBefore (keyElement keyName) gap
      (tagged keyName (asBytes "<data ID=") attributes text (asBytes "</data>") ++ rest))
    (hattributes : 0x3e ∉ attributes) (htext : 0x3c ∉ text)
    (hlen : (gap ++ (tagged keyName (asBytes "<data ID=") attributes text
      (asBytes "</data>") ++ rest)).length < usizeSize) :
    dataText (gap ++ (tagged keyName (asBytes "<data ID=") attributes text
      (asBytes "</data>") ++ rest)) keyName = some text := by
  have hopen : asBytes "<data ID=" = [60, 100, 97, 116, 97, 32, 73, 68, 61] := by decide
  have hclose : asBytes "</data>" = 0x3c :: [47, 100, 97, 116, 97, 62] := by decide
  exact extractTagged_tagged (by rw [hopen]; simp) (by rw [hclose]; simp) hgap
    (by rw [hopen]; simp [hattributes]) (by rw [hclose]; exact (avoids_closing htext).before _) hlen

/-- Whitespace anywhere in the text does not change the blob. -/
theorem decodeBlob_spaced {crates : Crates} (lawful : crates.Lawful) {text blob : Bytes}
    (htext : text.filter (!isAsciiWhitespace ·) = crates.base64Encode blob)
    (hsize : (crates.base64Encode blob).length ≤ maxBase64Blob) :
    decodeBlob crates text = some blob := by
  unfold decodeBlob
  simp only [htext]
  rw [if_neg (by omega), lawful.decode_encode]

theorem filter_base64 {crates : Crates} (lawful : crates.Lawful) (blob : Bytes) :
    (crates.base64Encode blob).filter (!isAsciiWhitespace ·) = crates.base64Encode blob := by
  rw [List.filter_eq_self]
  intro b hb
  simp [(isBase64Byte_spec (lawful.encode_alphabet blob b hb)).2]

/-- A `<data>` element gives its blob back. -/
theorem extractData_tagged {crates : Crates} (lawful : crates.Lawful) {blob : Bytes}
    (hgap : AvoidsKey keyName gap) (hattributes : 0x3e ∉ attributes)
    (hsize : (crates.base64Encode blob).length ≤ maxBase64Blob)
    (hlen : (gap ++ (tagged keyName (asBytes "<data ID=") attributes
      (crates.base64Encode blob) (asBytes "</data>") ++ rest)).length < usizeSize) :
    extractData crates (gap ++ (tagged keyName (asBytes "<data ID=") attributes
      (crates.base64Encode blob) (asBytes "</data>") ++ rest)) keyName = some blob := by
  rw [extractData_eq, dataText_tagged (hgap.before _) hattributes (not_mem_base64 lawful blob) hlen]
  exact decodeBlob_spaced lawful (filter_base64 lawful blob) hsize

/-- A `<string>` element gives its text back. -/
theorem extractString_first {text : String}
    (hgap : AvoidsBefore (keyElement keyName) gap
      (tagged keyName (asBytes "<string ID=") attributes (asBytes text) (asBytes "</string>") ++
        rest))
    (hattributes : 0x3e ∉ attributes) (htext : '<' ∉ text.toList)
    (hlen : (gap ++ (tagged keyName (asBytes "<string ID=") attributes (asBytes text)
      (asBytes "</string>") ++ rest)).length < usizeSize) :
    extractString (gap ++ (tagged keyName (asBytes "<string ID=") attributes (asBytes text)
      (asBytes "</string>") ++ rest)) keyName = some text := by
  have found := extractTaggedFrom_string [] hgap hattributes (not_mem_asBytes htext) hlen
  rw [List.nil_append, List.length_nil] at found
  simp only [extractString, extractTagged, found, Option.map_some, Option.bind_eq_bind,
    Option.bind_some, fromUtf8_asBytes]

/-- A `<string>` element gives its text back behind any text without its key. -/
theorem extractString_tagged {text : String} (hgap : AvoidsKey keyName gap)
    (hattributes : 0x3e ∉ attributes) (htext : '<' ∉ text.toList)
    (hlen : (gap ++ (tagged keyName (asBytes "<string ID=") attributes (asBytes text)
      (asBytes "</string>") ++ rest)).length < usizeSize) :
    extractString (gap ++ (tagged keyName (asBytes "<string ID=") attributes (asBytes text)
      (asBytes "</string>") ++ rest)) keyName = some text :=
  extractString_first (hgap.before _) hattributes htext hlen

/-- The number that a text spells. -/
def unsignedOf (bound : Nat) (text : Bytes) : Option Nat := do
  let text ← fromUtf8 text
  parseInteger bound text.toList

/-- The scan for an integer is the scan for a text, and the number it spells. -/
theorem extractUnsignedFrom_eq (bound : Nat) (metadata : Bytes) (keyName : String) (start : Nat) :
    extractUnsignedFrom bound metadata keyName start =
      (extractTaggedFrom metadata keyName (asBytes "<integer") (asBytes "</integer>") start).bind
        fun (text, stop) => (unsignedOf bound text).map fun n => (n, stop) := by
  unfold extractUnsignedFrom unsignedOf
  simp only [Option.bind_eq_bind]
  congr 1
  funext ⟨text, stop⟩
  cases fromUtf8 text with
  | none => rfl
  | some decoded =>
      simp only [Option.bind_some]
      cases parseInteger bound decoded.toList with
      | none => rfl
      | some n => rfl

/-- An `<integer>` element gives the number its text spells, if it spells one. -/
theorem extractUnsignedFrom_element {bound : Nat} {before text : Bytes}
    (hgap : AvoidsBefore (keyElement keyName) gap
      (tagged keyName (asBytes "<integer") attributes text (asBytes "</integer>") ++ rest))
    (hattributes : 0x3e ∉ attributes)
    (htext : AvoidsBefore (asBytes "</integer>") text (asBytes "</integer>" ++ rest))
    (hlen : (before ++ (gap ++ (tagged keyName (asBytes "<integer") attributes text
      (asBytes "</integer>") ++ rest))).length < usizeSize) :
    extractUnsignedFrom bound (before ++ (gap ++ (tagged keyName (asBytes "<integer") attributes
      text (asBytes "</integer>") ++ rest))) keyName before.length =
      (unsignedOf bound text).map fun n => (n, (before ++ (gap ++
        tagged keyName (asBytes "<integer") attributes text (asBytes "</integer>"))).length) := by
  have hopen : asBytes "<integer" = [60, 105, 110, 116, 101, 103, 101, 114] := by decide
  have found := extractTaggedFrom_tagged before (by rw [hopen]; simp) (by decide) hgap
    (by rw [hopen]; simp [hattributes]) htext hlen
  rw [extractUnsignedFrom_eq, found, Option.bind_some]

theorem asBytes_integer_close :
    asBytes "</integer>" = 0x3c :: [47, 105, 110, 116, 101, 103, 101, 114, 62] := by decide

theorem extractUnsignedFrom_tagged {bound n : Nat} {before : Bytes} {text : String}
    (hgap : AvoidsKey keyName gap) (hattributes : 0x3e ∉ attributes) (htext : '<' ∉ text.toList)
    (hparse : parseInteger bound text.toList = some n)
    (hlen : (before ++ (gap ++ (tagged keyName (asBytes "<integer") attributes (asBytes text)
      (asBytes "</integer>") ++ rest))).length < usizeSize) :
    extractUnsignedFrom bound (before ++ (gap ++ (tagged keyName (asBytes "<integer") attributes
      (asBytes text) (asBytes "</integer>") ++ rest))) keyName before.length =
      some (n, (before ++ (gap ++ tagged keyName (asBytes "<integer") attributes (asBytes text)
        (asBytes "</integer>"))).length) := by
  rw [extractUnsignedFrom_element (hgap.before _) hattributes
    (by rw [asBytes_integer_close]; exact (avoids_closing (not_mem_asBytes htext)).before _) hlen]
  simp only [unsignedOf, fromUtf8_asBytes, Option.bind_eq_bind, Option.bind_some, hparse,
    Option.map_some]

end

/-! ## The algorithms -/

/-- Where the scan over the algorithms stops at `AES-XTS`. -/
def aesXtsFrom (metadata : Bytes) (cursor : Nat) : Option Nat :=
  match _h : extractTaggedFrom metadata "BlockAlgorithm" (asBytes "<string ID=")
      (asBytes "</string>") cursor with
  | none => none
  | some (algo, stop) =>
      if algo = asBytes "AES-XTS" then some stop else aesXtsFrom metadata stop
termination_by metadata.length - cursor
decreasing_by
  have := extractTaggedFrom_progress _h
  omega

theorem aesXtsFrom_none {metadata : Bytes} {cursor : Nat}
    (h : extractTaggedFrom metadata "BlockAlgorithm" (asBytes "<string ID=")
      (asBytes "</string>") cursor = none) : aesXtsFrom metadata cursor = none := by
  rw [aesXtsFrom]
  split
  · rfl
  · next hsome =>
      rw [h] at hsome
      cases hsome

theorem aesXtsFrom_some {metadata algo : Bytes} {cursor stop : Nat}
    (h : extractTaggedFrom metadata "BlockAlgorithm" (asBytes "<string ID=")
      (asBytes "</string>") cursor = some (algo, stop)) :
    aesXtsFrom metadata cursor =
      if algo = asBytes "AES-XTS" then some stop else aesXtsFrom metadata stop := by
  rw [aesXtsFrom]
  split
  · next hnone =>
      rw [h] at hnone
      cases hnone
  · next hsome =>
      rw [h] at hsome
      obtain ⟨rfl, rfl⟩ := Prod.mk.inj (Option.some.inj hsome)
      rfl

/-- The text of the wrapped volume key after it, if the scan finds one. -/
def wrappedKeyText (metadata : Bytes) (cursor : Nat) : Option Bytes := do
  let stop ← aesXtsFrom metadata cursor
  dataText (← getFrom metadata stop) "KEKWrappedVolumeKeyStruct"

theorem kekWrappedAesXtsFrom_eq (crates : Crates) (metadata : Bytes) (cursor : Nat) :
    kekWrappedAesXtsFrom crates metadata cursor =
      (wrappedKeyText metadata cursor).bind (decodeBlob crates) := by
  unfold wrappedKeyText
  fun_induction aesXtsFrom metadata cursor with
  | case1 cursor hnone =>
      rw [kekWrappedAesXtsFrom_none hnone, Option.bind_eq_bind, Option.bind_none, Option.bind_none]
  | case2 cursor stop hsome =>
      rw [kekWrappedAesXtsFrom_some hsome, if_pos rfl]
      simp only [Option.bind_eq_bind, Option.bind_some, Option.bind_assoc, extractData_eq]
  | case3 cursor algo stop hsome hother ih =>
      rw [kekWrappedAesXtsFrom_some hsome, if_neg hother]
      exact ih

/-! ## Fields of a blob -/

/-- A fixed-size field of a blob is the array that was written there. -/
theorem sliceArr_eq {n off : Nat} {data : Bytes} {arr : ByteArr n}
    (hlen : off + n ≤ data.length) (hfits : off + n < usizeSize)
    (h : slice data off n = arr.val) : sliceArr n data off = some arr := by
  simp only [sliceArr, checkedAdd_eq hfits, Option.bind_eq_bind, Option.bind_some,
    getRange_eq hlen, h, arr.property, dite_true]

theorem readU32Le_eq {off : Nat} {data : Bytes} (hlen : off + 4 ≤ data.length)
    (hfits : off + 4 < usizeSize) :
    readU32Le data off = some (UInt32.ofNat (leNat (slice data off 4))) := by
  simp only [readU32Le, checkedAdd_eq hfits, Option.bind_eq_bind, Option.bind_some,
    getRange_eq hlen, Option.pure_def]

/-! ## The wrapped volume key -/

section

variable {crates : Crates} {before gap attributes rest : Bytes}

/-- A `BlockAlgorithm` element. -/
def algorithmElement (attributes algorithm : Bytes) : Bytes :=
  tagged "BlockAlgorithm" (asBytes "<string ID=") attributes algorithm (asBytes "</string>")

/-- A `KEKWrappedVolumeKeyStruct` element, by its text. -/
def wrappedKeyElement (attributes text : Bytes) : Bytes :=
  tagged "KEKWrappedVolumeKeyStruct" (asBytes "<data ID=") attributes text (asBytes "</data>")

/-- A `KEKWrappedVolumeKeyStruct` element, by its blob. -/
def kekElement (crates : Crates) (attributes blob : Bytes) : Bytes :=
  tagged "KEKWrappedVolumeKeyStruct" (asBytes "<data ID=") attributes (crates.base64Encode blob)
    (asBytes "</data>")

theorem kekElement_eq (crates : Crates) (attributes blob : Bytes) :
    kekElement crates attributes blob =
      wrappedKeyElement attributes (crates.base64Encode blob) := rfl

/-- The scanner finds the next algorithm. -/
theorem extractTaggedFrom_algorithm {algorithm : Bytes}
    (hgap : AvoidsBefore (keyElement "BlockAlgorithm") gap
      (algorithmElement attributes algorithm ++ rest))
    (hattributes : 0x3e ∉ attributes) (halgorithm : 0x3c ∉ algorithm)
    (hlen : (before ++ (gap ++ (algorithmElement attributes algorithm ++ rest))).length
      < usizeSize) :
    extractTaggedFrom (before ++ (gap ++ (algorithmElement attributes algorithm ++ rest)))
        "BlockAlgorithm" (asBytes "<string ID=") (asBytes "</string>") before.length =
      some (algorithm, (before ++ (gap ++ algorithmElement attributes algorithm)).length) :=
  extractTaggedFrom_string before hgap hattributes halgorithm hlen

/-- An algorithm other than `AES-XTS` is passed over. -/
theorem kekWrappedAesXtsFrom_skip {algorithm : Bytes}
    (hgap : AvoidsBefore (keyElement "BlockAlgorithm") gap
      (algorithmElement attributes algorithm ++ rest))
    (hattributes : 0x3e ∉ attributes) (halgorithm : 0x3c ∉ algorithm)
    (hother : algorithm ≠ asBytes "AES-XTS")
    (hlen : (before ++ (gap ++ (algorithmElement attributes algorithm ++ rest))).length
      < usizeSize) :
    kekWrappedAesXtsFrom crates (before ++ (gap ++ (algorithmElement attributes algorithm ++ rest)))
        before.length =
      kekWrappedAesXtsFrom crates
        (before ++ (gap ++ (algorithmElement attributes algorithm ++ rest)))
        (before ++ (gap ++ algorithmElement attributes algorithm)).length := by
  have found := extractTaggedFrom_algorithm hgap hattributes halgorithm hlen
  rw [kekWrappedAesXtsFrom_some found, if_neg hother]

/-- The wrapped key after the first `AES-XTS` is the one, here with its text. -/
theorem kekWrappedAesXtsFrom_text (before : Bytes) {middle attributes' text : Bytes}
    (hgap : AvoidsBefore (keyElement "BlockAlgorithm") gap
      (algorithmElement attributes (asBytes "AES-XTS") ++
        (middle ++ (wrappedKeyElement attributes' text ++ rest))))
    (hattributes : 0x3e ∉ attributes)
    (hmiddle : AvoidsBefore (keyElement "KEKWrappedVolumeKeyStruct") middle
      (wrappedKeyElement attributes' text ++ rest))
    (hattributes' : 0x3e ∉ attributes') (htext : 0x3c ∉ text)
    (hlen : (before ++ (gap ++ (algorithmElement attributes (asBytes "AES-XTS") ++
      (middle ++ (wrappedKeyElement attributes' text ++ rest))))).length < usizeSize) :
    kekWrappedAesXtsFrom crates (before ++ (gap ++
      (algorithmElement attributes (asBytes "AES-XTS") ++
        (middle ++ (wrappedKeyElement attributes' text ++ rest))))) before.length =
      decodeBlob crates text := by
  have found := extractTaggedFrom_algorithm hgap hattributes (by decide) hlen
  have tail : getFrom (before ++ (gap ++ (algorithmElement attributes (asBytes "AES-XTS") ++
      (middle ++ (wrappedKeyElement attributes' text ++ rest)))))
      (before ++ (gap ++ algorithmElement attributes (asBytes "AES-XTS"))).length =
      some (middle ++ (wrappedKeyElement attributes' text ++ rest)) := by
    rw [getFrom_eq_some]
    refine ⟨by simp only [List.length_append]; omega, ?_⟩
    generalize middle ++ (wrappedKeyElement attributes' text ++ rest) = tail
    simp only [← List.append_assoc, List.drop_left]
  have here : dataText (middle ++ (wrappedKeyElement attributes' text ++ rest))
      "KEKWrappedVolumeKeyStruct" = some text := by
    refine dataText_tagged hmiddle hattributes' htext (lt_of_le_of_lt ?_ hlen)
    simp only [List.length_append, wrappedKeyElement]
    omega
  rw [kekWrappedAesXtsFrom_some found, if_pos rfl, tail]
  simp only [Option.bind_some, extractData_eq, here]

/-- The wrapped key after the first `AES-XTS`, with its blob. -/
theorem kekWrappedAesXtsFrom_hit (before middle : Bytes) {attributes' blob : Bytes}
    (lawful : crates.Lawful)
    (hgap : AvoidsKey "BlockAlgorithm" gap) (hattributes : 0x3e ∉ attributes)
    (hmiddle : AvoidsKey "KEKWrappedVolumeKeyStruct" middle) (hattributes' : 0x3e ∉ attributes')
    (hsize : (crates.base64Encode blob).length ≤ maxBase64Blob)
    (hlen : (before ++ (gap ++ (algorithmElement attributes (asBytes "AES-XTS") ++
      (middle ++ (kekElement crates attributes' blob ++ rest))))).length < usizeSize) :
    kekWrappedAesXtsFrom crates (before ++ (gap ++
      (algorithmElement attributes (asBytes "AES-XTS") ++
        (middle ++ (kekElement crates attributes' blob ++ rest))))) before.length = some blob := by
  rw [kekElement_eq] at hlen ⊢
  rw [kekWrappedAesXtsFrom_text before (hgap.before _) hattributes (hmiddle.before _)
    hattributes' (not_mem_base64 lawful blob) hlen]
  exact decodeBlob_spaced lawful (filter_base64 lawful blob) hsize

end

end FileVault
