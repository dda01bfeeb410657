import FileVault.Logic.Plist
import FileVault.Logic.Primitives

/-!
# Whose value is extracted

The extractors are for a key with its value right behind it. The scanner takes the first
key of the name and then the next opening tag of the type, wherever that one is: behind a
key whose own value has another type, it finds the value of a later key. What it returns
follows the pattern exactly if the tag it comes to is the key's own.
-/

namespace FileVault

open Lib

/-- A type of element: its tags, and how its text is decoded. A bare opening tag ends
after the name of the element, so a longer name has to be told apart. -/
structure ElementKind (Value : Type) where
  openTag : Bytes
  closeTag : Bytes
  bare : Bool
  decode : Bytes → Option Value
  opens : openTag.head? = some 0x3c
  open_clean : 0x3e ∉ openTag
  closes : closeTag ≠ []

/-- What `extract_data` is after. -/
def dataKind (crates : Crates) : ElementKind Bytes where
  openTag := asBytes "<data ID="
  closeTag := asBytes "</data>"
  bare := false
  decode := decodeBlob crates
  opens := by decide
  open_clean := by decide
  closes := by decide

/-- What `extract_string` is after. -/
def stringKind : ElementKind String where
  openTag := asBytes "<string ID="
  closeTag := asBytes "</string>"
  bare := false
  decode := fromUtf8
  opens := by decide
  open_clean := by decide
  closes := by decide

/-- What `extract_integer_from` is after. -/
def integerKind : ElementKind UInt32 where
  openTag := asBytes "<integer"
  closeTag := asBytes "</integer>"
  bare := true
  decode text := (unsignedOf (2 ^ 32) text).map UInt32.ofNat
  opens := by decide
  open_clean := by decide
  closes := by decide

/-- ASCII whitespace only. -/
def Blank (text : Bytes) : Prop := ∀ b ∈ text, isAsciiWhitespace b = true

section

variable {Value : Type}

/-- With these attributes the tag opens an element of the type: it is not the tag of an
empty element, nor one of a longer name. -/
structure ElementKind.Opens (kind : ElementKind Value) (attributes : Bytes) : Prop where
  not_empty : attributes.getLast? ≠ some 0x2f
  name_ends : kind.bare = true → ∀ b, attributes.head? = some b → isAsciiWhitespace b = true

/-- A key in the metadata, and an element after it. -/
structure Pairing (kind : ElementKind Value) (metadata : Bytes) (keyName : String) where
  before : Bytes
  gap : Bytes
  attributes : Bytes
  content : Bytes
  rest : Bytes
  text : metadata = before ++ (keyElement keyName ++ (gap ++ (kind.openTag ++ (attributes ++
    (asBytes ">" ++ (content ++ (kind.closeTag ++ rest)))))))
  attributes_clean : 0x3e ∉ attributes
  content_clean : AvoidsBefore kind.closeTag content (kind.closeTag ++ rest)

namespace Pairing

variable {kind : ElementKind Value} {metadata : Bytes} {keyName : String}
variable (p : Pairing kind metadata keyName)

/-- The text in front of the element. -/
def front : Bytes := p.before ++ (keyElement keyName ++ p.gap)

/-- The element and everything after it. -/
def element : Bytes :=
  kind.openTag ++ (p.attributes ++ (asBytes ">" ++ (p.content ++ (kind.closeTag ++ p.rest))))

/-- The position past the closing tag. -/
def stop : Nat := metadata.length - p.rest.length

/-- The documented pattern: nothing but whitespace between the key and its element. -/
def Adjacent : Prop := Blank p.gap ∧ kind.Opens p.attributes

/-- What the scanner comes to: the first key, and the first opening tag after it. -/
structure Scanned : Prop where
  first_key : AvoidsBefore (keyElement keyName) p.before
    (keyElement keyName ++ (p.gap ++ p.element))
  first_open : AvoidsBefore kind.openTag p.gap p.element

/-- The element belongs to a key of this name: one stands right in front of it. -/
def Owned : Prop :=
  (∃ space, Blank space ∧ keyElement keyName ++ space <:+ p.front) ∧ kind.Opens p.attributes

theorem text_eq : metadata = p.front ++ p.element := by
  rw [front, element, List.append_assoc, List.append_assoc]
  exact p.text

end Pairing

/-- The scanner returns a value only from the documented pattern, and from the first
place where it stands. -/
def FollowsPattern (kind : ElementKind Value) (metadata : Bytes) (keyName : String)
    (returns : Value → Prop) : Prop :=
  ∀ value, returns value → ∃ p : Pairing kind metadata keyName,
    p.Adjacent ∧ kind.decode p.content = some value ∧
    extractTaggedFrom metadata keyName kind.openTag kind.closeTag 0 = some (p.content, p.stop) ∧
    ∀ q : Pairing kind metadata keyName, q.Adjacent → p.before.length ≤ q.before.length

/-- The element that the scanner comes to, if its text can be decoded, belongs to the key. -/
def OwnTag (kind : ElementKind Value) (metadata : Bytes) (keyName : String) : Prop :=
  ∀ s : Pairing kind metadata keyName, s.Scanned → (kind.decode s.content).isSome → s.Owned

/-! ## What the scanner comes to -/

section

variable {kind : ElementKind Value} {metadata : Bytes} {keyName : String}

theorem ElementKind.openTag_cons (kind : ElementKind Value) :
    ∃ name, kind.openTag = 0x3c :: name := by
  have opens := kind.opens
  cases htag : kind.openTag with
  | nil => simp [htag] at opens
  | cons b name =>
      rw [htag, List.head?_cons, Option.some.injEq] at opens
      exact ⟨name, by rw [opens]⟩

/-- The scanner returns what it comes to. -/
theorem Pairing.Scanned.found {s : Pairing kind metadata keyName} (scanned : s.Scanned)
    (hlen : metadata.length < usizeSize) :
    extractTaggedFrom metadata keyName kind.openTag kind.closeTag 0 =
      some (s.content, s.stop) := by
  obtain ⟨name, hopen⟩ := kind.openTag_cons
  have hclean : 0x3e ∉ kind.openTag ++ s.attributes := by
    rw [List.mem_append, not_or]
    exact ⟨kind.open_clean, s.attributes_clean⟩
  exact @extractTaggedFrom_found metadata [] s.before s.gap kind.openTag s.attributes s.content
    kind.closeTag s.rest keyName (by rw [hopen]; simp) kind.closes s.text scanned.first_key
    scanned.first_open hclean s.content_clean hlen

/-- The scanner returns nothing but what it comes to. -/
theorem exists_scanned {content : Bytes} {stop : Nat}
    (h : extractTaggedFrom metadata keyName kind.openTag kind.closeTag 0 = some (content, stop)) :
    ∃ s : Pairing kind metadata keyName, s.Scanned ∧ s.content = content ∧ s.stop = stop := by
  obtain ⟨before, gap, attributes, rest, htext, hkey, hopen, hattributes, hcontent, hstop⟩ :=
    extractTaggedFrom_split kind.open_clean h
  exact ⟨{ before, gap, attributes, content, rest, text := htext
           attributes_clean := hattributes, content_clean := hcontent },
    ⟨hkey, hopen⟩, rfl, hstop.symm⟩

/-- No key comes before the one the scanner comes to. -/
theorem Pairing.Scanned.before_le {s : Pairing kind metadata keyName} (scanned : s.Scanned)
    (q : Pairing kind metadata keyName) : s.before.length ≤ q.before.length :=
  scanned.first_key.length_le (s.text.symm.trans q.text)

/-- No element with a key in front comes before the one the scanner comes to. -/
theorem Pairing.Scanned.front_le {s : Pairing kind metadata keyName} (scanned : s.Scanned)
    (q : Pairing kind metadata keyName) : s.front.length ≤ q.front.length := by
  have keyed : metadata = (s.before ++ keyElement keyName) ++ (s.gap ++ s.element) := by
    rw [List.append_assoc]
    exact s.text
  have hle := scanned.before_le q
  obtain ⟨more, hmore, later⟩ := append_split (keyed.symm.trans q.text_eq)
    (by simp only [Pairing.front, List.length_append]; omega)
  have gap_le := scanned.first_open.length_le later
  rw [hmore]
  simp only [Pairing.front, List.length_append]
  omega

/-! ## The tag of the key -/

/-- In front of the element of a pairing stand its key and its gap. -/
theorem Pairing.front_end (p : Pairing kind metadata keyName) : 0x3e :: p.gap <:+ p.front := by
  have hkey : asBytes "</key>" = asBytes "</key" ++ [0x3e] := by decide
  refine ⟨p.before ++ (asBytes "<key>" ++ asBytes keyName ++ asBytes "</key"), ?_⟩
  simp only [Pairing.front, keyElement, hkey, List.append_assoc, List.singleton_append]

/-- Up to the end of the tag that the scanner comes to there is no other. -/
theorem Pairing.between_clean {s p : Pairing kind metadata keyName} {more : Bytes}
    (hfront : p.front = s.front ++ more) (helement : s.element = more ++ p.element)
    (hcontent : p.content = s.content) (hstop : p.stop = s.stop) : 0x3e ∉ more := by
  have hs := congrArg List.length s.text_eq
  have hp := congrArg List.length p.text_eq
  have hlen := congrArg List.length hfront
  have inTag : more <+: kind.openTag ++ s.attributes := by
    refine List.prefix_of_prefix_length_le ⟨_, helement.symm⟩ ?_ ?_
    · rw [Pairing.element, ← List.append_assoc]
      exact List.prefix_append _ _
    · simp only [Pairing.element, Pairing.stop, List.length_append, hcontent] at *
      omega
  intro hmem
  rcases List.mem_append.mp (inTag.mem hmem) with h | h
  · exact kind.open_clean h
  · exact s.attributes_clean h

/-- A pairing by the pattern that ends where the scanner does has the element that the
scanner comes to. -/
theorem Pairing.Scanned.element_unique {s p : Pairing kind metadata keyName}
    (scanned : s.Scanned) (blank : Blank p.gap) (hcontent : p.content = s.content)
    (hstop : p.stop = s.stop) : p.front = s.front ∧ p.attributes = s.attributes := by
  obtain ⟨more, hfront, helement⟩ :=
    append_split (s.text_eq.symm.trans p.text_eq) (scanned.front_le p)
  have clean := Pairing.between_clean hfront helement hcontent hstop
  cases more with
  | nil =>
      refine ⟨by rw [hfront, List.append_nil], ?_⟩
      rw [List.nil_append, Pairing.element, Pairing.element] at helement
      have marked := List.append_cancel_left helement
      rw [asBytes_gt] at marked
      have same : s.attributes = p.attributes :=
        eq_of_marked_prefix s.attributes_clean p.attributes_clean
          ⟨[], by rw [List.append_nil]; exact marked⟩
      exact same.symm
  | cons b more =>
      exfalso
      obtain ⟨name, hopen⟩ := kind.openTag_cons
      have hb : b = 0x3c := by
        rw [Pairing.element, hopen, List.cons_append, List.cons_append, List.cons.injEq] at helement
        exact helement.1.symm
      -- the stretch between the two tags starts in the gap of `p`, or reaches back into its key
      rcases suffix_of_mark p.front_end ⟨s.front, hfront.symm⟩ with inGap | reaches
      · have blank_b := blank b (inGap.mem List.mem_cons_self)
        rw [hb] at blank_b
        exact absurd blank_b (by decide)
      · exact clean reaches

/-- A key with its element right behind it does not start inside another such pair. -/
theorem before_le_of_adjacent {p q : Pairing kind metadata keyName}
    (hkey : '<' ∉ keyName.toList) (blank : Blank q.gap) (hle : p.front.length ≤ q.front.length) :
    p.before.length ≤ q.before.length := by
  by_contra hlt
  obtain ⟨more, hmore, hrest⟩ := append_split (q.text.symm.trans p.text) (by omega)
  have htext : keyElement keyName ++ (q.gap ++ q.element) =
      more ++ (keyElement keyName ++ (p.gap ++ p.element)) := hrest
  -- past its start there is no `<k` in the pair of `q`
  have avoids : Avoids [0x3c, 0x6b] ((keyElement keyName).tail ++ q.gap) := by
    refine (avoids_keyElement_tail hkey).append (avoids_of_not_mem ?_)
    intro hmem
    exact absurd (blank _ hmem) (by decide)
  have hlength := congrArg List.length hmore
  cases more with
  | nil =>
      rw [List.length_append, List.length_nil] at hlength
      omega
  | cons b more =>
      have hstart : ∃ rest, keyElement keyName = 0x3c :: 0x6b :: rest :=
        ⟨_, keyElement_cons keyName⟩
      obtain ⟨rest, hstart⟩ := hstart
      have split : (keyElement keyName).tail ++ q.gap ++ q.element =
          more ++ ([0x3c, 0x6b] ++ (rest ++ (p.gap ++ p.element))) := by
        have := congrArg List.tail htext
        rw [hstart] at this ⊢
        simpa using this
      have := (avoids.before q.element).length_le split
      simp only [Pairing.front, List.length_append, List.length_tail, List.length_cons,
        hstart] at *
      omega

theorem ownTag_of_followsPattern {returns : Value → Prop}
    (hreturns : ∀ value, returns value ↔ ∃ content stop,
      extractTaggedFrom metadata keyName kind.openTag kind.closeTag 0 = some (content, stop) ∧
      kind.decode content = some value)
    (hlen : metadata.length < usizeSize)
    (h : FollowsPattern kind metadata keyName returns) : OwnTag kind metadata keyName := by
  intro s scanned decodes
  obtain ⟨value, hvalue⟩ := Option.isSome_iff_exists.mp decodes
  have hfound := scanned.found hlen
  obtain ⟨p, ⟨blank, opens⟩, -, htaken, -⟩ :=
    h value ((hreturns value).mpr ⟨_, _, hfound, hvalue⟩)
  rw [hfound, Option.some.injEq, Prod.mk.injEq] at htaken
  obtain ⟨hfront, hattributes⟩ := scanned.element_unique blank htaken.1.symm htaken.2.symm
  refine ⟨⟨p.gap, blank, ?_⟩, hattributes ▸ opens⟩
  rw [← hfront]
  exact List.suffix_append _ _

theorem followsPattern_of_ownTag {returns : Value → Prop}
    (hreturns : ∀ value, returns value ↔ ∃ content stop,
      extractTaggedFrom metadata keyName kind.openTag kind.closeTag 0 = some (content, stop) ∧
      kind.decode content = some value)
    (hkey : '<' ∉ keyName.toList) (h : OwnTag kind metadata keyName) :
    FollowsPattern kind metadata keyName returns := by
  intro value hvalue
  obtain ⟨content, stop, hfound, hdecode⟩ := (hreturns value).mp hvalue
  obtain ⟨s, scanned, rfl, rfl⟩ := exists_scanned hfound
  obtain ⟨⟨space, blank, ⟨front, hfront⟩⟩, opens⟩ := h s scanned (by rw [hdecode]; rfl)
  let p : Pairing kind metadata keyName := {
    before := front, gap := space, attributes := s.attributes, content := s.content
    rest := s.rest
    text := by
      have := s.text_eq
      rw [← hfront, List.append_assoc, List.append_assoc] at this
      exact this
    attributes_clean := s.attributes_clean, content_clean := s.content_clean }
  refine ⟨p, ⟨blank, opens⟩, hdecode, hfound, ?_⟩
  intro q adjacent
  have hle : p.front.length ≤ q.front.length := by
    have same : p.front = s.front := hfront
    rw [same]
    exact scanned.front_le q
  exact before_le_of_adjacent hkey adjacent.1 hle

/-- Text that ends with a tag has its key at the very end. -/
theorem Pairing.Owned.key_suffix {p : Pairing kind metadata keyName} (owned : p.Owned)
    (hend : p.front.getLast? = some 0x3e) : keyElement keyName <:+ p.front := by
  obtain ⟨⟨space, blank, hsuffix⟩, -⟩ := owned
  rcases List.eq_nil_or_concat space with rfl | ⟨spaces, last, rfl⟩
  · rwa [List.append_nil] at hsuffix
  · exfalso
    obtain ⟨front, hfront⟩ := hsuffix
    rw [← hfront, List.concat_eq_append, ← List.append_assoc, ← List.append_assoc,
      List.getLast?_concat, Option.some.injEq] at hend
    have := blank last (by simp)
    rw [hend] at this
    exact absurd this (by decide)

end

end

/-! ## The extractors -/

section

variable (metadata : Bytes) (keyName : String)

theorem extractTagged_bind_eq_some {Value : Type} (kind : ElementKind Value) (value : Value) :
    (extractTagged metadata keyName kind.openTag kind.closeTag).bind kind.decode = some value ↔
      ∃ content stop, extractTaggedFrom metadata keyName kind.openTag kind.closeTag 0 =
        some (content, stop) ∧ kind.decode content = some value := by
  simp only [extractTagged, Option.bind_eq_some_iff, Option.map_eq_some_iff, Prod.exists,
    exists_and_right, exists_eq_right]

/-- `extract_data` decodes what the scanner returns. -/
theorem extractData_eq_some (crates : Crates) (value : Bytes) :
    extractData crates metadata keyName = some value ↔ ∃ content stop,
      extractTaggedFrom metadata keyName (dataKind crates).openTag (dataKind crates).closeTag 0 =
        some (content, stop) ∧ (dataKind crates).decode content = some value :=
  extractTagged_bind_eq_some metadata keyName (dataKind crates) value

/-- `extract_string` decodes what the scanner returns. -/
theorem extractString_eq_some (value : String) :
    extractString metadata keyName = some value ↔ ∃ content stop,
      extractTaggedFrom metadata keyName stringKind.openTag stringKind.closeTag 0 =
        some (content, stop) ∧ stringKind.decode content = some value :=
  extractTagged_bind_eq_some metadata keyName stringKind value

/-- `extract_integer_from` decodes what the scanner returns. -/
theorem extractIntegerFrom_eq_some (value : UInt32) :
    (∃ stop, extractIntegerFrom metadata keyName 0 = some (value, stop)) ↔ ∃ content stop,
      extractTaggedFrom metadata keyName integerKind.openTag integerKind.closeTag 0 =
        some (content, stop) ∧ integerKind.decode content = some value := by
  simp only [extractIntegerFrom, extractUnsignedFrom_eq, Option.map_eq_some_iff,
    Option.bind_eq_some_iff, Prod.exists, Prod.mk.injEq, integerKind]
  constructor
  · rintro ⟨_, _, stop, ⟨content, _, hfound, n, hn, rfl, rfl⟩, rfl, rfl⟩
    exact ⟨content, _, hfound, n, hn, rfl⟩
  · rintro ⟨content, stop, hfound, n, hn, rfl⟩
    exact ⟨stop, n, stop, ⟨content, stop, hfound, n, hn, rfl, rfl⟩, rfl, rfl⟩

end

/-- Each extractor returns a value only from the documented pattern, and from the first place
where it stands, exactly if the element that the scanner comes to belongs to the key. -/
theorem followsPattern_iff (crates : Crates) {metadata : Bytes} {keyName : String}
    (hkey : '<' ∉ keyName.toList) (hlen : metadata.length < usizeSize) :
    (FollowsPattern (dataKind crates) metadata keyName
        (extractData crates metadata keyName = some ·) ↔
      OwnTag (dataKind crates) metadata keyName) ∧
    (FollowsPattern stringKind metadata keyName (extractString metadata keyName = some ·) ↔
      OwnTag stringKind metadata keyName) ∧
    (FollowsPattern integerKind metadata keyName
        (fun value => ∃ stop, extractIntegerFrom metadata keyName 0 = some (value, stop)) ↔
      OwnTag integerKind metadata keyName) := by
  refine ⟨⟨?_, ?_⟩, ⟨?_, ?_⟩, ⟨?_, ?_⟩⟩
  · exact ownTag_of_followsPattern (extractData_eq_some metadata keyName crates) hlen
  · exact followsPattern_of_ownTag (extractData_eq_some metadata keyName crates) hkey
  · exact ownTag_of_followsPattern (extractString_eq_some metadata keyName) hlen
  · exact followsPattern_of_ownTag (extractString_eq_some metadata keyName) hkey
  · exact ownTag_of_followsPattern (extractIntegerFrom_eq_some metadata keyName) hlen
  · exact followsPattern_of_ownTag (extractIntegerFrom_eq_some metadata keyName) hkey

/-- A key whose value is a reference, and another key with data. -/
def referringMetadata : Bytes :=
  asBytes "<key>PassphraseWrappedKEKStruct</key><data IDREF=\"1\"/>" ++
    asBytes "<key>KEKWrappedVolumeKeyStruct</key><data ID=\"2\">QUJD</data>"

/-- What the scanner comes to in the referring metadata. -/
def referringPairing :
    Pairing (dataKind standardCrates) referringMetadata "PassphraseWrappedKEKStruct" where
  before := []
  gap := asBytes "<data IDREF=\"1\"/>" ++ keyElement "KEKWrappedVolumeKeyStruct"
  attributes := asBytes "\"2\""
  content := asBytes "QUJD"
  rest := []
  text := by decide +kernel
  attributes_clean := by decide
  content_clean := (avoids_closing (by decide)).before _

theorem referringMetadata_followsPattern_iff :
    FollowsPattern (dataKind standardCrates) referringMetadata "PassphraseWrappedKEKStruct"
        (extractData standardCrates referringMetadata "PassphraseWrappedKEKStruct" = some ·) ↔
      OwnTag (dataKind standardCrates) referringMetadata "PassphraseWrappedKEKStruct" :=
  (followsPattern_iff standardCrates (by decide) (by decide +kernel)).1

/-- The data of the other key is returned for the one with the reference. -/
theorem referringMetadata_mispaired :
    extractData standardCrates referringMetadata "PassphraseWrappedKEKStruct" =
      some (asBytes "ABC") ∧
    ¬ FollowsPattern (dataKind standardCrates) referringMetadata "PassphraseWrappedKEKStruct"
      (extractData standardCrates referringMetadata "PassphraseWrappedKEKStruct" = some ·) := by
  refine ⟨by decide +kernel, ?_⟩
  intro follows
  have own := ownTag_of_followsPattern
    (extractData_eq_some referringMetadata "PassphraseWrappedKEKStruct" standardCrates)
    (by decide +kernel) follows
  have scanned : referringPairing.Scanned := {
    first_key := (avoids_nil _).before _
    first_open := (avoids_of_clashes (by decide +kernel)).before _ }
  have owned := own referringPairing scanned (by decide +kernel)
  exact absurd (owned.key_suffix (by decide +kernel)) (by decide +kernel)

end FileVault
