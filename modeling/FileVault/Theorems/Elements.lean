import FileVault.Theorems.Pairing

/-!
# The elements of the metadata

Whether a struct is in the metadata is a matter of the documented pattern: its key, and right
behind it the data element. `ElementText` and `VolumeKeyText` say which text a struct has by the
pattern, `ScannedText` and `ScannedVolumeKey` which text the scanner comes to; there is exactly
one of each, and the code returns the scanned one.
-/

namespace FileVault

open Lib

/-! ## By the pattern -/

section

variable {Value : Type} {kind : ElementKind Value} {metadata : Bytes} {keyName : String}

/-- The first element of a key in the documented pattern, of those with such a text. -/
structure Pairing.FirstWhere (P : Bytes → Prop) (p : Pairing kind metadata keyName) : Prop where
  adjacent : p.Adjacent
  holds : P p.content
  le : ∀ q : Pairing kind metadata keyName, q.Adjacent → P q.content →
    p.before.length ≤ q.before.length

/-- Elements in the pattern whose keys start at one place are the same. -/
theorem adjacent_unique {p q : Pairing kind metadata keyName} (hp : p.Adjacent) (hq : q.Adjacent)
    (hbefore : p.before.length = q.before.length) : p.content = q.content ∧ p.rest = q.rest := by
  obtain ⟨name, hopen⟩ := kind.openTag_cons
  have noTag : ∀ {gap : Bytes}, Blank gap → 0x3c ∉ gap := by
    intro gap blank hmem
    exact absurd (blank _ hmem) (by decide)
  obtain ⟨-, behindKey⟩ := List.append_inj (p.text.symm.trans q.text) hbefore
  have behind := List.append_cancel_left behindKey
  -- the gaps end at the same `<`, the attributes at the same `>`, the texts at the same closing tag
  have gaps : p.gap = q.gap := by
    simp only [hopen, List.cons_append] at behind
    exact eq_of_marked_prefix (noTag hp.1) (noTag hq.1) ⟨[], by rw [List.append_nil, behind]⟩
  rw [gaps] at behind
  have tags := List.append_cancel_left (List.append_cancel_left behind)
  have attributes : p.attributes = q.attributes := by
    simp only [asBytes_gt, List.singleton_append] at tags
    exact eq_of_marked_prefix p.attributes_clean q.attributes_clean
      ⟨[], by rw [List.append_nil, tags]⟩
  rw [attributes] at tags
  have texts := List.append_cancel_left (List.append_cancel_left tags)
  have length : p.content.length = q.content.length :=
    le_antisymm (p.content_clean.length_le texts) (q.content_clean.length_le texts.symm)
  obtain ⟨contents, rests⟩ := List.append_inj texts length
  exact ⟨contents, List.append_cancel_left rests⟩

theorem Pairing.FirstWhere.unique {P : Bytes → Prop} {p q : Pairing kind metadata keyName}
    (hp : p.FirstWhere P) (hq : q.FirstWhere P) : p.content = q.content ∧ p.rest = q.rest :=
  adjacent_unique hp.adjacent hq.adjacent
    (le_antisymm (hp.le q hq.adjacent hq.holds) (hq.le p hp.adjacent hp.holds))

end

section

variable (crates : Crates)

/-- The text of the data element of a key, if there is one in the documented pattern. -/
inductive ElementText (metadata : Bytes) (keyName : String) : Option Bytes → Prop
  | present (p : Pairing (dataKind crates) metadata keyName) : p.FirstWhere (fun _ => True) →
      ElementText metadata keyName (some p.content)
  | absent : (∀ p : Pairing (dataKind crates) metadata keyName, ¬ p.Adjacent) →
      ElementText metadata keyName none

/-- The text of the `KEKWrappedVolumeKeyStruct` behind the first algorithm that is AES-XTS. -/
inductive VolumeKeyText (metadata : Bytes) : Option Bytes → Prop
  | behind (a : Pairing stringKind metadata "BlockAlgorithm") {text : Option Bytes} :
      a.FirstWhere (· = asBytes "AES-XTS") →
      ElementText crates a.rest "KEKWrappedVolumeKeyStruct" text → VolumeKeyText metadata text
  | absent : (∀ a : Pairing stringKind metadata "BlockAlgorithm", a.Adjacent →
      a.content ≠ asBytes "AES-XTS") → VolumeKeyText metadata none

end

section

variable {crates : Crates} {metadata : Bytes} {keyName : String} {text text' : Option Bytes}

theorem ElementText.unique (h : ElementText crates metadata keyName text)
    (h' : ElementText crates metadata keyName text') : text = text' := by
  cases h with
  | present p hp =>
      cases h' with
      | present q hq => rw [(hp.unique hq).1]
      | absent none => exact absurd hp.adjacent (none p)
  | absent none =>
      cases h' with
      | present q hq => exact absurd hq.adjacent (none q)
      | absent _ => rfl

theorem VolumeKeyText.unique (h : VolumeKeyText crates metadata text)
    (h' : VolumeKeyText crates metadata text') : text = text' := by
  cases h with
  | behind a ha htext =>
      cases h' with
      | behind b hb htext' =>
          rw [(ha.unique hb).2] at htext
          exact htext.unique htext'
      | absent none => exact absurd ha.holds (none a ha.adjacent)
  | absent none =>
      cases h' with
      | behind b hb _ => exact absurd hb.holds (none b hb.adjacent)
      | absent _ => rfl

end

/-! ## What is scanned -/

section

variable {Value : Type} {kind : ElementKind Value} {crates : Crates} {metadata value : Bytes}
  {keyName : String} {cursor stop : Nat} {text : Option Bytes}

/-- The scanner comes to one element only. -/
theorem Pairing.Scanned.unique {s s' : Pairing kind metadata keyName} (hs : s.Scanned)
    (hs' : s'.Scanned) (hlen : metadata.length < usizeSize) :
    s.content = s'.content ∧ s.rest = s'.rest := by
  have same := Option.some.inj ((hs.found hlen).symm.trans (hs'.found hlen))
  obtain ⟨contents, stops⟩ := Prod.mk.inj same
  refine ⟨contents, ?_⟩
  have total := congrArg List.length s.text
  have total' := congrArg List.length s'.text
  simp only [Pairing.stop, List.length_append] at stops total total'
  have length : s.rest.length = s'.rest.length := by omega
  exact (List.append_inj' (s.text_eq.symm.trans s'.text_eq |> fun h => by
    simpa only [Pairing.element, ← List.append_assoc] using h) length).2

end

end FileVault
