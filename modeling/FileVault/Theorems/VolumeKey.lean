import FileVault.Logic.Plist
import FileVault.Logic.Primitives

/-!
# The wrapped volume key among its siblings

An encryption context lists wrapped volume keys, each behind the algorithm it is for. The
scan goes from algorithm to algorithm, and takes the key behind the first `AES-XTS`. As
long as the text in between holds no key element of its own, algorithm and key stay in
step, however many siblings there are.
-/

namespace FileVault

open Lib

/-- An algorithm and the key it wraps, with the text in front of each. The key is in base64
with whitespace anywhere in it. -/
structure Sibling (crates : Crates) where
  gap : Bytes
  attributes : Bytes
  algorithm : Bytes
  between : Bytes
  dataAttributes : Bytes
  blob : Bytes
  text : Bytes
  gap_clean : ¬ keyElement "BlockAlgorithm" <:+: gap
  attributes_clean : 0x3e ∉ attributes
  algorithm_clean : 0x3c ∉ algorithm
  between_clean : ¬ keyElement "BlockAlgorithm" <:+: between ∧
    ¬ keyElement "KEKWrappedVolumeKeyStruct" <:+: between
  dataAttributes_clean : 0x3c ∉ dataAttributes ∧ 0x3e ∉ dataAttributes
  blob_capped : blob.length ≤ 3072
  text_spaced : text.filter (!isAsciiWhitespace ·) = crates.base64Encode blob

namespace Sibling

variable {crates : Crates} (sibling : Sibling crates)

/-- From the algorithm on, what is left of the sibling. -/
def tail : Bytes :=
  sibling.between ++ wrappedKeyElement sibling.dataAttributes sibling.text

/-- The sibling as it stands in the context. -/
def render : Bytes :=
  sibling.gap ++ (algorithmElement sibling.attributes sibling.algorithm ++ sibling.tail)

/-- The text of the key holds no tag. -/
theorem text_clean (lawful : crates.Lawful) : 0x3c ∉ sibling.text := by
  intro hmem
  have kept : 0x3c ∈ sibling.text.filter (!isAsciiWhitespace ·) :=
    List.mem_filter.mpr ⟨hmem, by decide⟩
  rw [sibling.text_spaced] at kept
  exact not_mem_base64 lawful sibling.blob kept

theorem decodeBlob_text (lawful : crates.Lawful) :
    decodeBlob crates sibling.text = some sibling.blob := by
  have hcap := sibling.blob_capped
  have hmax : maxBase64Blob = 4096 := rfl
  refine decodeBlob_spaced lawful sibling.text_spaced ?_
  rw [lawful.encode_length]
  omega

/-- In front of the key of a sibling no other starts. -/
theorem between_avoids (rest : Bytes) :
    AvoidsBefore (keyElement "KEKWrappedVolumeKeyStruct") sibling.between
      (wrappedKeyElement sibling.dataAttributes sibling.text ++ rest) := by
  rw [wrappedKeyElement, tagged, List.append_assoc]
  exact avoidsBefore_keyElement _ (by decide) sibling.between_clean.2

/-- After its algorithm a sibling has no other. -/
theorem tail_avoids (lawful : crates.Lawful) :
    Avoids (keyElement "BlockAlgorithm") sibling.tail := by
  have key : Avoids (keyElement "BlockAlgorithm")
      (wrappedKeyElement sibling.dataAttributes sibling.text) :=
    AvoidsKey.tagged (by decide) (by decide) (by decide)
      ((avoidsKey_markup (by decide)).append
        ((avoidsKey_of_not_mem sibling.dataAttributes_clean.1).append
          (avoidsKey_markup (by decide))))
      (sibling.text_clean lawful) (by decide)
  intro i hi rest
  refine AvoidsBefore.append ?_ (key.before rest) i hi
  rw [wrappedKeyElement, tagged, List.append_assoc]
  exact avoidsBefore_keyElement _ (by decide) sibling.between_clean.1

end Sibling

/-- The siblings in order, and the text after them. -/
def siblingsMetadata {crates : Crates} (siblings : List (Sibling crates)) (trail : Bytes) : Bytes :=
  siblings.flatMap Sibling.render ++ trail

/-- The scan, from a place after which no algorithm comes before the next sibling. -/
theorem kekWrappedAesXtsFrom_siblings {crates : Crates} (lawful : crates.Lawful)
    (siblings : List (Sibling crates)) {front pending trail : Bytes}
    (hpending : Avoids (keyElement "BlockAlgorithm") pending)
    (htrail : ¬ keyElement "BlockAlgorithm" <:+: trail)
    (hlen : (front ++ (pending ++ siblingsMetadata siblings trail)).length < usizeSize) :
    kekWrappedAesXtsFrom crates (front ++ (pending ++ siblingsMetadata siblings trail))
        front.length =
      (siblings.find? (·.algorithm = asBytes "AES-XTS")).map Sibling.blob := by
  induction siblings generalizing front pending with
  | nil =>
      have nothing : AvoidsBefore (keyElement "BlockAlgorithm") (pending ++ trail) [] :=
        (hpending.before _).append (avoidsBefore_nil htrail)
      show kekWrappedAesXtsFrom crates (front ++ (pending ++ trail)) front.length = none
      exact kekWrappedAesXtsFrom_none (extractTaggedFrom_none nothing)
  | cons sibling siblings ih =>
      have split : front ++ (pending ++ siblingsMetadata (sibling :: siblings) trail) =
          front ++ ((pending ++ sibling.gap) ++
            (algorithmElement sibling.attributes sibling.algorithm ++
              (sibling.tail ++ siblingsMetadata siblings trail))) := by
        simp only [siblingsMetadata, List.flatMap_cons, Sibling.render, List.append_assoc]
      have gap : AvoidsBefore (keyElement "BlockAlgorithm") (pending ++ sibling.gap)
          (algorithmElement sibling.attributes sibling.algorithm ++
            (sibling.tail ++ siblingsMetadata siblings trail)) := by
        refine (hpending.before _).append ?_
        rw [algorithmElement, tagged, List.append_assoc]
        exact avoidsBefore_keyElement _ (by decide) sibling.gap_clean
      rw [split] at hlen ⊢
      by_cases hxts : sibling.algorithm = asBytes "AES-XTS"
      · -- its key comes next
        rw [List.find?_cons_of_pos (by simpa using hxts), Option.map_some]
        have cut : sibling.tail ++ siblingsMetadata siblings trail =
            sibling.between ++ (wrappedKeyElement sibling.dataAttributes sibling.text ++
              siblingsMetadata siblings trail) := by
          rw [Sibling.tail, List.append_assoc]
        rw [hxts, cut] at hlen gap ⊢
        rw [kekWrappedAesXtsFrom_text front gap sibling.attributes_clean
          (sibling.between_avoids _) sibling.dataAttributes_clean.2 (sibling.text_clean lawful)
          hlen]
        exact sibling.decodeBlob_text lawful
      · rw [List.find?_cons_of_neg (by simpa using hxts),
          kekWrappedAesXtsFrom_skip gap sibling.attributes_clean sibling.algorithm_clean hxts hlen]
        -- passed over: its key is part of the text before the next algorithm
        have rest := @ih
          (front ++ ((pending ++ sibling.gap) ++
            algorithmElement sibling.attributes sibling.algorithm)) sibling.tail
          (sibling.tail_avoids lawful) (by simpa only [List.append_assoc] using hlen)
        simp only [List.append_assoc] at rest ⊢
        exact rest

/-- What is extracted is the key of the first `AES-XTS` sibling, and nothing when there is
none. -/
theorem extractKekWrappedAesXts_selects {crates : Crates} (lawful : crates.Lawful)
    (siblings : List (Sibling crates)) {trail : Bytes}
    (htrail : ¬ keyElement "BlockAlgorithm" <:+: trail)
    (hlen : (siblingsMetadata siblings trail).length < usizeSize) :
    extractKekWrappedAesXts crates (siblingsMetadata siblings trail) =
      (siblings.find? (·.algorithm = asBytes "AES-XTS")).map Sibling.blob :=
  @kekWrappedAesXtsFrom_siblings crates lawful siblings [] [] trail (avoids_nil _) htrail hlen

/-- A placeholder and a key, the latter with line breaks in its text. -/
def exampleSiblings : List (Sibling standardCrates) := [
  { gap := [], attributes := asBytes "\"1\"", algorithm := asBytes "None", between := []
    dataAttributes := asBytes "\"2\"", blob := [0], text := asBytes "AA=="
    gap_clean := by decide, attributes_clean := by decide, algorithm_clean := by decide
    between_clean := by decide, dataAttributes_clean := by decide, blob_capped := by decide
    text_spaced := by decide +kernel },
  { gap := asBytes "</dict>", attributes := asBytes "\"3\"", algorithm := asBytes "AES-XTS"
    between := asBytes "<", dataAttributes := asBytes "\"7\"", blob := [1, 2, 3]
    text := asBytes "\nAQ\tID\n"
    gap_clean := by decide, attributes_clean := by decide, algorithm_clean := by decide
    between_clean := by decide, dataAttributes_clean := by decide, blob_capped := by decide
    text_spaced := by decide +kernel }]

theorem exampleSiblings_selected :
    extractKekWrappedAesXts standardCrates (siblingsMetadata exampleSiblings []) =
      some [1, 2, 3] :=
  (extractKekWrappedAesXts_selects standardCrates_lawful exampleSiblings (by decide)
    (by decide +kernel)).trans (by decide +kernel)

end FileVault
