import FileVault.Lib.Chain
import FileVault.Lib.Loop
import FileVault.Logic.Plist
import FileVault.Logic.Primitives

/-!
# The substring machine

Four leftmost searches, each from where the one before it left off, find a tagged value
whenever there is one to find, and the end they come to is the first one there is. Each
extraction moves past where it started, so the loops that start over from its end stop.
-/

namespace FileVault

open Lib

/-- The searches of `extract_tagged_from`. -/
def tagLegs (keyName : String) (openTag closeTag : Bytes) : List (Leg UInt8) :=
  [⟨keyElement keyName, (keyElement keyName).length⟩, ⟨openTag, 0⟩, ⟨asBytes ">", 1⟩,
    ⟨closeTag, closeTag.length⟩]

section

variable (metadata : Bytes) (keyName : String) (openTag closeTag : Bytes) (start : Nat)

/-- The four tags occur at these positions, one behind the other. -/
structure TagsAt (k o g c : Nat) : Prop where
  key_from : start ≤ k
  key : Occurs (keyElement keyName) metadata k
  open_from : k + (keyElement keyName).length ≤ o
  open_tag : Occurs openTag metadata o
  gt_from : o ≤ g
  gt : Occurs (asBytes ">") metadata g
  close_from : g + 1 ≤ c
  close_tag : Occurs closeTag metadata c

/-- Each of the four tags at its first occurrence behind the one before it. -/
structure FirstTags (k o g c : Nat) : Prop where
  key : IsLeast {i | start ≤ i ∧ Occurs (keyElement keyName) metadata i} k
  open_tag : IsLeast {i | k + (keyElement keyName).length ≤ i ∧ Occurs openTag metadata i} o
  gt : IsLeast {i | o ≤ i ∧ Occurs (asBytes ">") metadata i} g
  close_tag : IsLeast {i | g + 1 ≤ i ∧ Occurs closeTag metadata i} c

/-- A value is found exactly if the tags are there, at the end of the first of them, and it is
the text up to the close tag. -/
structure ScansFrom : Prop where
  complete : (extractTaggedFrom metadata keyName openTag closeTag start).isSome = true ↔
    ∃ k o g c, TagsAt metadata keyName openTag closeTag start k o g c
  minimal : ∀ value stop,
    extractTaggedFrom metadata keyName openTag closeTag start = some (value, stop) →
      IsLeast {stop | ∃ k o g c, TagsAt metadata keyName openTag closeTag start k o g c ∧
        stop = c + closeTag.length} stop
  text : ∀ value stop,
    extractTaggedFrom metadata keyName openTag closeTag start = some (value, stop) →
      ∃ k o g c, FirstTags metadata keyName openTag closeTag start k o g c ∧
        stop = c + closeTag.length ∧ value = slice metadata (g + 1) (c - (g + 1)) ∧
        ¬ closeTag <:+: value
  progress : ∀ value stop,
    extractTaggedFrom metadata keyName openTag closeTag start = some (value, stop) →
      start < stop ∧ stop ≤ metadata.length

end

section

variable {metadata openTag closeTag value : Bytes} {keyName : String} {start stop : Nat}

/-- No position in the metadata overflows, and so a search finds what there is. -/
theorem locate_eq_nextMatch {needle : Bytes} (hne : needle ≠ [])
    (hlen : metadata.length < usizeSize) :
    locate metadata needle start = nextMatch needle metadata start := by
  unfold locate nextMatch getFrom
  by_cases hstart : start ≤ metadata.length
  · rw [if_pos hstart]
    show (findSub (metadata.drop start) needle >>= checkedAdd start) = _
    rw [findSub_of_firstMatch hne]
    cases hmatch : firstMatch needle (metadata.drop start) with
    | none => rfl
    | some i =>
        have bound := firstMatch_bound hmatch
        rw [List.length_drop] at bound
        exact checkedAdd_eq_some.mpr ⟨by omega, rfl⟩
  · rw [if_neg hstart, List.drop_eq_nil_of_le (by omega)]
    cases hmatch : firstMatch needle [] with
    | none => rfl
    | some i =>
        have bound := firstMatch_bound hmatch
        rw [List.length_nil] at bound
        exact absurd (List.length_eq_zero_iff.mp (by omega)) hne

theorem tagLegs_ne_nil (hopen : openTag ≠ []) (hclose : closeTag ≠ []) :
    ∀ leg ∈ tagLegs keyName openTag closeTag, leg.needle ≠ [] := by
  intro leg hleg
  simp only [tagLegs, List.mem_cons, List.not_mem_nil, or_false] at hleg
  rcases hleg with rfl | rfl | rfl | rfl
  · exact keyElement_ne_nil keyName
  · exact hopen
  · show asBytes ">" ≠ []
    rw [asBytes_gt]
    simp
  · exact hclose

/-- Where the chain can get to is behind a close tag. -/
theorem reaches_tagLegs : Reaches metadata (tagLegs keyName openTag closeTag) start stop ↔
    ∃ k o g c, TagsAt metadata keyName openTag closeTag start k o g c ∧
      stop = c + closeTag.length := by
  constructor
  · intro h
    cases h with | next hk key h =>
    cases h with | next ho open_tag h =>
    cases h with | next hg gt h =>
    cases h with | next hc close_tag h =>
    cases h with | done =>
    exact ⟨_, _, _, _, ⟨hk, key, ho, open_tag, hg, gt, hc, close_tag⟩, rfl⟩
  · rintro ⟨k, o, g, c, tags, rfl⟩
    exact .next tags.key_from tags.key (.next tags.open_from tags.open_tag
      (.next tags.gt_from tags.gt (.next tags.close_from tags.close_tag .done)))

/-- What an extraction comes to is four searches, and what lies between the last two. -/
theorem extractTaggedFrom_eq_some_iff (hopen : openTag ≠ []) (hclose : closeTag ≠ [])
    (hlen : metadata.length < usizeSize) :
    extractTaggedFrom metadata keyName openTag closeTag start = some (value, stop) ↔
      ∃ k o g c, FirstTags metadata keyName openTag closeTag start k o g c ∧
        stop = c + closeTag.length ∧ value = slice metadata (g + 1) (c - (g + 1)) := by
  have hgt : asBytes ">" ≠ [] := by simp [asBytes_gt]
  have hkey : keyElement keyName ≠ [] := keyElement_ne_nil keyName
  rw [extractTaggedFrom_eq]
  simp only [locate_eq_nextMatch, hkey, hopen, hgt, hclose, hlen, ne_eq, not_false_eq_true,
    Option.bind_eq_bind, Option.bind_eq_some_iff, checkedAdd_eq_some, nextMatch_eq_some]
  constructor
  · rintro ⟨k, key, _, ⟨_, rfl⟩, o, open_tag, g, gt, _, ⟨_, rfl⟩, c, close_tag, inner, hinner,
      _, ⟨_, rfl⟩, hpair⟩
    obtain ⟨rfl, rfl⟩ := Prod.mk.inj (Option.some.inj hpair)
    refine ⟨k, o, g, c, ⟨key, open_tag, gt, close_tag⟩, rfl, ?_⟩
    have hle : g + 1 ≤ c := close_tag.1.1
    have inside := close_tag.1.2.inside hclose
    rw [show c = g + 1 + (c - (g + 1)) by omega, getRange_eq (by omega)] at hinner
    exact (Option.some.inj hinner).symm
  · rintro ⟨k, o, g, c, ⟨key, open_tag, gt, close_tag⟩, rfl, rfl⟩
    have hk := key.1.2.inside hkey
    have hg := gt.1.2.inside hgt
    have hle : g + 1 ≤ c := close_tag.1.1
    have hc := close_tag.1.2.inside hclose
    have hpos : 0 < (asBytes ">").length := by simp [asBytes_gt]
    refine ⟨k, key, _, ⟨by omega, rfl⟩, o, open_tag, g, gt, _, ⟨by omega, rfl⟩, c, close_tag,
      slice metadata (g + 1) (c - (g + 1)), ?_, _, ⟨by omega, rfl⟩, rfl⟩
    rw [show getRange metadata (g + 1) c = getRange metadata (g + 1) (g + 1 + (c - (g + 1))) by
      rw [show g + 1 + (c - (g + 1)) = c by omega]]
    exact getRange_eq (by omega)

/-- The scanner ends where the chain of its searches does. -/
theorem extractTaggedFrom_chain (hopen : openTag ≠ []) (hclose : closeTag ≠ [])
    (hlen : metadata.length < usizeSize) :
    (∃ value, extractTaggedFrom metadata keyName openTag closeTag start = some (value, stop)) ↔
      chain metadata (tagLegs keyName openTag closeTag) start = some stop := by
  have hgt : asBytes ">" ≠ [] := by simp [asBytes_gt]
  have hkey : keyElement keyName ≠ [] := keyElement_ne_nil keyName
  simp only [extractTaggedFrom_eq_some_iff hopen hclose hlen, tagLegs, chain,
    Option.bind_eq_bind, Option.bind_eq_some_iff, nextMatch_eq_some, hkey, hopen, hgt, hclose,
    ne_eq, not_false_eq_true, Option.some.injEq, Nat.add_zero]
  constructor
  · rintro ⟨_, k, o, g, c, ⟨key, open_tag, gt, close_tag⟩, rfl, rfl⟩
    exact ⟨k, key, o, open_tag, g, gt, c, close_tag, rfl⟩
  · rintro ⟨k, key, o, open_tag, g, gt, c, close_tag, rfl⟩
    exact ⟨_, k, o, g, c, ⟨key, open_tag, gt, close_tag⟩, rfl, rfl⟩

/-- In the text up to the first close tag there is no close tag. -/
theorem FirstTags.not_infix {k o g c : Nat}
    (h : FirstTags metadata keyName openTag closeTag start k o g c) (hclose : closeTag ≠ []) :
    ¬ closeTag <:+: slice metadata (g + 1) (c - (g + 1)) := by
  rintro ⟨before, after, heq⟩
  have hlen := congrArg List.length heq
  have hpos := List.length_pos_iff.mpr hclose
  rw [List.length_append, List.length_append] at hlen
  have hbound : (slice metadata (g + 1) (c - (g + 1))).length ≤ c - (g + 1) := by
    rw [slice, List.length_take]
    omega
  have earlier : Occurs closeTag metadata (g + 1 + before.length) := by
    unfold Occurs
    have hprefix : before ++ (closeTag ++ after) <+: metadata.drop (g + 1) := by
      rw [← List.append_assoc, heq]
      exact List.take_prefix _ _
    obtain ⟨rest, hrest⟩ := hprefix
    refine ⟨after ++ rest, ?_⟩
    rw [← List.drop_drop, ← hrest, List.append_assoc, List.drop_left, List.append_assoc]
  have hle := h.close_tag.2 ⟨Nat.le_add_right (g + 1) _, earlier⟩
  omega

/-- The machine misses nothing, stops as soon as it can, and gets ahead. -/
theorem scansFrom (hopen : openTag ≠ []) (hclose : closeTag ≠ [])
    (hlen : metadata.length < usizeSize) :
    ScansFrom metadata keyName openTag closeTag start := by
  have hne : ∀ leg ∈ tagLegs keyName openTag closeTag, leg.needle ≠ [] :=
    tagLegs_ne_nil hopen hclose
  refine ⟨?_, ?_, ?_, ?_⟩
  · rw [Option.isSome_iff_exists]
    constructor
    · rintro ⟨⟨value, stop⟩, h⟩
      have hchain := (extractTaggedFrom_chain hopen hclose hlen).mp ⟨value, h⟩
      obtain ⟨k, o, g, c, tags, -⟩ := reaches_tagLegs.mp (reaches_of_chain hne hchain)
      exact ⟨k, o, g, c, tags⟩
    · rintro ⟨k, o, g, c, tags⟩
      -- the exchange: the first occurrences come no later than these
      obtain ⟨stop, hchain, -⟩ := chain_le_of_reaches hne le_rfl
        (reaches_tagLegs.mpr ⟨k, o, g, c, tags, rfl⟩)
      obtain ⟨value, h⟩ := (extractTaggedFrom_chain hopen hclose hlen).mpr hchain
      exact ⟨(value, stop), h⟩
  · intro value stop h
    have least := (chain_eq_some_iff hne).mp
      ((extractTaggedFrom_chain hopen hclose hlen).mp ⟨value, h⟩)
    simpa only [reaches_tagLegs] using least
  · intro value stop h
    obtain ⟨k, o, g, c, first, hstop, hvalue⟩ :=
      (extractTaggedFrom_eq_some_iff hopen hclose hlen).mp h
    exact ⟨k, o, g, c, first, hstop, hvalue, hvalue ▸ first.not_infix hclose⟩
  · intro value stop h
    exact extractTaggedFrom_progress h

end

/-! ## The loops that start over from the end -/

/-- One pass of the loop of `extract_protectors`, over what was found so far and the cursor. -/
def protectorsPass (metadata : Bytes) (s : List Protector × Nat) :
    Pass (List Protector × Nat) (List Protector) :=
  match extractIntegerFrom metadata "UserType" s.2 with
  | none => .leave s.1
  | some (userType, stop) =>
      let out : List Protector := s.1 ++ [{ userType, kind := .fromUserType userType }]
      if 64 ≤ out.length then .leave out else .again (out, stop)

/-- One pass of the loop of `extract_kek_wrapped_aes_xts`. -/
def kekPass (crates : Crates) (metadata : Bytes) (cursor : Nat) : Pass Nat (Option Bytes) :=
  match extractTaggedFrom metadata "BlockAlgorithm" (asBytes "<string ID=")
      (asBytes "</string>") cursor with
  | none => .leave none
  | some (algo, stop) =>
      if algo = asBytes "AES-XTS" then
        .leave ((getFrom metadata stop).bind (extractData crates · "KEKWrappedVolumeKeyStruct"))
      else .again stop

section

variable {crates : Crates} {metadata : Bytes}

theorem extractIntegerFrom_progress {keyName : String} {start stop : Nat} {value : UInt32}
    (h : extractIntegerFrom metadata keyName start = some (value, stop)) :
    start < stop ∧ stop ≤ metadata.length := by
  simp only [extractIntegerFrom, extractUnsignedFrom_eq, Option.map_eq_some_iff,
    Option.bind_eq_some_iff, Prod.exists, Prod.mk.injEq] at h
  obtain ⟨_, _, ⟨text, _, htagged, _, -, -, rfl⟩, -, rfl⟩ := h
  exact extractTaggedFrom_progress htagged

theorem protectorsPass_none {out : List Protector} {cursor : Nat}
    (h : extractIntegerFrom metadata "UserType" cursor = none) :
    protectorsPass metadata (out, cursor) = .leave out := by
  rw [protectorsPass, h]

theorem protectorsPass_some {out : List Protector} {cursor stop : Nat} {userType : UInt32}
    (h : extractIntegerFrom metadata "UserType" cursor = some (userType, stop)) :
    protectorsPass metadata (out, cursor) =
      if 63 ≤ out.length then .leave (out ++ [⟨userType, .fromUserType userType⟩])
      else .again (out ++ [⟨userType, .fromUserType userType⟩], stop) := by
  rw [protectorsPass, h]
  simp only [List.length_append, List.length_singleton, Nat.reduceLeDiff]

/-- What the loop returns from a state on: what was found, and what there is room for. -/
def protectorsResult (metadata : Bytes) (s : List Protector × Nat) : List Protector :=
  s.1 ++ protectorsFrom metadata (64 - s.1.length) s.2

/-- The loop of `extract_protectors` returns. -/
theorem protectors_loop {fuel : Nat} (hfuel : metadata.length < fuel) :
    runLoop (protectorsPass metadata) fuel ([], 0) = some (extractProtectors metadata) := by
  refine @runLoop_eq _ _ (protectorsPass metadata) (fun s => s.1.length < 64)
    (fun s => metadata.length - s.2) (protectorsResult metadata) ?_ ?_ fuel ([], 0)
    (by decide) (by show metadata.length - 0 < fuel; omega)
  · rintro ⟨out, cursor⟩ r (hroom : out.length < 64) hpass
    cases h : extractIntegerFrom metadata "UserType" cursor with
    | none =>
        rw [protectorsPass_none h] at hpass
        obtain rfl := Pass.leave.inj hpass
        rw [protectorsResult, protectorsFrom_none h, List.append_nil]
    | some found =>
        -- the sixty-fourth ends the loop
        rw [protectorsPass_some h] at hpass
        split at hpass
        · obtain rfl := Pass.leave.inj hpass
          rw [protectorsResult, show 64 - out.length = 0 + 1 by omega, protectorsFrom_some h]
          rfl
        · cases hpass
  · rintro ⟨out, cursor⟩ s' (hroom : out.length < 64) hpass
    cases h : extractIntegerFrom metadata "UserType" cursor with
    | none =>
        rw [protectorsPass_none h] at hpass
        cases hpass
    | some found =>
        rw [protectorsPass_some h] at hpass
        split at hpass
        · cases hpass
        · obtain rfl := Pass.again.inj hpass
          have progress := extractIntegerFrom_progress h
          refine ⟨?_, ?_, ?_⟩
          · rw [List.length_append, List.length_singleton]
            omega
          · rw [protectorsResult, protectorsResult, List.length_append, List.length_singleton,
              show 64 - out.length = 64 - (out.length + 1) + 1 by omega, protectorsFrom_some h,
              List.append_assoc]
            rfl
          · show metadata.length - _ < metadata.length - cursor
            omega

/-- The loop of `extract_kek_wrapped_aes_xts` is its passes. -/
theorem kekWrappedAesXtsFrom_pass (cursor : Nat) :
    kekWrappedAesXtsFrom crates metadata cursor =
      match kekPass crates metadata cursor with
      | .leave r => r
      | .again stop => kekWrappedAesXtsFrom crates metadata stop := by
  unfold kekPass
  cases h : extractTaggedFrom metadata "BlockAlgorithm" (asBytes "<string ID=")
      (asBytes "</string>") cursor with
  | none => rw [kekWrappedAesXtsFrom_none h]
  | some found =>
      obtain ⟨algo, stop⟩ := found
      rw [kekWrappedAesXtsFrom_some h]
      by_cases hxts : algo = asBytes "AES-XTS"
      · simp only [if_pos hxts]
      · simp only [if_neg hxts]

theorem kekPass_again {cursor stop : Nat} (h : kekPass crates metadata cursor = .again stop) :
    cursor < stop ∧ stop ≤ metadata.length := by
  unfold kekPass at h
  split at h
  · cases h
  · next algo stop' htagged =>
      split at h
      · cases h
      · obtain rfl := Pass.again.inj h
        exact extractTaggedFrom_progress htagged

/-- The loop of `extract_kek_wrapped_aes_xts` returns. -/
theorem kek_loop {fuel : Nat} (hfuel : metadata.length < fuel) :
    runLoop (kekPass crates metadata) fuel 0 = some (extractKekWrappedAesXts crates metadata) := by
  refine @runLoop_eq _ _ (kekPass crates metadata) (fun _ => True)
    (fun cursor => metadata.length - cursor) (kekWrappedAesXtsFrom crates metadata) ?_ ?_ fuel 0
    trivial (by show metadata.length - 0 < fuel; omega)
  · intro cursor r _ hpass
    rw [kekWrappedAesXtsFrom_pass, hpass]
  · intro cursor stop _ hpass
    have progress := kekPass_again hpass
    refine ⟨trivial, ?_, ?_⟩
    · rw [kekWrappedAesXtsFrom_pass, hpass]
    · show metadata.length - stop < metadata.length - cursor
      omega

end

/-- `extract_tagged_from` is complete, minimal and gets ahead, and so the two loops that start
over from where it ended return: a pass for each byte of the metadata, and one more, is enough. -/
theorem scanner_complete (crates : Crates) {metadata openTag closeTag : Bytes} (keyName : String)
    (start : Nat) (hopen : openTag ≠ []) (hclose : closeTag ≠ [])
    (hlen : metadata.length < usizeSize) :
    ScansFrom metadata keyName openTag closeTag start ∧
      ∀ fuel, metadata.length < fuel →
        runLoop (protectorsPass metadata) fuel ([], 0) = some (extractProtectors metadata) ∧
        runLoop (kekPass crates metadata) fuel 0 =
          some (extractKekWrappedAesXts crates metadata) := by
  refine ⟨scansFrom hopen hclose hlen, ?_⟩
  intro fuel hfuel
  exact ⟨protectors_loop hfuel, kek_loop hfuel⟩

/-- An opening tag inside the attributes of another. -/
def nestedTags : Bytes := asBytes "<key>lv</key><string ID=\"<string ID=\"1\">v</string>"

theorem scanner_complete_nested :
    ScansFrom nestedTags "lv" (asBytes "<string ID=") (asBytes "</string>") 0 ∧
      ∀ fuel, nestedTags.length < fuel →
        runLoop (protectorsPass nestedTags) fuel ([], 0) = some (extractProtectors nestedTags) ∧
        runLoop (kekPass standardCrates nestedTags) fuel 0 =
          some (extractKekWrappedAesXts standardCrates nestedTags) :=
  scanner_complete standardCrates "lv" 0 (by decide) (by decide) (by decide +kernel)

end FileVault
