import FileVault.Core.Audit
import FileVault.Lib.Listing
import FileVault.Logic.FixtureImage

/-!
# The protector summary

The inventory names the kinds of the protectors there are. The labels are sorted, and a kind that
two protectors have is named twice: the summary is a set of kinds only where no two protectors
are of one kind.
-/

namespace FileVault

open Lib

/-- What the inventory finding gives as its `protectors`. -/
def reportedSummary (info : FileVaultInfo) : Option String := do
  let anomaly ← (auditInfo info).find? (·.code = "FVDE-PROTECTOR-INVENTORY")
  let evidence ← anomaly.kind.evidence.find? (·.field = "protectors")
  return evidence.value

/-- The summary is the sorted set of the kinds, and `again`, which has the same protectors in
some order and some number, has the same summary. -/
structure SummaryIsSet (info : FileVaultInfo) (again : List Protector) : Prop where
  sorted : info.protectors ≠ [] → ∃ labels : List String,
    reportedSummary info = some (", ".intercalate labels) ∧ labels.Pairwise (· < ·) ∧
      ∀ label, label ∈ labels ↔ ∃ p ∈ info.protectors, p.kind.label = label
  none : reportedSummary info = some "none" ↔ info.protectors = []
  same : reportedSummary { info with protectors := again } = reportedSummary info

/-- The labels, sorted. -/
def sortedLabels (protectors : List Protector) : List String :=
  (protectors.map (·.kind.label)).mergeSort (· ≤ ·)

variable {info : FileVaultInfo} {protectors again : List Protector}

theorem reportedSummary_eq (info : FileVaultInfo) :
    reportedSummary info = some (protectorSummary info) := by
  unfold reportedSummary auditInfo
  rfl

theorem protectorSummary_of_ne (h : info.protectors ≠ []) :
    protectorSummary info = ", ".intercalate (sortedLabels info.protectors) := by
  rw [protectorSummary, if_neg h]
  rfl

/-! ## The labels -/

theorem mem_sortedLabels {label : String} :
    label ∈ sortedLabels protectors ↔ ∃ p ∈ protectors, p.kind.label = label := by
  rw [sortedLabels, mem_sort, List.mem_map]

theorem sortedLabels_ne_nil (h : protectors ≠ []) : sortedLabels protectors ≠ [] := by
  obtain ⟨p, rest, rfl⟩ := List.exists_cons_of_ne_nil h
  exact List.ne_nil_of_mem (mem_sortedLabels.mpr ⟨p, List.mem_cons_self, rfl⟩)

theorem labels_nodup_iff :
    (protectors.map (·.kind.label)).Nodup ↔ (protectors.map (·.kind)).Nodup := by
  rw [show protectors.map (·.kind.label) = (protectors.map (·.kind)).map ProtectorKind.label by
    simp]
  exact List.nodup_map_iff ProtectorKind.label_injective

theorem sortedLabels_strict_iff :
    (sortedLabels protectors).Pairwise (· < ·) ↔ (protectors.map (·.kind)).Nodup := by
  rw [sortedLabels, sort_strict_iff_nodup, labels_nodup_iff]

/-- Sorted labels that are the same come from as many protectors of each kind. -/
theorem nodup_of_sortedLabels_eq (h : sortedLabels again = sortedLabels protectors)
    (hnodup : (protectors.map (·.kind)).Nodup) : (again.map (·.kind)).Nodup := by
  rw [← sortedLabels_strict_iff] at hnodup ⊢
  rwa [h]

/-- No label has the comma that separates them. -/
theorem comma_notMem_label (kind : ProtectorKind) : ',' ∉ kind.label.toList := by
  cases kind <;> decide

theorem comma_notMem {labels : List String}
    (h : ∀ label ∈ labels, ∃ p ∈ protectors, p.kind.label = label) :
    ∀ label ∈ labels, ',' ∉ label.toList := by
  intro label hlabel
  obtain ⟨p, -, rfl⟩ := h label hlabel
  exact comma_notMem_label p.kind

theorem comma_notMem_sorted : ∀ label ∈ sortedLabels protectors, ',' ∉ label.toList :=
  comma_notMem fun _ hlabel => mem_sortedLabels.mp hlabel

/-! ## The summary -/

/-- A summary tells the labels that were joined. -/
theorem labels_of_summary {labels : List String} (hne : info.protectors ≠ [])
    (hlabels : labels ≠ []) (hfree : ∀ label ∈ labels, ',' ∉ label.toList)
    (h : protectorSummary info = ", ".intercalate labels) :
    labels = sortedLabels info.protectors := by
  rw [protectorSummary_of_ne hne] at h
  have hsep : ", ".toList = [',', ' '] := by decide
  exact (join_inj hsep (by decide) comma_notMem_sorted hfree (sortedLabels_ne_nil hne) hlabels
    h).symm

theorem summary_none_iff : protectorSummary info = "none" ↔ info.protectors = [] := by
  constructor
  · intro h
    by_contra hne
    -- no kind has this label
    have hlabels : ["none"] = sortedLabels info.protectors :=
      labels_of_summary hne (by simp) (by decide) h
    have hmem : "none" ∈ sortedLabels info.protectors := by simp [← hlabels]
    obtain ⟨p, -, hp⟩ := mem_sortedLabels.mp hmem
    cases hkind : p.kind <;> exact absurd (hkind ▸ hp) (by decide)
  · intro h
    rw [protectorSummary, if_pos h]

/-- Of a volume with other protectors. -/
theorem protectorSummary_again (h : again ≠ []) :
    protectorSummary { info with protectors := again } = ", ".intercalate (sortedLabels again) :=
  protectorSummary_of_ne h

theorem again_ne_nil (h : ∀ p, p ∈ again ↔ p ∈ protectors) (hne : protectors ≠ []) :
    again ≠ [] := by
  rintro rfl
  obtain ⟨p, rest, rfl⟩ := List.exists_cons_of_ne_nil hne
  exact List.not_mem_nil ((h p).mpr List.mem_cons_self)

/-- Two lists of protectors have one summary exactly if their labels are the same, sorted. -/
theorem summary_again_iff (h : ∀ p, p ∈ again ↔ p ∈ info.protectors) (hne : info.protectors ≠ []) :
    protectorSummary { info with protectors := again } = protectorSummary info ↔
      sortedLabels again = sortedLabels info.protectors := by
  have hagain : again ≠ [] := again_ne_nil h hne
  rw [protectorSummary_again hagain]
  constructor
  · intro heq
    exact labels_of_summary hne (sortedLabels_ne_nil hagain) comma_notMem_sorted heq.symm
  · intro heq
    rw [heq, protectorSummary_of_ne hne]

/-- In which order the protectors come never matters. -/
theorem protectorSummary_perm (h : again.Perm info.protectors) :
    protectorSummary { info with protectors := again } = protectorSummary info := by
  by_cases hnil : info.protectors = []
  · rw [summary_none_iff.mpr hnil, summary_none_iff]
    exact List.perm_nil.mp (hnil ▸ h)
  · rw [summary_again_iff (fun _ => h.mem_iff) hnil]
    exact sort_eq_iff_perm.mpr (h.map (·.kind.label))

theorem labels_same_members (h : ∀ p, p ∈ again ↔ p ∈ protectors) (label : String) :
    label ∈ again.map (·.kind.label) ↔ label ∈ protectors.map (·.kind.label) := by
  simp only [List.mem_map, h]

/-- The summary is a sorted set of kinds, and repetitions do not change it, exactly if no two
protectors have the same kind. -/
theorem summaryIsSet_iff {info : FileVaultInfo} {again : List Protector}
    (h : ∀ p, p ∈ again ↔ p ∈ info.protectors) :
    SummaryIsSet info again ↔
      (info.protectors.map (·.kind)).Nodup ∧ (again.map (·.kind)).Nodup := by
  by_cases hnil : info.protectors = []
  · -- then there is no protector to repeat
    have hagain : again = [] := List.eq_nil_iff_forall_not_mem.mpr fun p hp => by
      simpa [hnil] using (h p).mp hp
    subst hagain
    constructor
    · intro _
      simp [hnil]
    · intro _
      refine ⟨fun hne => absurd hnil hne, ?_, ?_⟩
      · rw [reportedSummary_eq, Option.some.injEq, summary_none_iff]
      · rw [← hnil]
  constructor
  · rintro ⟨sorted, -, same⟩
    obtain ⟨labels, hjoin, hstrict, hmem⟩ := sorted hnil
    rw [reportedSummary_eq, Option.some.injEq] at hjoin
    have hne : labels ≠ [] := by
      obtain ⟨p, rest, hp⟩ := List.exists_cons_of_ne_nil hnil
      exact List.ne_nil_of_mem ((hmem p.kind.label).mpr ⟨p, by simp [hp], rfl⟩)
    have hlabels := labels_of_summary hnil hne (comma_notMem fun l hl => (hmem l).mp hl) hjoin
    have hnodup : (info.protectors.map (·.kind)).Nodup :=
      sortedLabels_strict_iff.mp (hlabels ▸ hstrict)
    rw [reportedSummary_eq, reportedSummary_eq, Option.some.injEq, summary_again_iff h hnil]
      at same
    exact ⟨hnodup, nodup_of_sortedLabels_eq same hnodup⟩
  · rintro ⟨hnodup, hagain⟩
    refine ⟨?_, ?_, ?_⟩
    · intro _
      refine ⟨sortedLabels info.protectors, ?_, sortedLabels_strict_iff.mpr hnodup, ?_⟩
      · rw [reportedSummary_eq, protectorSummary_of_ne hnil]
      · intro label
        exact mem_sortedLabels
    · rw [reportedSummary_eq, Option.some.injEq, summary_none_iff]
    · rw [reportedSummary_eq, reportedSummary_eq, Option.some.injEq, summary_again_iff h hnil]
      exact sort_eq_of_same_members (labels_nodup_iff.mpr hagain) (labels_nodup_iff.mpr hnodup)
        (labels_same_members h)

/-- The audit of a built image, over any healthy reader: its one protector is named once. -/
theorem audit_buildImage {crates : Crates} {p : Fixture} (lawful : crates.Lawful)
    (fits : p.Fits crates) (placed : p.Placed) (hsize : p.lvSize ≠ 0) {reader : Reader}
    (healthy : reader.Healthy) (hdata : reader.data = p.buildImage crates) :
    audit crates reader = .ok (auditInfo (p.info crates)) ∧
      protectorSummary (p.info crates) = "password" := by
  constructor
  · rw [audit, Fixture.parseInfo_buildImage lawful fits placed hsize healthy hdata, ok_bind]
    rfl
  · have labels : sortedLabels (p.info crates).protectors = ["password"] :=
      sort_eq_self (List.pairwise_singleton _ _)
    rw [protectorSummary_of_ne (List.cons_ne_nil _ _), labels]
    rfl

/-- What a volume with these protectors reports about itself. -/
def infoOf (protectors : List Protector) : FileVaultInfo where
  physicalVolumeIdentifier := "3273a055-3b8b-47e8-b970-df35eecda81b"
  pbkdf2Iterations := 90506
  pbkdf2Salt := ByteArr.fill 16 0
  familyUuid := "1F01CA34-5F6C-4123-AC0C-B0A256889DB2"
  lvIdentifier := some "420AF122-CF73-4A30-8B0A-A593A65FBEF5"
  lvName := some "TestLV"
  lvSize := 167772160
  encryptionMethod := "AES-XTS-128"
  conversionStatus := some "Complete"
  protectors

def passwordProtector : Protector := ⟨0x10000001, .password⟩

def recoveryProtector : Protector := ⟨0x10000009, .recovery⟩

theorem summaryIsSet_two_kinds :
    SummaryIsSet (infoOf [recoveryProtector, passwordProtector])
        [passwordProtector, recoveryProtector] ↔
      ([recoveryProtector, passwordProtector].map (·.kind)).Nodup ∧
        ([passwordProtector, recoveryProtector].map (·.kind)).Nodup :=
  summaryIsSet_iff (by simp [infoOf, or_comm])

/-- Users with passwords are listed one by one. -/
theorem sortedLabels_passwords (n : Nat) :
    sortedLabels (List.replicate n passwordProtector) = List.replicate n "password" := by
  rw [sortedLabels, List.map_replicate]
  apply sort_eq_self
  rw [List.pairwise_replicate]
  exact Or.inr (le_refl _)

theorem reportedSummary_passwords (n : Nat) :
    reportedSummary (infoOf (List.replicate (n + 1) passwordProtector)) =
      some (", ".intercalate (List.replicate (n + 1) "password")) := by
  rw [reportedSummary_eq, protectorSummary_of_ne (List.cons_ne_nil _ _)]
  exact congrArg (fun labels => some (", ".intercalate labels)) (sortedLabels_passwords (n + 1))

/-- The second user with a password changes the summary. -/
theorem summary_repeats_label :
    reportedSummary (infoOf [passwordProtector, passwordProtector]) = some "password, password" ∧
      reportedSummary (infoOf [passwordProtector]) = some "password" ∧
      ¬ SummaryIsSet (infoOf [passwordProtector, passwordProtector]) [passwordProtector] := by
  have htwo : reportedSummary (infoOf [passwordProtector, passwordProtector]) =
      some "password, password" := reportedSummary_passwords 1
  have hone : reportedSummary (infoOf [passwordProtector]) = some "password" :=
    reportedSummary_passwords 0
  refine ⟨htwo, hone, ?_⟩
  rintro ⟨-, -, same⟩
  have heq : some "password" = some "password, password" := hone.symm.trans (same.trans htwo)
  exact absurd heq (by decide)

end FileVault
