import FileVault.Theorems.ProtectorSummary
import FileVault.Theorems.Session

/-!
# The findings of an audit

An audit looks at a volume that is locked. Whatever the device does, it finds what it would find in
memory, or gives the error of the device; and on an image that was built it finds what the image
was built from.
-/

namespace FileVault

open Lib

/-- What parsing gives in memory, or the I/O error of a device that had a failure. -/
theorem parseInfo_outcome (crates : Crates) (reader : Reader) :
    (∃ e, parseInfo crates reader = fail (.io e) ∧ 0 < reader.faults) ∨
      parseInfo crates reader = parseInfo crates (.cursor reader.data) := by
  rcases loadVolume_outcome crates reader with ⟨reader', -, hload⟩ | ⟨e, reader', failed, hload⟩
  · right
    rw [parseInfo_healthy crates (Reader.healthy_cursor reader.data), parseInfo_eq, hload,
      bind_assoc]
    rfl
  · refine .inl ⟨e, ?_, failed.faults_pos⟩
    rw [parseInfo_eq, hload]
    rfl

section

variable {SubjectRef Finding : Type} (crates : Crates)
  (toFinding : Observation SubjectRef → ReportSource → Finding) (version : String)

/-- What the findings are of. -/
def findingsOf (scope : String) (kinds : List AnomalyKind) : List Finding :=
  kinds.map fun kind => toFinding (Anomaly.new kind).observation
    { analyzer := "filevault-forensic", scope, version := some version }

/-- The kinds of the anomalies of a volume. -/
def kindsOf (info : FileVaultInfo) : List AnomalyKind :=
  [.protectorInventory (protectorSummary info) info.protectors.length] ++
    (info.conversionStatus.toList.map .encryptionState ++
      if info.pbkdf2Iterations < 20000 then [.weakKdfIterations info.pbkdf2Iterations] else [])

theorem auditInfo_eq (info : FileVaultInfo) : auditInfo info = (kindsOf info).map .new := by
  have threshold : weakKdfThreshold = 20000 := rfl
  unfold auditInfo kindsOf
  rw [threshold]
  cases info.conversionStatus with
  | none => by_cases hweak : info.pbkdf2Iterations < 20000 <;> simp [hweak]
  | some status => by_cases hweak : info.pbkdf2Iterations < 20000 <;> simp [hweak]

/-- Over any device the findings are those of the bytes on it, or the error of the device. -/
theorem auditFindings_outcome (reader : Reader) (scope : String) :
    (∃ e, auditFindings crates toFinding version reader scope = fail (.io e) ∧ 0 < reader.faults) ∨
      auditFindings crates toFinding version reader scope =
        (parseInfo crates (.cursor reader.data)).map fun info =>
          findingsOf toFinding version scope (kindsOf info) := by
  rcases parseInfo_outcome crates reader with ⟨e, hfail, faults⟩ | same
  · refine .inl ⟨e, ?_, faults⟩
    rw [auditFindings, audit, hfail]
    rfl
  · right
    rw [auditFindings, audit, same]
    cases parseInfo crates (.cursor reader.data) with
    | error stop => rfl
    | ok info =>
        simp only [ok_bind, pure_run, auditInfo_eq, List.map_map]
        rfl

end

/-- The findings for a built image, on a device that may fail anywhere: one protector with a
password, the conversion state, and a warning exactly if the passphrase is stretched in fewer than
20000 rounds; or the error of the device. -/
theorem auditFindings_buildImage {SubjectRef Finding : Type} {crates : Crates}
    (lawful : crates.Lawful) (toFinding : Observation SubjectRef → ReportSource → Finding)
    (version scope : String) {p : Fixture} (h : p.WellFormed crates) {reader : Reader}
    (hdata : reader.data = p.buildImage crates) :
    (∃ e, auditFindings crates toFinding version reader scope = fail (.io e) ∧ 0 < reader.faults) ∨
      auditFindings crates toFinding version reader scope =
        .ok (findingsOf toFinding version scope
          ([.protectorInventory "password" 1, .encryptionState p.status] ++
            if p.iterations < 20000 then [.weakKdfIterations p.iterations] else [])) := by
  have size : p.lvSize ≠ 0 := by
    intro h0
    have := h.size_pos
    rw [h0] at this
    simp at this
  have healthy := Reader.healthy_cursor (p.buildImage crates)
  have summary := (audit_buildImage lawful h.fits h.toPlaced size healthy rfl).2
  have parsed := Fixture.parseInfo_buildImage lawful h.fits h.toPlaced size healthy rfl
  rcases auditFindings_outcome crates toFinding version reader scope with failed | found
  · exact .inl failed
  · right
    rw [found, hdata, parsed]
    simp only [Except.map, kindsOf, summary]
    rfl

/-- The synthetic image on a device that interrupts and serves short reads, but does not fail; of
a finding the code and the evidence are looked at. -/
theorem auditFindings_synthetic :
    let reader : Reader := ⟨Fixture.synthetic.buildImage standardCrates, 7,
      [.interrupted, .short 100, .short 0, .interrupted, .short 4000], [.ok, .ok]⟩
    let toFinding := fun (seen : Observation Unit) (source : ReportSource) =>
      (source.scope, seen.code, seen.evidence)
    auditFindings standardCrates toFinding "0.1.5" reader "disk0s2" =
      .ok (findingsOf toFinding "0.1.5" "disk0s2"
        ([.protectorInventory "password" 1, .encryptionState Fixture.synthetic.status] ++
          if Fixture.synthetic.iterations < 20000 then
            [.weakKdfIterations Fixture.synthetic.iterations] else [])) := by
  intro reader toFinding
  have sound : reader.faults = 0 := rfl
  rcases auditFindings_buildImage standardCrates_lawful toFinding "0.1.5" "disk0s2"
      Fixture.synthetic_wellFormed
      (show reader.data = Fixture.synthetic.buildImage standardCrates from rfl) with
    ⟨e, -, faults⟩ | found
  · rw [sound] at faults
    exact absurd faults (Nat.lt_irrefl 0)
  · exact found

end FileVault
