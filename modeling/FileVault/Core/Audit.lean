import FileVault.Core.FileVaultVolume

/-!
# The auditor (`forensic/src/lib.rs`)

What the metadata shows without the password, classified: which protectors there are, the
conversion state, and an iteration count that is notably low. The severity, the code and the
note of an anomaly come from its kind.
-/

namespace FileVault

/-- The `Severity` of the reports, as far as the auditor's kinds have one. -/
inductive Severity
  | info
  | medium
  deriving DecidableEq, Repr

/-- The `Category` of the reports, as far as the auditor's kinds have one. -/
inductive Category
  | provenance
  | structural
  | integrity
  deriving DecidableEq, Repr

/-- `Evidence`: a field and its value; the auditor gives no location. -/
structure Evidence where
  field : String
  value : String
  deriving DecidableEq, Repr

/-- PBKDF2 iteration counts below this are flagged. -/
def weakKdfThreshold : UInt32 := 20000

/-- `AnomalyKind`. -/
inductive AnomalyKind
  | protectorInventory (summary : String) (count : Nat)
  | encryptionState (status : String)
  | weakKdfIterations (iterations : UInt32)
  deriving DecidableEq, Repr

namespace AnomalyKind

/-- `AnomalyKind::severity`. -/
def severity : AnomalyKind → Severity
  | protectorInventory .. | encryptionState .. => .info
  | weakKdfIterations .. => .medium

/-- `AnomalyKind::code`. -/
def code : AnomalyKind → String
  | protectorInventory .. => "FVDE-PROTECTOR-INVENTORY"
  | encryptionState .. => "FVDE-ENCRYPTION-STATE"
  | weakKdfIterations .. => "FVDE-WEAK-KDF-ITERATIONS"

/-- `AnomalyKind::category`. -/
def category : AnomalyKind → Category
  | protectorInventory .. => .provenance
  | encryptionState .. => .structural
  | weakKdfIterations .. => .integrity

/-- `AnomalyKind::note`. -/
def note : AnomalyKind → String
  | protectorInventory summary count =>
      s!"{count} protector(s) present in the encryption context: {summary}"
  | encryptionState status =>
      s!"logical volume conversion status is \"{status}\" " ++
        "(Complete = fully encrypted; Converting/Pending = in progress)"
  | weakKdfIterations iterations =>
      s!"PBKDF2 iteration count is {iterations}, below the {weakKdfThreshold} " ++
        "threshold; consistent with weakened password key-stretching"

/-- `AnomalyKind::evidence`. -/
def evidence : AnomalyKind → List Evidence
  | protectorInventory summary count =>
      [{ field := "protectors", value := summary }, { field := "count", value := toString count }]
  | encryptionState status => [{ field := "conversion_status", value := status }]
  | weakKdfIterations iterations =>
      [{ field := "pbkdf2_iterations", value := toString iterations }]

/-- `AnomalyKind::mitre`. -/
def mitre (_kind : AnomalyKind) : List String := []

/-- `AnomalyKind::subjects`: no kind names a part of the volume. -/
def subjects {SubjectRef : Type} (_kind : AnomalyKind) : List SubjectRef := []

end AnomalyKind

/-- `Anomaly`. -/
structure Anomaly where
  severity : Severity
  code : String
  kind : AnomalyKind
  note : String
  deriving DecidableEq, Repr

/-- `Anomaly::new`. -/
def Anomaly.new (kind : AnomalyKind) : Anomaly where
  severity := kind.severity
  code := kind.code
  kind := kind
  note := kind.note

/-- `protector_summary`. -/
def protectorSummary (info : FileVaultInfo) : String :=
  if info.protectors = [] then "none"
  else ", ".intercalate ((info.protectors.map (·.kind.label)).mergeSort (· ≤ ·))

/-- `audit_info`. -/
def auditInfo (info : FileVaultInfo) : List Anomaly :=
  [.new (.protectorInventory (protectorSummary info) info.protectors.length)] ++
    (match info.conversionStatus with
      | some status => [.new (.encryptionState status)]
      | none => []) ++
    if info.pbkdf2Iterations < weakKdfThreshold then
      [.new (.weakKdfIterations info.pbkdf2Iterations)]
    else []

/-- The fields of an anomaly are those of its kind, and no code is reported twice. -/
theorem auditInfo_derived (info : FileVaultInfo) :
    (∀ anomaly ∈ auditInfo info, anomaly = .new anomaly.kind) ∧
      ((auditInfo info).map (·.code)).Nodup := by
  unfold auditInfo
  cases info.conversionStatus with
  | none =>
      by_cases hweak : info.pbkdf2Iterations < weakKdfThreshold
      · simp [hweak, Anomaly.new, AnomalyKind.code]
      · simp [hweak, Anomaly.new]
  | some status =>
      by_cases hweak : info.pbkdf2Iterations < weakKdfThreshold
      · simp [hweak, Anomaly.new, AnomalyKind.code]
      · simp [hweak, Anomaly.new, AnomalyKind.code]

/-- `audit`. -/
def audit (crates : Crates) (reader : Reader) : Run (List Anomaly) := do
  let info ← parseInfo crates reader
  return auditInfo info

/-- `audit_path`, over what the file opens to. -/
def auditPath (crates : Crates) (openFile : String → Except IoError Reader) (path : String) :
    Run (List Anomaly) :=
  match openFile path with
  | .error e => fail (.io e)
  | .ok file => audit crates file

/-! ## Findings

What makes a report of an anomaly is a method of the `Observation` trait, which comes from outside:
it sees what the trait shows of the anomaly, and the source. -/

/-- The name of the analyzer. -/
def analyzer : String := "filevault-forensic"

/-- `Source`: who reports, and on what. -/
structure ReportSource where
  analyzer : String
  scope : String
  version : Option String
  deriving DecidableEq, Repr

/-- `Observation`, as its methods. -/
structure Observation (SubjectRef : Type) where
  severity : Option Severity
  code : String
  note : String
  category : Category
  subjects : List SubjectRef
  evidence : List Evidence
  mitre : List String

/-- `impl Observation for Anomaly`. -/
def Anomaly.observation {SubjectRef : Type} (anomaly : Anomaly) : Observation SubjectRef where
  severity := some anomaly.severity
  code := anomaly.code
  note := anomaly.note
  category := anomaly.kind.category
  subjects := anomaly.kind.subjects
  evidence := anomaly.kind.evidence
  mitre := anomaly.kind.mitre

/-- `audit_findings`, with the version of the package. -/
def auditFindings {SubjectRef Finding : Type} (crates : Crates)
    (toFinding : Observation SubjectRef → ReportSource → Finding) (version : String)
    (reader : Reader) (scope : String) : Run (List Finding) := do
  let source : ReportSource := { analyzer, scope, version := some version }
  let anomalies ← audit crates reader
  return anomalies.map fun anomaly => toFinding anomaly.observation source

end FileVault
