import OtelMagnify.Lib.GoString
import OtelMagnify.Lib.Sha256
import OtelMagnify.Push.Hydrate
import OtelMagnify.Reports.Redact

/-! Evidence packs (`internal/reports/service.go`): the workloads of a requested scope, and ten
sections about them that are read from the store. -/
namespace OtelMagnify.Reports
open Push (Time trimSpace)

/-- A row of `workloads`, without the columns that no section reads. -/
structure Workload where
  id : String
  displayName : String
  type : String
  version : String
  status : String
  lastSeenAt : Time
  labels : List (String × String)
  fingerprintKeys : List (String × String)
  activeConfigHash : String
  /-- The config hash of the remote config status. -/
  remoteConfigHash : Option String
  acceptsRemoteConfig : Bool
  archivedAt : Option Time
  deriving DecidableEq, Repr

/-- A row of `workload_configs`, joined with its content, as `scanWorkloadConfig` returns it. The
stored status is kept beside the one that `HydratePushStatus` derives. -/
structure WorkloadConfig where
  workloadID : String
  configID : String
  configHash : String
  appliedAt : Time
  storedStatus : String
  status : String
  errorMessage : String
  pushedBy : String
  content : String
  contentAvailable : Bool := false
  label : Option String
  pushID : String
  rollbackOfPushID : String
  instanceStatusCount : ℕ
  targetCount : ℕ
  appliedCount : ℕ
  failedCount : ℕ
  pendingCount : ℕ
  timedOutCount : ℕ
  noStatusCount : ℕ
  deriving DecidableEq, Repr

structure Alert where
  id : String
  workloadID : String
  rule : String
  severity : String
  message : String
  firedAt : Time
  resolvedAt : Option Time
  deriving DecidableEq, Repr

structure WorkloadEvent where
  id : ℤ
  workloadID : String
  instanceUID : String
  podName : String
  eventType : String
  version : String
  prevVersion : String
  occurredAt : Time
  deriving DecidableEq, Repr

structure RollbackTarget where
  kind : String
  config : WorkloadConfig
  deriving DecidableEq, Repr

inductive Query where
  | getWorkload (id : String)
  | listWorkloads
  | getWorkloadConfigHistory (workloadID : String)
  | getLatestWorkloadConfig (workloadID : String)
  | listAlerts
  | listWorkloadEvents (workloadID : String)
  | getRollbackTarget (workloadID excludeHash : String)
  deriving DecidableEq, Repr

structure Store where
  workloads : List Workload := []
  history : List WorkloadConfig := []
  knownGood : String → Option String := fun _ => none
  alerts : List Alert := []
  events : List WorkloadEvent := []
  fails : Query → Bool := fun _ => false

/-- What the source leaves to its environment: `sort.Slice`, the order in which the database
returns rows that are equal in `ORDER BY`, and `unicode.ToLower`. -/
structure Environment where
  sortSlice : SortSlice
  orderBy : SortSlice
  caseTable : CaseTable

namespace Store

variable (env : Environment) (s : Store)

def query {α : Type} (q : Query) (result : α) : Option α :=
  if s.fails q then none else some result

/-- `ListWorkloads(false)` -/
def listWorkloads : List Workload :=
  env.orderBy.sort (fun a b => a.displayName < b.displayName)
    (s.workloads.filter (·.archivedAt.isNone))

def ofWorkload (workloadID : String) : List WorkloadConfig :=
  env.orderBy.sort (fun a b => b.appliedAt < a.appliedAt)
    (s.history.filter (·.workloadID = workloadID))

def getWorkloadConfigHistory (workloadID : String) : List WorkloadConfig :=
  (s.ofWorkload env workloadID).map fun c =>
    { c with content := "", contentAvailable := c.content ≠ "" }

def getLatestWorkloadConfig (workloadID : String) : Option WorkloadConfig :=
  (s.ofWorkload env workloadID).head?.map fun c => { c with contentAvailable := false }

/-- `ListAlerts(false)` -/
def listAlerts : List Alert :=
  env.orderBy.sort (fun a b => b.firedAt < a.firedAt) (s.alerts.filter (·.resolvedAt.isNone))

def listWorkloadEvents (workloadID : String) (limit : ℕ) (since : Time) : List WorkloadEvent :=
  let rows := s.events.filter fun e =>
    e.workloadID = workloadID && (since = 0 || since < e.occurredAt)
  (env.orderBy.sort (fun a b => b.occurredAt < a.occurredAt ||
    (a.occurredAt = b.occurredAt && b.id < a.id)) rows).take limit

def getRollbackTarget (workloadID excludeHash : String) : Option RollbackTarget :=
  let newest (p : WorkloadConfig → Bool) := ((s.ofWorkload env workloadID).filter p).head?
  match (s.knownGood workloadID).bind fun configID => newest (·.configID = configID) with
  | some kg =>
    if kg.configID = excludeHash then none
    else some ⟨"last_known_good", { kg with contentAvailable := kg.content ≠ "" }⟩
  | none =>
    (newest fun c => c.storedStatus = "applied" && c.configID ≠ excludeHash).map fun c =>
      ⟨"previous", { c with configHash := "", contentAvailable := c.content ≠ "" }⟩

end Store

structure ReportScope where
  workloadIDs : List String := []
  groupID : String := ""
  selector : List (String × String) := []
  since : Option Time := none
  until_ : Option Time := none
  deriving DecidableEq, Repr

structure ReportIncludeOptions where
  workloadSummary : Bool := false
  configHistory : Bool := false
  currentConfig : Bool := false
  configPlan : Bool := false
  driftFindings : Bool := false
  versionIntelligence : Bool := false
  alerts : Bool := false
  workloadEvents : Bool := false
  rollbackReadiness : Bool := false
  auditVerification : Bool := false
  signedAuditMetadata : Bool := false
  deriving DecidableEq, Repr

structure ReportExportRequest where
  schemaVersion : String := ""
  reportType : String := ""
  scope : ReportScope
  include_ : ReportIncludeOptions := {}
  redaction : String := ""
  deriving DecidableEq, Repr

inductive BuildError where
  | invalidRequest (message : String)
  | workloadNotFound
  | store (q : Query)
  deriving DecidableEq, Repr

def normalizeRequest (req : ReportExportRequest) : Except BuildError ReportExportRequest := do
  let req := if req.schemaVersion = "" then
    { req with schemaVersion := "report_export_request.v1" } else req
  let req := if req.reportType = "" then { req with reportType := "evidence_pack" } else req
  let req := if req.redaction = "" then { req with redaction := "strict" } else req
  if req.schemaVersion ≠ "report_export_request.v1" then
    throw (.invalidRequest "unsupported schema_version")
  if req.reportType ≠ "evidence_pack" then throw (.invalidRequest "unsupported report_type")
  if req.redaction ≠ "strict" then throw (.invalidRequest "unsupported redaction mode")
  let given := [!req.scope.workloadIDs.isEmpty, decide (trimSpace req.scope.groupID ≠ ""),
    !req.scope.selector.isEmpty]
  if given.countP id ≠ 1 then
    throw (.invalidRequest
      "invalid scope: exactly one of workload_ids, group_id, selector is required")
  if (req.scope.since.any fun since => req.scope.until_.any fun t => t < since) then
    throw (.invalidRequest "invalid time range")
  if req.include_ = {} then
    return { req with include_ :=
      { workloadSummary := true, configHistory := true, currentConfig := true, configPlan := true
        driftFindings := true, versionIntelligence := true, alerts := true
        workloadEvents := true, rollbackReadiness := true, auditVerification := true } }
  else return req

def valueOf (m : List (String × String)) (k : String) : String := (m.lookup k).getD ""

def matchesScope (wl : Workload) (scope : ReportScope) : Bool :=
  !(scope.groupID ≠ "" && valueOf wl.labels "group" ≠ scope.groupID) &&
    scope.selector.all fun l => valueOf wl.labels l.1 = l.2 || valueOf wl.fingerprintKeys l.1 = l.2

/-- The loop of `resolveWorkloads` over the requested ids; `seen` are those looked up. -/
def lookupWorkloads (s : Store) (seen : List String) :
    List String → Except BuildError (List Workload)
  | [] => .ok []
  | id :: ids =>
    let id := trimSpace id
    if id = "" ∨ id ∈ seen then lookupWorkloads s seen ids
    else if s.fails (.getWorkload id) then .error (.store (.getWorkload id))
    else
      match s.workloads.find? (·.id = id) with
      | none => .error .workloadNotFound
      | some wl => do
        let rest ← lookupWorkloads s (id :: seen) ids
        return if wl.archivedAt.isNone then wl :: rest else rest

section Service

variable (env : Environment) (s : Store)

def lowered (t : String) : String := String.ofList (t.toList.map env.caseTable.lower)

def resolveWorkloads (scope : ReportScope) : Except BuildError (List Workload) := do
  let out ←
    if scope.workloadIDs ≠ [] then lookupWorkloads s [] scope.workloadIDs
    else if s.fails .listWorkloads then throw (.store .listWorkloads)
    else pure ((s.listWorkloads env).filter (matchesScope · scope))
  return env.sortSlice.sort (fun a b =>
    lowered env a.displayName < lowered env b.displayName ||
      (lowered env a.displayName = lowered env b.displayName && a.id < b.id)) out

/-- The arguments of `item`. -/
structure Evidence where
  kind : String
  id : String
  resource : String
  resourceID : String
  observedAt : Option Time := none
  severity : String := ""
  summary : String
  facts : Facts
  contentHash : String := ""
  redacted : Bool := true
  deriving DecidableEq, Repr

structure EvidenceItem where
  id : String
  resource : String
  resourceID : String
  observedAt : Option Time
  severity : String
  summary : String
  facts : Facts
  contentHash : String
  redacted : Bool
  deriving DecidableEq, Repr

def item (e : Evidence) : EvidenceItem where
  id := e.kind ++ ":" ++ e.id
  resource := e.resource
  resourceID := e.resourceID
  observedAt := e.observedAt
  severity := e.severity
  summary := redactString e.summary
  facts := redactFacts e.facts
  contentHash := e.contentHash
  redacted := e.redacted

def trustedLabels (labels : List (String × String)) : List (String × String) :=
  (labels.filter fun l => "otel.magnify/selector.".toList.isPrefixOf l.1.toList).map fun l =>
    (l.1, redactString l.2)

def labelValue (label : Option String) : String := (label.map redactString).getD ""

def nonempty (v d : String) : String := if trimSpace v = "" then d else v

def contentHash (content : String) : String :=
  if content = "" then "" else Sha256.hexSum256 content

/-- What each section is about, before redaction: its id, title and order, and the arguments of
its items. -/
structure Findings where
  id : String
  title : String
  order : ℕ
  items : List Evidence

def workloadSection (workloads : List Workload) : Findings where
  id := "workloads"
  title := "Workloads"
  order := 10
  items := workloads.map fun wl =>
    { kind := "workload", id := wl.id, resource := "workload", resourceID := wl.id
      observedAt := some wl.lastSeenAt
      summary := wl.displayName ++ " (" ++ wl.type ++ ") is " ++ wl.status
      facts :=
        [("display_name", .text wl.displayName), ("type", .text wl.type),
          ("version", .text wl.version), ("status", .text wl.status),
          ("accepts_remote_config", .flag wl.acceptsRemoteConfig),
          ("active_config_hash", .text wl.activeConfigHash),
          ("labels", .labels (trustedLabels wl.labels))] }

def configEvidence (wl : Workload) (c : WorkloadConfig) : Evidence where
  kind := "config"
  id := wl.id ++ ":" ++ c.configID ++ ":" ++ c.pushID
  resource := "config"
  resourceID := c.configID
  observedAt := some c.appliedAt
  severity := c.status
  summary := "config " ++ c.configID ++ " " ++ c.status
  facts :=
    [("workload_id", .text wl.id), ("config_id", .text c.configID), ("status", .text c.status),
      ("pushed_by", .text (redactValue c.pushedBy)), ("label", .text (labelValue c.label)),
      ("target_count", .number c.targetCount), ("applied_count", .number c.appliedCount),
      ("failed_count", .number c.failedCount),
      ("content_available", .flag (c.content ≠ "" || c.contentAvailable)),
      ("error_message", .text (redactString c.errorMessage))]
  contentHash := contentHash c.content

def reportedHistory (wl : Workload) : List WorkloadConfig :=
  (s.query (.getWorkloadConfigHistory wl.id) (s.getWorkloadConfigHistory env wl.id)).getD []

def configHistorySection (workloads : List Workload) : Findings where
  id := "config_history"
  title := "Config history"
  order := 20
  items := workloads.flatMap fun wl =>
    (env.sortSlice.sort (fun a b => b.appliedAt < a.appliedAt ||
      (a.appliedAt = b.appliedAt && (a.configID < b.configID ||
        (a.configID = b.configID && a.pushID < b.pushID)))) (reportedHistory env s wl)).map
      (configEvidence wl)

def latestConfig (wl : Workload) : Option WorkloadConfig :=
  (s.query (.getLatestWorkloadConfig wl.id) (s.getLatestWorkloadConfig env wl.id)).join

def currentEvidence (wl : Workload) (cfg : WorkloadConfig) : Evidence where
  kind := "current_config"
  id := wl.id ++ ":" ++ cfg.configID ++ ":" ++ cfg.pushID
  resource := "config"
  resourceID := cfg.configID
  observedAt := some cfg.appliedAt
  severity := cfg.status
  summary := "current config " ++ cfg.configID ++ " " ++ cfg.status
  facts :=
    [("workload_id", .text wl.id), ("config_id", .text cfg.configID),
      ("config_hash", .text cfg.configHash), ("status", .text cfg.status),
      ("target_count", .number cfg.targetCount), ("applied_count", .number cfg.appliedCount),
      ("failed_count", .number cfg.failedCount), ("pending_count", .number cfg.pendingCount),
      ("timed_out_count", .number cfg.timedOutCount),
      ("no_status_count", .number cfg.noStatusCount),
      ("content_available", .flag (cfg.content ≠ "" || cfg.contentAvailable)),
      ("error_message", .text (redactString cfg.errorMessage)),
      ("rollback_of_push_id", .text cfg.rollbackOfPushID),
      ("instance_status_count", .number cfg.instanceStatusCount)]
  contentHash := contentHash cfg.content

def currentConfigSection (workloads : List Workload) : Findings where
  id := "current_config"
  title := "Current config"
  order := 25
  items := workloads.flatMap fun wl => (latestConfig env s wl).toList.map (currentEvidence wl)

def driftStatus (wl : Workload) : String :=
  match wl.remoteConfigHash with
  | none => "unknown"
  | some hash =>
    if wl.activeConfigHash ≠ "" && hash ≠ "" && wl.activeConfigHash ≠ hash then "drifted"
    else "in_sync"

def driftSection (workloads : List Workload) : Findings where
  id := "drift"
  title := "Drift state"
  order := 30
  items := workloads.map fun wl =>
    { kind := "drift", id := wl.id, resource := "workload", resourceID := wl.id
      summary := "drift state for " ++ wl.displayName
      facts :=
        [("expected_config_hash", .text wl.activeConfigHash),
          ("effective_config_hash", .text (wl.remoteConfigHash.getD "")),
          ("drift_status", .text (driftStatus wl))] }

def versionSection (workloads : List Workload) : Findings where
  id := "version_intelligence"
  title := "Version intelligence"
  order := 40
  items := workloads.map fun wl =>
    { kind := "version", id := wl.id, resource := "workload", resourceID := wl.id
      severity := if trimSpace wl.version = "" then "warning" else ""
      summary := "collector version " ++ nonempty wl.version "unknown"
      facts := [("version", .text wl.version), ("type", .text wl.type)] }

def alertEvidence (a : Alert) : Evidence where
  kind := "alert"
  id := a.id
  resource := "alert"
  resourceID := a.id
  observedAt := some a.firedAt
  severity := a.severity
  summary := redactString a.message
  facts := [("workload_id", .text a.workloadID), ("rule", .text a.rule),
    ("resolved", .flag a.resolvedAt.isSome)]

def alertSection : Findings where
  id := "alerts"
  title := "Alerts"
  order := 50
  items := (env.sortSlice.sort (fun a b => b.firedAt < a.firedAt ||
    (a.firedAt = b.firedAt && a.id < b.id))
    ((s.query .listAlerts (s.listAlerts env)).getD [])).map alertEvidence

def eventEvidence (e : WorkloadEvent) : Evidence where
  kind := "event"
  id := toString e.id
  resource := "event"
  resourceID := toString e.id
  observedAt := some e.occurredAt
  summary := e.eventType
  facts := [("workload_id", .text e.workloadID), ("instance_uid", .text e.instanceUID),
    ("pod_name", .text e.podName), ("version", .text e.version),
    ("prev_version", .text e.prevVersion)]

def reportedEvents (since : Option Time) (wl : Workload) : List WorkloadEvent :=
  (s.query (.listWorkloadEvents wl.id) (s.listWorkloadEvents env wl.id 500 (since.getD 0))).getD []

def eventsSection (workloads : List Workload) (since : Option Time) : Findings where
  id := "workload_events"
  title := "Workload events"
  order := 60
  items := workloads.flatMap fun wl =>
    (env.sortSlice.sort (fun a b => b.occurredAt < a.occurredAt ||
      (a.occurredAt = b.occurredAt && a.id < b.id)) (reportedEvents env s since wl)).map
      eventEvidence

def rollbackEvidence (wl : Workload) : Evidence :=
  let currentHash :=
    if wl.activeConfigHash ≠ "" then wl.activeConfigHash
    else ((latestConfig env s wl).map (·.configID)).getD wl.activeConfigHash
  match (s.query (.getRollbackTarget wl.id currentHash)
      (s.getRollbackTarget env wl.id currentHash)).join with
  | none =>
    { kind := "rollback", id := wl.id, resource := "config", resourceID := wl.id
      severity := "warning"
      summary := "no rollback target available for " ++ wl.displayName
      facts := [("workload_id", .text wl.id), ("ready", .flag false),
        ("current_config_hash", .text currentHash)] }
  | some target =>
    { kind := "rollback", id := wl.id, resource := "config", resourceID := target.config.configID
      observedAt := some target.config.appliedAt
      summary := "rollback target " ++ target.config.configID ++ " (" ++ target.kind ++ ")"
      facts :=
        [("workload_id", .text wl.id), ("ready", .flag true),
          ("current_config_hash", .text currentHash), ("target_kind", .text target.kind),
          ("target_config_id", .text target.config.configID),
          ("target_config_hash", .text target.config.configHash),
          ("content_available",
            .flag (target.config.content ≠ "" || target.config.contentAvailable))] }

def rollbackReadinessSection (workloads : List Workload) : Findings where
  id := "rollback_readiness"
  title := "Rollback readiness"
  order := 70
  items := workloads.map (rollbackEvidence env s)

def auditVerificationSection : Findings where
  id := "audit_verification"
  title := "Audit verification"
  order := 80
  items :=
    [{ kind := "audit_verification", id := "community-hook", resource := "audit"
       resourceID := "community-hook", severity := "info"
       summary := "audit event export is available through the enterprise verifier " ++
         "hook; community store does not persist queryable audit events"
       facts := [("verifier_hook", .text "ext.ReportSigner.VerifyReport"),
         ("community_audit_events_persisted", .flag false)] }]

/-- The sections that the request includes. -/
def findings (req : ReportExportRequest) (workloads : List Workload) : List Findings :=
  (if req.include_.workloadSummary then [workloadSection workloads] else []) ++
  (if req.include_.configHistory then [configHistorySection env s workloads] else []) ++
  (if req.include_.currentConfig then [currentConfigSection env s workloads] else []) ++
  (if req.include_.driftFindings then [driftSection workloads] else []) ++
  (if req.include_.versionIntelligence then [versionSection workloads] else []) ++
  (if req.include_.alerts then [alertSection env s] else []) ++
  (if req.include_.workloadEvents then [eventsSection env s workloads req.scope.since] else []) ++
  (if req.include_.rollbackReadiness then [rollbackReadinessSection env s workloads] else []) ++
  (if req.include_.auditVerification then [auditVerificationSection] else [])

structure EvidenceSection where
  id : String
  title : String
  order : ℕ
  items : List EvidenceItem
  deriving DecidableEq, Repr

def Findings.toSection (f : Findings) : EvidenceSection where
  id := f.id
  title := f.title
  order := f.order
  items := f.items.map item

structure ReportWarning where
  code : String
  message : String
  deriving DecidableEq, Repr

/-- A pack without its hashes and signatures. -/
structure EvidencePack where
  generatedAt : Time
  workloadIDs : List String
  scope : ReportScope
  sections : List EvidenceSection
  warnings : List ReportWarning
  deriving DecidableEq, Repr

/-- `BuildEvidencePack` up to the hashes and signatures. -/
def buildEvidencePack (now : Time) (req : ReportExportRequest) :
    Except BuildError EvidencePack := do
  let req ← normalizeRequest req
  let workloads ← resolveWorkloads env s req.scope
  return {
    generatedAt := now
    workloadIDs := workloads.map (·.id)
    scope := req.scope
    sections := env.sortSlice.sort (fun a b => a.order < b.order)
      ((findings env s req workloads).map Findings.toSection)
    warnings := if req.include_.configPlan then
      [⟨"config_plan_not_persisted", "Config application plans are request-time previews; no " ++
        "persisted candidate plan is available for this evidence pack."⟩] else [] }

end Service

end OtelMagnify.Reports
