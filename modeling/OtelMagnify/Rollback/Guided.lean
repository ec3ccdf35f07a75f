import OtelMagnify.Lib.Checks
import OtelMagnify.Rollback.Target
import OtelMagnify.Server.Workload

/-! The guided rollback of an operator: `handlePrepareRollback` shows what a rollback would do
and what stands in its way, `handleRollbackWorkloadConfig` makes the same checks and pushes. The
validator is a parameter. -/
namespace OtelMagnify.Rollback
open Push Server Checks

structure ValidationError where
  code : String
  message : String
  path : String
  deriving DecidableEq, Repr

/-- `Validate` and `ValidateWithRuntime`, the latter at the version of the workload: whether the
config is valid, and the errors. -/
structure Validator where
  validate : String → Option AvailableComponents → List ValidationError
  validateWithRuntime : String → Option AvailableComponents → String → Bool × List ValidationError

inductive FindingSeverity where
  | error | warning
  deriving DecidableEq, Repr

structure RollbackFinding where
  code : String
  severity : FindingSeverity
  message : String
  path : String := ""
  blocking : Bool
  source : String
  deriving DecidableEq, Repr

/-- The `validation` object of a response. Of an unavailable component the error stands here that
reported it. -/
structure RollbackValidation where
  status : String
  valid : Bool
  canConfirm : Bool
  findings : List RollbackFinding
  unavailableComponents : List ValidationError
  deriving DecidableEq, Repr

inductive ErrorDetails where
  | helperText (text : String)
  | targetStatus (status : PushStatus)
  | validation (validation : RollbackValidation)
  deriving DecidableEq, Repr

structure RollbackError where
  status : ℕ
  message : String
  code : String
  retryable : Bool := false
  sideEffect : String := "none"
  details : Option ErrorDetails := none
  deriving DecidableEq, Repr

def knownGoodSource (wc : WorkloadConfig) : String :=
  match wc.label with
  | none => "none"
  | some label =>
    let s := toLower (trimSpace label)
    if s = "known-good" || s = "known_good" || s = "known good" then "label_convention" else "none"

def isKnownGood (wc : WorkloadConfig) : Bool := knownGoodSource wc ≠ "none"

def validationSource (code : String) : String :=
  if code = "component_not_installed" then "capabilities"
  else if code ∈ ["yaml_parse", "empty_config", "missing_service", "missing_pipelines",
      "invalid_pipeline", "missing_pipeline_section", "undefined_component"] then "yaml"
  else "target"

def findingOf (e : ValidationError) : RollbackFinding where
  code := e.code
  severity := .error
  message := e.message
  path := e.path
  blocking := true
  source := validationSource e.code

def notCollectorFinding : RollbackFinding where
  code := "workload_not_collector"
  severity := .error
  message := "Rollback is supported only for collector workloads."
  blocking := true
  source := "remote_config"

def remoteConfigFinding : RollbackFinding where
  code := "remote_config_unsupported"
  severity := .error
  message := "Workload does not accept remote config."
  blocking := true
  source := "remote_config"

def contentFinding : RollbackFinding where
  code := "target_content_unavailable"
  severity := .error
  message := "Rollback target content is unavailable. This revision cannot be used for rollback."
  blocking := true
  source := "target"

def concurrentFinding : RollbackFinding where
  code := "concurrent_config_change"
  severity := .error
  message := "A config change is already pending or applying for this workload."
  blocking := true
  source := "concurrency"

def validationStatus (findings : List RollbackFinding) : String × Bool :=
  if findings.any RollbackFinding.blocking then ("invalid", false)
  else if findings.any (·.severity = .warning) then ("valid_with_warnings", true)
  else ("valid", true)

def buildRollbackValidation (v : Validator) (wl : Workload) (target : WorkloadConfig) :
    RollbackValidation :=
  let errors :=
    if target.content = "" then [] else v.validate target.content wl.availableComponents
  let findings :=
    (if wl.type ≠ .collector then [notCollectorFinding] else []) ++
      (if !wl.acceptsRemoteConfig then [remoteConfigFinding] else []) ++
      (if target.content = "" then [contentFinding] else []) ++ errors.map findingOf
  let (status, valid) := validationStatus findings
  { status, valid, canConfirm := valid, findings
    unavailableComponents := errors.filter (·.code = "component_not_installed") }

def splitRollbackFindings (findings : List RollbackFinding) :
    List RollbackFinding × List RollbackFinding :=
  (findings.filter fun f => !f.blocking && f.severity = .warning,
    findings.filter RollbackFinding.blocking)

def getWorkloadConfigByHash (db : Tables) (now : Time) (workloadID hash : String) :
    Option WorkloadConfig :=
  (latestByHash db.history workloadID hash).map (scanWorkloadConfig (db.content hash) now)

def getLatestPendingOrApplyingWorkloadConfig (db : Tables) (tie : ℕ) (workloadID : String) :
    Option WorkloadConfigRow :=
  db.history.newestAt tie (isPendingOrApplying workloadID) WorkloadConfigRow.appliedAt

/-- What the environment decides while a handler runs: which calls succeed, which row a query
without a total order returns, the clocks, and the answers of the OpAMP server. -/
structure HandlerCalls where
  workloadOk : Bool := true
  targetOk : Bool := true
  pendingOk : Bool := true
  recordOk : Bool := true
  statusOk : Bool := true
  markOk : Bool := true
  auditOk : Bool := true
  pendingTie : ℕ := 0
  scannedAt : Time
  now : Time
  sentAt : Time
  opamp : Option (List PushTarget)
  pushError : Option String := none
  user : Option String := none
  deriving DecidableEq, Repr

structure PrepareRequest where
  workloadID : String
  targetHash : String
  targetSelector : String
  deriving DecidableEq, Repr

structure TargetRef where
  selector : String
  source : String
  targetHash : String
  knownGood : Bool
  knownGoodSource : String
  deriving DecidableEq, Repr

structure RollbackAction where
  canSubmit : Bool
  submitURL : String
  confirmationLabel : String
  blockingReasons : List RollbackFinding
  warnings : List RollbackFinding
  deriving DecidableEq, Repr

/-- The response of `handlePrepareRollback` without its snapshots and its diff. -/
structure Prepared where
  targetRef : TargetRef
  validation : RollbackValidation
  action : RollbackAction
  deriving DecidableEq, Repr

def internalError (message : String) : RollbackError where
  status := 500
  message := message
  code := "internal_error"
  retryable := true

def invalidRequest (message : String) : RollbackError where
  status := 400
  message := message
  code := "invalid_request"

def knownGoodNotFound : RollbackError where
  status := 404
  message := "No known-good config marked for this workload"
  code := "known_good_not_found"
  details := some (.helperText
    ("No known-good config marked yet. " ++
      "Mark a successful revision as known-good from the push history."))

def targetNotFound : RollbackError where
  status := 404
  message := "config not found in this workload's history"
  code := "target_not_found"

def targetNotApplied (status : PushStatus) : RollbackError where
  status := 409
  message := "rollback target must be an applied config"
  code := "target_not_applied"
  details := some (.targetStatus status)

def targetContentUnavailable : RollbackError where
  status := 410
  message := "config content is no longer available"
  code := "target_content_unavailable"

def workloadNotFound : RollbackError where
  status := 404
  message := "workload not found"
  code := "workload_not_found"

def workloadArchived : RollbackError where
  status := 409
  message := "workload is archived"
  code := "workload_archived"

def workloadNotCollector : RollbackError where
  status := 409
  message := "rollback is supported only for collector workloads"
  code := "workload_not_collector"

def remoteConfigUnsupported : RollbackError where
  status := 409
  message := "workload does not accept remote config"
  code := "remote_config_unsupported"

def concurrentConfigChange : RollbackError where
  status := 409
  message := "a config change is already pending or applying for this workload"
  code := "concurrent_config_change"

def opampUnavailable : RollbackError where
  status := 503
  message := "OpAMP server not available"
  code := "opamp_unavailable"
  retryable := true

/-- The refusal of a config that is not valid, from the errors and the validation shown with it. -/
def validationFailed (errors : List ValidationError) (validation : RollbackValidation) :
    RollbackError :=
  let (status, code) :=
    if validation.unavailableComponents ≠ [] then (409, "component_not_installed")
    else if errors.head?.any (·.code = "yaml_parse") then (400, "target_yaml_invalid")
    else (400, "validation_failed")
  { status, message := "configuration failed validation", code
    details := some (.validation validation) }

/-- A target with the `source` and the `known_good_source` of the response. -/
structure ResolvedTarget where
  config : WorkloadConfig
  source : String
  knownGoodSource : String
  deriving DecidableEq, Repr

/-- `resolveRollbackTarget`, and what is answered without a target. -/
def resolveRollbackTarget (db : Tables) (c : HandlerCalls) (workloadID hash selector : String) :
    Except RollbackError ResolvedTarget := do
  if !c.targetOk then throw (internalError "failed to resolve rollback target")
  let byHash := getWorkloadConfigByHash db c.scannedAt workloadID
  if selector = "known_good" then
    let wc ← require ((db.knownGood workloadID).bind byHash) knownGoodNotFound
    return ⟨wc, "latest_known_good", "first_class_marker"⟩
  else
    let wc ← require (byHash hash) targetNotFound
    return ⟨wc, "push_history_row", knownGoodSource wc⟩

/-- The response to a prepared rollback, once the findings and a concurrent change are known. -/
def prepared (workloadID selector : String) (target : ResolvedTarget)
    (validation : RollbackValidation) (concurrent : Bool) : Prepared :=
  let found := splitRollbackFindings validation.findings
  let more := if concurrent then [concurrentFinding] else []
  let blockers := found.2 ++ more
  { targetRef :=
      { selector := if selector = "known_good" then "known_good" else "hash"
        source := target.source
        targetHash := target.config.configID
        knownGood := selector = "known_good" || isKnownGood target.config
        knownGoodSource := target.knownGoodSource }
    validation :=
      if blockers = [] then validation
      else
        { validation with
          status := "invalid", valid := false, canConfirm := false
          findings := validation.findings ++ more }
    action :=
      { canSubmit := blockers = []
        submitURL := "/api/workloads/" ++ workloadID ++ "/configs/" ++ target.config.configID ++
          "/rollback"
        confirmationLabel :=
          if found.1 = [] then "Confirm rollback" else "Confirm rollback with warnings"
        blockingReasons := blockers
        warnings := found.1 } }

def handlePrepareRollback (v : Validator) (db : Tables) (workloads : Workloads)
    (req : PrepareRequest) (c : HandlerCalls) : Except RollbackError Prepared := do
  let hash := trimSpace req.targetHash
  let selector := trimSpace req.targetSelector
  if hash = "" ↔ selector = "" then
    throw (invalidRequest "exactly one of target_hash or target_selector is required")
  if selector ≠ "" ∧ selector ≠ "known_good" then
    throw (invalidRequest "unsupported rollback target selector")
  -- any error of the lookup is answered as a missing workload
  let wl ← require (if c.workloadOk then workloads req.workloadID else none) workloadNotFound
  let target ← resolveRollbackTarget db c req.workloadID hash selector
  if wl.archivedAt.isSome then throw workloadArchived
  if target.config.status ≠ .applied then throw (targetNotApplied target.config.status)
  -- an error of the query counts as no concurrent change
  let concurrent := c.pendingOk &&
    (getLatestPendingOrApplyingWorkloadConfig db c.pendingTie req.workloadID).isSome
  return prepared req.workloadID selector target
    (buildRollbackValidation v wl target.config) concurrent

/-- The checks of `handleRollbackWorkloadConfig`: the instances to push to. -/
def checkRollback (v : Validator) (db : Tables) (workloads : Workloads) (workloadID hash : String)
    (c : HandlerCalls) : Except RollbackError (List PushTarget) := do
  let instances ← require c.opamp opampUnavailable
  if !c.targetOk then throw (internalError "failed to load past config")
  let wc ← require (getWorkloadConfigByHash db c.scannedAt workloadID hash) targetNotFound
  if wc.status ≠ .applied then throw (targetNotApplied wc.status)
  if wc.content = "" then throw targetContentUnavailable
  if !c.workloadOk then throw (internalError "failed to load workload")
  let wl ← require (workloads workloadID) workloadNotFound
  if wl.archivedAt.isSome then throw workloadArchived
  if wl.type ≠ .collector then throw workloadNotCollector
  if !wl.acceptsRemoteConfig then throw remoteConfigUnsupported
  if !c.pendingOk then throw (internalError "failed to check pending config changes")
  if (getLatestPendingOrApplyingWorkloadConfig db c.pendingTie workloadID).isSome then
    throw concurrentConfigChange
  let result := v.validateWithRuntime wc.content wl.availableComponents wl.version
  if !result.1 then throw (validationFailed result.2 (buildRollbackValidation v wl wc))
  return instances

/-- The answer to a submitted rollback; an accepted one is answered with its push. -/
inductive SubmitResponse where
  | accepted (p : ConfigPush)
  | refused (e : RollbackError)
  | auditUnavailable
  deriving DecidableEq, Repr

/-- The history that a request leaves, and its answer. -/
structure Submitted where
  history : WorkloadConfigs
  response : SubmitResponse

def handleRollbackWorkloadConfig (v : Validator) (db : Tables) (workloads : Workloads)
    (workloadID hash : String) (c : HandlerCalls) : Submitted :=
  match checkRollback v db workloads workloadID hash c with
  | .error e => ⟨db.history, .refused e⟩
  | .ok instances =>
    let p : ConfigPush :=
      { workloadID, configID := hash, kind := .operator (c.user.getD "")
        submittedAt := c.now, targets := instances }
    match if c.recordOk then recordWorkloadConfig db.history c.now p.workloadConfig else none with
    | none =>
      ⟨db.history, .refused
        { status := 500, message := "failed to record push", code := "record_push_failed"
          retryable := true }⟩
    | some history =>
      match c.pushError with
      | some text =>
        let message := sanitizeRemoteConfigErrorMessage text
        ⟨if c.statusOk then updateWorkloadConfigStatus history workloadID hash .failed message
          else history,
          .refused
            { status := 502, message, code := "push_failed", retryable := true
              sideEffect := "applied" }⟩
      | none =>
        ⟨if c.markOk then markWorkloadConfigSent history workloadID hash c.sentAt else history,
          if c.auditOk then .accepted p else .auditUnavailable⟩

end OtelMagnify.Rollback
