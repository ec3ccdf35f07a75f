import OtelMagnify.Push.ErrorText
import Mathlib.Data.Int.Order.Basic

/-! Push status of one history row: `WorkloadConfig` and `HydratePushStatus`.

Times are nanoseconds on one axis; `0` is Go's zero time, for which `IsZero` holds. -/
namespace OtelMagnify.Push

abbrev Time := ℤ

/-- The values the `workload_configs.status` constraint admits, and the `no_status` that
only an instance of a push can have. -/
inductive PushStatus where
  | pending | submitted | sent | applying | applied | failed
  | rollbackStarted | rollbackApplied | rollbackFailed
  | noStatus
  deriving DecidableEq, Repr

def canonicalPushStatus : PushStatus → PushStatus
  | .pending => .submitted
  | s => s

def canonicalInstanceStatus (status : PushStatus) : PushStatus :=
  match canonicalPushStatus status with
  | .submitted | .sent => .sent
  | .applying => .applying
  | .applied => .applied
  | .failed => .failed
  | _ => .noStatus

def isTerminalPushStatus : PushStatus → Bool
  | .applied | .failed | .rollbackApplied | .rollbackFailed => true
  | _ => false

structure WorkloadConfigInstanceStatus where
  instanceUID : String
  podName : String := ""
  node : String := ""
  required : Bool
  status : PushStatus
  configHash : String
  updatedAt : Time
  errorCause : String := ""
  errorMessage : String := ""
  timedOut : Bool := false
  deriving DecidableEq, Repr

structure TimelineEntry where
  state : PushStatus
  at_ : Time
  message : String
  terminal : Bool
  timedOut : Bool
  deriving DecidableEq, Repr

structure ErrorGroup where
  cause : String
  title : String
  severity : String
  count : ℕ
  affectedInstances : List String
  firstSeenAt : Time
  lastSeenAt : Time
  sampleMessage : String
  configHash : String
  retryable : Bool
  deriving DecidableEq, Repr

structure WorkloadConfig where
  workloadID : String
  configID : String
  configHash : String := ""
  appliedAt : Time
  status : PushStatus
  errorMessage : String := ""
  pushedBy : String := ""
  content : String := ""
  label : Option String := none
  pushID : String := ""
  submittedAt : Time := 0
  sentAt : Option Time := none
  opampStatusTimeoutAt : Option Time := none
  timedOutWaitingForOpAMPStatus : Bool := false
  timeoutMessage : String := ""
  rollbackOfPushID : String := ""
  timeline : List TimelineEntry := []
  instanceStatuses : List WorkloadConfigInstanceStatus := []
  targetCount : ℕ := 0
  appliedCount : ℕ := 0
  failedCount : ℕ := 0
  pendingCount : ℕ := 0
  timedOutCount : ℕ := 0
  noStatusCount : ℕ := 0
  errorGroups : List ErrorGroup := []
  deriving DecidableEq, Repr

def opampStatusTimeout : Time := 30 * 1000000000

/-- What the instance loop settles first: canonical status, default hash, inferred cause and
redacted text. -/
def normalizeInstance (configID : String) (inst : WorkloadConfigInstanceStatus) :
    WorkloadConfigInstanceStatus :=
  { inst with
    status := canonicalInstanceStatus inst.status
    timedOut := false
    configHash := if inst.configHash = "" then configID else inst.configHash
    errorCause :=
      if inst.errorMessage ≠ "" ∧ inst.errorCause = "" then
        normalizeRemoteConfigErrorCause "" inst.errorMessage
      else inst.errorCause
    errorMessage := sanitizeRemoteConfigErrorMessage inst.errorMessage }

def expireInstance (inst : WorkloadConfigInstanceStatus) : WorkloadConfigInstanceStatus :=
  { inst with
    status := .noStatus, timedOut := true, errorCause := "apply_timeout"
    errorMessage := opAMPStatusTimeoutMessage }

/-- The body of the instance loop up to its switch; a required instance that has not reported by the
timeout gets the overlay. -/
def hydrateInstance (expired : Bool) (configID : String) (inst : WorkloadConfigInstanceStatus) :
    WorkloadConfigInstanceStatus :=
  let inst := normalizeInstance configID inst
  if expired && inst.required && (inst.status = .sent || inst.status = .noStatus) then
    expireInstance inst
  else inst

structure Tally where
  applied : ℕ := 0
  failed : ℕ := 0
  pending : ℕ := 0
  timedOut : ℕ := 0
  noStatus : ℕ := 0
  hasRemoteStatus : Bool := false
  hasApplyingOrApplied : Bool := false
  allApplied : Bool
  deriving DecidableEq, Repr

/-- The switch of the instance loop. -/
def Tally.add (t : Tally) (inst : WorkloadConfigInstanceStatus) : Tally :=
  let t := { t with timedOut := t.timedOut + inst.timedOut.toNat }
  match inst.status with
  | .applied =>
    { t with applied := t.applied + 1, hasRemoteStatus := true, hasApplyingOrApplied := true }
  | .applying =>
    { t with
      pending := t.pending + 1, allApplied := false
      hasRemoteStatus := true, hasApplyingOrApplied := true }
  | .failed => { t with failed := t.failed + 1, allApplied := false, hasRemoteStatus := true }
  | .noStatus =>
    { t with noStatus := t.noStatus + 1, pending := t.pending + 1, allApplied := false }
  | _ => { t with pending := t.pending + 1, allApplied := false }

def tally (insts : List WorkloadConfigInstanceStatus) : Tally :=
  insts.foldl Tally.add { allApplied := decide (0 < insts.length) }

def aggregateStatus (t : Tally) (targets : ℕ) (sentAt : Option Time) (status : PushStatus) :
    PushStatus :=
  if targets = 0 then status
  else if 0 < t.failed then .failed
  else if t.allApplied then .applied
  else if t.hasApplyingOrApplied then .applying
  else if sentAt.isSome then .sent
  else status

def timelineEntry (state : PushStatus) (at_ : Time) (message : String) (timedOut : Bool) :
    List TimelineEntry :=
  if at_ = 0 then [] else [⟨state, at_, message, isTerminalPushStatus state, timedOut⟩]

def buildTimeline (wc : WorkloadConfig) : List TimelineEntry :=
  let sent := match wc.sentAt with
    | some at_ => timelineEntry .sent at_ "" false
    | none => []
  let timeout := match wc.opampStatusTimeoutAt with
    | some at_ =>
      if wc.timedOutWaitingForOpAMPStatus then
        timelineEntry (if 0 < wc.timedOutCount then .noStatus else wc.status) at_
          opAMPStatusTimeoutMessage true
      else []
    | none => []
  let reports := wc.instanceStatuses.flatMap fun inst =>
    if inst.updatedAt = 0 || inst.status = .sent || inst.status = .noStatus then []
    else timelineEntry inst.status inst.updatedAt inst.errorMessage false
  (timelineEntry .submitted wc.submittedAt "" false ++ sent ++ timeout ++ reports).mergeSort
    fun a b => a.at_ ≤ b.at_

def ErrorGroup.extend (g : ErrorGroup) (inst msg : String) (at_ : Time) : ErrorGroup :=
  { g with
    count := g.count + 1
    affectedInstances :=
      if inst = "" then g.affectedInstances else g.affectedInstances ++ [inst]
    sampleMessage :=
      if g.sampleMessage = "" then sanitizeRemoteConfigErrorMessage msg else g.sampleMessage
    firstSeenAt := if at_ ≠ 0 ∧ (g.firstSeenAt = 0 ∨ at_ < g.firstSeenAt) then at_
      else g.firstSeenAt
    lastSeenAt := if at_ ≠ 0 ∧ (g.lastSeenAt = 0 ∨ g.lastSeenAt < at_) then at_
      else g.lastSeenAt }

def addToErrorGroups (configID : String) (groups : List ErrorGroup)
    (cause inst msg : String) (at_ : Time) : List ErrorGroup :=
  let cause := normalizeRemoteConfigErrorCause cause msg
  if groups.any (·.cause = cause) then
    groups.map fun g => if g.cause = cause then g.extend inst msg at_ else g
  else
    groups ++ [ErrorGroup.extend
      { cause, title := remoteConfigErrorTitle cause, severity := remoteConfigErrorSeverity cause,
        count := 0, affectedInstances := [], firstSeenAt := 0, lastSeenAt := 0,
        sampleMessage := "", configHash := configID,
        retryable := remoteConfigErrorRetryable cause } inst msg at_]

def errorGroupLE (a b : ErrorGroup) : Bool :=
  if severityRank a.severity ≠ severityRank b.severity then
    severityRank a.severity ≤ severityRank b.severity
  else if a.count ≠ b.count then b.count ≤ a.count
  else a.cause ≤ b.cause

/-- The body of the loop over the instances. -/
def addInstanceError (configID : String) (groups : List ErrorGroup)
    (inst : WorkloadConfigInstanceStatus) : List ErrorGroup :=
  if inst.status = .failed || inst.errorCause ≠ "" || inst.errorMessage ≠ "" then
    addToErrorGroups configID groups inst.errorCause inst.instanceUID inst.errorMessage
      inst.updatedAt
  else groups

def buildWorkloadConfigErrorGroups (wc : WorkloadConfig) : List ErrorGroup :=
  let groups := wc.instanceStatuses.foldl (addInstanceError wc.configID) []
  let groups := if wc.errorMessage ≠ "" && groups.isEmpty then
      addToErrorGroups wc.configID groups "" "" wc.errorMessage wc.appliedAt
    else groups
  (groups.map fun g => { g with affectedInstances := g.affectedInstances.mergeSort }).mergeSort
    errorGroupLE

def hydratedAt (clock now : Time) : Time := if now = 0 then clock else now

/-- The part of the hydration that no time decides. -/
def normalizeRow (wc : WorkloadConfig) : WorkloadConfig :=
  let submittedAt := if wc.submittedAt = 0 then wc.appliedAt else wc.submittedAt
  { wc with
    configHash := if wc.configHash = "" then wc.configID else wc.configHash
    status := canonicalPushStatus wc.status
    submittedAt
    opampStatusTimeoutAt := wc.opampStatusTimeoutAt.or
      (if submittedAt = 0 then none else some (submittedAt + opampStatusTimeout))
    errorMessage := sanitizeRemoteConfigErrorMessage wc.errorMessage }

/-- The part that the time decides. -/
def deriveRow (now : Time) (wc : WorkloadConfig) : WorkloadConfig :=
  let expired := wc.opampStatusTimeoutAt.any fun t => t ≤ now
  let insts := wc.instanceStatuses.map (hydrateInstance expired wc.configID)
  let t := tally insts
  let status := aggregateStatus t insts.length wc.sentAt wc.status
  let timedOut := 0 < t.timedOut || (expired && !t.hasRemoteStatus && !isTerminalPushStatus status)
  let wc := { wc with
    status
    instanceStatuses := insts
    targetCount := insts.length
    appliedCount := t.applied, failedCount := t.failed, pendingCount := t.pending
    timedOutCount := t.timedOut, noStatusCount := t.noStatus
    timedOutWaitingForOpAMPStatus := timedOut
    timeoutMessage := if timedOut then opAMPStatusTimeoutMessage else "" }
  { wc with
    timeline := buildTimeline wc
    errorGroups := buildWorkloadConfigErrorGroups wc }

/-- `HydratePushStatus`; `clock` is what `time.Now` returns when `now` is the zero time. -/
def hydratePushStatus (clock now : Time) (wc : WorkloadConfig) : WorkloadConfig :=
  deriveRow (hydratedAt clock now) (normalizeRow wc)

end OtelMagnify.Push
