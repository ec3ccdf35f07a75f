import OtelMagnify.Lib.KeyedTable
import OtelMagnify.Push.Hydrate

/-! The `workload_configs` table and the statements of `internal/store/workload_configs.go`
that write a row's status. Every statement is atomic. `NULL` texts are read through
`COALESCE(_, '')` and written through `nullIfEmpty`, so they are the empty string here. -/
namespace OtelMagnify.Push

structure WorkloadConfigRow where
  workloadID : String
  configID : String
  appliedAt : Time
  status : PushStatus
  errorMessage : String := ""
  pushedBy : String := ""
  label : Option String := none
  pushID : String := ""
  submittedAt : Option Time := none
  sentAt : Option Time := none
  opampStatusTimeoutAt : Option Time := none
  rollbackOfPushID : String := ""
  instanceStatuses : List WorkloadConfigInstanceStatus := []
  deriving DecidableEq, Repr

def WorkloadConfigRow.key (r : WorkloadConfigRow) : String × String × Time :=
  (r.workloadID, r.configID, r.appliedAt)

abbrev WorkloadConfigs := KeyedTable WorkloadConfigRow.key

/-- `workload_id = ? AND config_id = ?`. -/
def isPushOf (workloadID configID : String) (r : WorkloadConfigRow) : Bool :=
  r.workloadID = workloadID && r.configID = configID

theorem isPushOf_of_key_eq {r q : WorkloadConfigRow} (h : r.key = q.key)
    (workloadID configID : String) :
    isPushOf workloadID configID r = isPushOf workloadID configID q := by
  have hw : r.workloadID = q.workloadID := congrArg Prod.fst h
  have hc : r.configID = q.configID := congrArg (fun k => k.2.1) h
  simp [isPushOf, hw, hc]

theorem appliedAt_of_key_eq {r q : WorkloadConfigRow} (h : r.key = q.key) :
    r.appliedAt = q.appliedAt :=
  congrArg (fun k => k.2.2) h

/-- `RecordWorkloadConfig`; `none` when the primary key is taken. -/
def recordWorkloadConfig (db : WorkloadConfigs) (clock : Time) (wc : WorkloadConfig) :
    Option WorkloadConfigs :=
  let t := if wc.appliedAt = 0 then clock else wc.appliedAt
  let submittedAt := if wc.submittedAt = 0 then t else wc.submittedAt
  let sanitize := fun inst : WorkloadConfigInstanceStatus =>
    { inst with errorMessage := sanitizeRemoteConfigErrorMessage inst.errorMessage }
  db.insert
    { workloadID := wc.workloadID, configID := wc.configID, appliedAt := t
      status := if wc.status = .pending then .submitted else wc.status
      errorMessage := sanitizeRemoteConfigErrorMessage wc.errorMessage
      pushedBy := wc.pushedBy, pushID := wc.pushID
      submittedAt := some submittedAt, sentAt := wc.sentAt
      opampStatusTimeoutAt :=
        some (wc.opampStatusTimeoutAt.getD (submittedAt + opampStatusTimeout))
      rollbackOfPushID := wc.rollbackOfPushID
      instanceStatuses := wc.instanceStatuses.map sanitize }

/-- The newest row of a workload and hash: `applied_at = (SELECT MAX(applied_at) ...)`, and
`ORDER BY applied_at DESC LIMIT 1`. -/
def latestByHash (db : WorkloadConfigs) (workloadID configID : String) :
    Option WorkloadConfigRow :=
  db.newest (isPushOf workloadID configID) WorkloadConfigRow.appliedAt

def WorkloadConfigRow.setSent (at_ : Time) (r : WorkloadConfigRow) : WorkloadConfigRow :=
  { r with status := .sent, sentAt := some at_ }

theorem WorkloadConfigRow.key_setSent (at_ : Time) (r : WorkloadConfigRow) :
    (r.setSent at_).key = r.key := rfl

def WorkloadConfigRow.setStatus (status : PushStatus) (errorMessage : String)
    (r : WorkloadConfigRow) : WorkloadConfigRow :=
  { r with status, errorMessage := sanitizeRemoteConfigErrorMessage errorMessage }

theorem WorkloadConfigRow.key_setStatus (status : PushStatus) (errorMessage : String)
    (r : WorkloadConfigRow) : (r.setStatus status errorMessage).key = r.key := rfl

def markWorkloadConfigSent (db : WorkloadConfigs) (workloadID configID : String)
    (sentAt : Time) : WorkloadConfigs :=
  db.update (db.isNewest (isPushOf workloadID configID) WorkloadConfigRow.appliedAt)
    (.setSent sentAt) (WorkloadConfigRow.key_setSent sentAt)

def updateWorkloadConfigStatus (db : WorkloadConfigs) (workloadID configID : String)
    (status : PushStatus) (errorMessage : String) : WorkloadConfigs :=
  db.update (db.isNewest (isPushOf workloadID configID) WorkloadConfigRow.appliedAt)
    (.setStatus status errorMessage) (WorkloadConfigRow.key_setStatus status errorMessage)

/-- `scanWorkloadConfig`: the row joined with its content and hydrated at the time of the read. -/
def scanWorkloadConfig (content : String) (now : Time) (r : WorkloadConfigRow) :
    WorkloadConfig :=
  hydratePushStatus now now
    { workloadID := r.workloadID, configID := r.configID, appliedAt := r.appliedAt
      status := r.status, errorMessage := r.errorMessage, pushedBy := r.pushedBy
      content, label := r.label, pushID := r.pushID
      submittedAt := r.submittedAt.getD r.appliedAt, sentAt := r.sentAt
      opampStatusTimeoutAt := r.opampStatusTimeoutAt
      rollbackOfPushID := r.rollbackOfPushID, instanceStatuses := r.instanceStatuses }

/-- The search for the reporting instance: the first entry with its UID is rewritten, and an
instance that is not in the list is appended as a required target. -/
def mergeInstance (configID uid : String) (status : PushStatus) (errorMessage : String)
    (updatedAt : Time) : List WorkloadConfigInstanceStatus → List WorkloadConfigInstanceStatus
  | [] =>
    [{ instanceUID := uid, required := true, status, configHash := configID, updatedAt,
       errorMessage }]
  | inst :: rest =>
    if inst.instanceUID = uid then
      { inst with
        status, configHash := configID, updatedAt, errorMessage, errorCause := "" } :: rest
    else inst :: mergeInstance configID uid status errorMessage updatedAt rest

/-- The row that `UpdateWorkloadConfigInstanceStatus` writes back. `scanNow` is the clock of
the scan, `clock` the one read when the report carries no time. -/
def mergeReport (content : String) (scanNow clock : Time) (uid : String) (status : PushStatus)
    (errorMessage : String) (updatedAt : Time) (r : WorkloadConfigRow) : WorkloadConfigRow :=
  let errorMessage := sanitizeRemoteConfigErrorMessage errorMessage
  let wc := scanWorkloadConfig content scanNow r
  let updatedAt := if updatedAt = 0 then clock else updatedAt
  let wc := { wc with
    instanceStatuses :=
      mergeInstance r.configID uid status errorMessage updatedAt wc.instanceStatuses }
  let wc := hydratePushStatus clock updatedAt wc
  { r with
    status := wc.status, errorMessage := errorMessage, instanceStatuses := wc.instanceStatuses }

theorem key_mergeReport (content : String) (scanNow clock : Time) (uid : String)
    (status : PushStatus) (errorMessage : String) (updatedAt : Time) (r : WorkloadConfigRow) :
    (mergeReport content scanNow clock uid status errorMessage updatedAt r).key = r.key := rfl

/-- `UpdateWorkloadConfigInstanceStatus` on this table: the newest row is read with a row lock,
merged and written back under its primary key. Without a row only canaries are updated. -/
def updateWorkloadConfigInstanceStatus (db : WorkloadConfigs) (workloadID configID uid : String)
    (status : PushStatus) (errorMessage content : String) (scanNow clock updatedAt : Time) :
    WorkloadConfigs :=
  match latestByHash db workloadID configID with
  | none => db
  | some r =>
    db.update (fun q => decide (q.key = r.key))
      (mergeReport content scanNow clock uid status errorMessage updatedAt)
      (key_mergeReport content scanNow clock uid status errorMessage updatedAt)

/-- `status = 'applied'`: the rows that `GetLastAppliedWorkloadConfig`, a mark as known-good
and, for another hash, `GetPreviousAppliedWorkloadConfig` choose from. -/
def isApplied (workloadID : String) (r : WorkloadConfigRow) : Bool :=
  r.workloadID = workloadID && r.status = .applied

/-- The rows `GetLatestPendingWorkloadConfig` chooses from. -/
def isPending (workloadID : String) (r : WorkloadConfigRow) : Bool :=
  r.workloadID = workloadID &&
    (r.status = .pending || r.status = .submitted || r.status = .sent ||
      r.status = .applying || r.status = .rollbackStarted)

/-- The rows `GetLatestPendingOrApplyingWorkloadConfig` chooses from. -/
def isPendingOrApplying (workloadID : String) (r : WorkloadConfigRow) : Bool :=
  r.workloadID = workloadID &&
    (r.status = .pending || r.status = .submitted || r.status = .sent || r.status = .applying)

section NewestRow

variable {db : WorkloadConfigs} {w h : String} {row : WorkloadConfigRow}

theorem latestByHash_isPushOf (hrow : latestByHash db w h = some row) :
    row.workloadID = w ∧ row.configID = h := by
  have hp := (KeyedTable.newest_spec hrow).2.1
  simpa [isPushOf] using hp

/-- A key-preserving update rewrites the newest row in place. -/
theorem latestByHash_update (db : WorkloadConfigs) (w h : String) (sel : WorkloadConfigRow → Bool)
    (f : WorkloadConfigRow → WorkloadConfigRow) (hf : ∀ r, (f r).key = r.key) :
    latestByHash (db.update sel f hf) w h =
      (latestByHash db w h).map fun r => if sel r then f r else r := by
  apply KeyedTable.newest_update db sel f hf
  · intro r
    exact isPushOf_of_key_eq (hf r) w h
  · intro r
    exact appliedAt_of_key_eq (hf r)

theorem latestByHash_markWorkloadConfigSent (hrow : latestByHash db w h = some row) (at_ : Time) :
    latestByHash (markWorkloadConfigSent db w h at_) w h =
      some (row.setSent at_) := by
  have hn := List.find?_some hrow
  rw [markWorkloadConfigSent, latestByHash_update, hrow, Option.map_some, if_pos hn]

theorem latestByHash_updateWorkloadConfigStatus (hrow : latestByHash db w h = some row)
    (st : PushStatus) (err : String) :
    latestByHash (updateWorkloadConfigStatus db w h st err) w h =
      some (row.setStatus st err) := by
  have hn := List.find?_some hrow
  rw [updateWorkloadConfigStatus, latestByHash_update, hrow, Option.map_some, if_pos hn]

theorem latestByHash_updateWorkloadConfigInstanceStatus
    (hrow : latestByHash db w h = some row) (uid : String) (st : PushStatus)
    (err content : String) (scanNow clock updatedAt : Time) :
    latestByHash (updateWorkloadConfigInstanceStatus db w h uid st err content scanNow clock
      updatedAt) w h = some (mergeReport content scanNow clock uid st err updatedAt row) := by
  rw [updateWorkloadConfigInstanceStatus, hrow]
  dsimp only
  rw [latestByHash_update, hrow]
  simp

end NewestRow

end OtelMagnify.Push
