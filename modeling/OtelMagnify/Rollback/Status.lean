import OtelMagnify.Rollback.Guided
import OtelMagnify.Rollback.Reports

/-! The status of a submitted rollback. `handleRollbackStatus` reads the history row of the
rollback, whose status is the verdict on its instances, and then the last report that the workload
row holds, whichever instance made it and whenever. -/
namespace OtelMagnify.Rollback
open Push Server StepSystem

structure RollbackRequestRef where
  workloadID : String
  targetHash : String
  startedAt : Time
  deriving DecidableEq, Repr

inductive ApplyStatus where
  | accepted | applying | applied | failed | unknown
  deriving DecidableEq, Repr

def ApplyStatus.ofStatus : PushStatus → ApplyStatus
  | .applying => .applying
  | .applied => .applied
  | .failed => .failed
  | _ => .accepted

def ApplyStatus.isTerminal : ApplyStatus → Bool
  | .applied | .failed | .unknown => true
  | _ => false

structure RollbackStatusReport where
  workloadID : String
  targetHash : String
  targetStatus : PushStatus
  targetAppliedAt : Time
  targetSubmittedAt : Time
  targetPushedBy : String
  applyStatus : ApplyStatus
  terminal : Bool
  terminalStatus : Option ApplyStatus
  startedAt : Time
  elapsed : Time
  timedOut : Bool
  lastKnownStatus : PushStatus
  targetLabel : Option String
  deriving DecidableEq, Repr

structure StatusCalls where
  historyOk : Bool := true
  workloadOk : Bool := true
  scannedAt : Time
  now : Time
  deriving DecidableEq, Repr

def rollbackTimeout : Time := 30 * 1000000000

def rollbackRequestNotFound : RollbackError where
  status := 404
  message := "rollback request not found"
  code := "target_not_found"

def requestRow (history : WorkloadConfigs) (ref : RollbackRequestRef) : Option WorkloadConfigRow :=
  history.get? (ref.workloadID, ref.targetHash, ref.startedAt)

/-- `apply` and `last` before the timeout is looked at: what the row says, unless the workload row
holds a report on the same hash. -/
def reportedStatus (row : PushStatus) (targetHash : String) (snapshot : Option RemoteConfigStatus) :
    ApplyStatus × PushStatus :=
  match snapshot.filter (·.configHash = targetHash) with
  | some snap => (.ofStatus snap.status.status, snap.status.status)
  | none => (.ofStatus row, row)

/-- `apply` once the time since the start of the rollback is looked at. -/
def ApplyStatus.after (elapsed : Time) (apply : ApplyStatus) : ApplyStatus :=
  if apply = .applied ∨ apply = .failed then apply
  else if rollbackTimeout < elapsed then .unknown
  else apply

/-- `handleRollbackStatus`, from the decoded request id and the remote config status of the
workload row. -/
def handleRollbackStatus (history : WorkloadConfigs) (snapshot : Option RemoteConfigStatus)
    (workloadID : String) (ref : Option RollbackRequestRef) (c : StatusCalls) :
    Except RollbackError RollbackStatusReport := do
  let ref ← Checks.require (ref.filter (·.workloadID = workloadID))
    (invalidRequest "invalid rollback request id")
  if !c.historyOk then throw (internalError "failed to load rollback status")
  let row ← Checks.require (requestRow history ref) rollbackRequestNotFound
  let wc := scanWorkloadConfig "" c.scannedAt row
  -- a failed lookup of the workload leaves its zero value, which has no report
  let reported :=
    reportedStatus wc.status ref.targetHash (if c.workloadOk then snapshot else none)
  let elapsed := c.now - ref.startedAt
  let apply := reported.1.after elapsed
  return {
    workloadID, targetHash := ref.targetHash, targetStatus := wc.status
    targetAppliedAt := wc.appliedAt, targetSubmittedAt := wc.submittedAt
    targetPushedBy := wc.pushedBy, applyStatus := apply, terminal := apply.isTerminal
    terminalStatus := if apply.isTerminal then some apply else none
    startedAt := ref.startedAt, elapsed, timedOut := apply = .unknown
    lastKnownStatus := reported.2, targetLabel := wc.label }

/-- Where `handleRollbackWorkloadConfig` stands: it has found the config applied, has seen no other
change under way, has recorded the row, has sent the config or has failed to. -/
inductive SendStage where
  | waiting | found | checked | recorded | sent | failed
  deriving DecidableEq, Repr

def SendStage.isRecorded : SendStage → Bool
  | waiting | found | checked => false
  | recorded | sent | failed => true

/-- A rollback and the reports of the agents: those that are being handled and all that have
arrived, the status that the workload row held at first, which report it has held since, and how
many reports had arrived when the rollback was recorded. -/
structure Followed where
  base : State
  arrived : List AgentReport
  before : Option RemoteConfigStatus
  holder : Option ℕ
  stage : SendStage
  recordedAt : ℕ

def Followed.initial (db : Tables) (before : Option RemoteConfigStatus) : Followed where
  base := State.initial db
  arrived := []
  before := before
  holder := none
  stage := .waiting
  recordedAt := 0

inductive FollowAction where
  | arrive (e : AgentReport)
  | resume (t : ℕ)
  | hold (t : Option ℕ)
  | find (scannedAt : Time)
  | check (tie : ℕ)
  | record
  | fail (err : String) (ok : Bool)
  | mark (sentAt : Time) (ok : Bool)

/-- The report has not yet been stored in its row. -/
def Reporter.storing : Reporter → Option AgentReport
  | rowStatus e => some e
  | instanceStatus e _ => some e
  | _ => none

def AgentReport.snapshot (e : AgentReport) : RemoteConfigStatus where
  status := e.report
  configHash := e.hash
  errorMessage := sanitizeRemoteConfigErrorMessage e.err
  updatedAt := e.updatedAt

namespace Followed

def snapshot (s : Followed) : Option RemoteConfigStatus :=
  match s.holder with
  | some t => s.arrived[t]?.map AgentReport.snapshot
  | none => s.before

/-- The reports on the target hash that have arrived since the rollback was recorded. -/
def reported (p : ConfigPush) (s : Followed) : List (String × Report) :=
  ((s.arrived.drop s.recordedAt).filter (·.hash = p.configID)).map fun e => (e.uid, e.report)

def setHistory (s : Followed) (history : WorkloadConfigs) : Followed :=
  { s with base := { s.base with db := { s.base.db with history } } }

end Followed

/-- One step of the rollback `p` or of a report. The workload row gets a report after its row was
stored; other writers of the workload row may bring back what it held before, so that this may
happen again at any later time. The checks on the workload and the validation, which may refuse the
rollback as well, read nothing that is followed here. -/
def followStep (p : ConfigPush) (s : Followed) : FollowAction → Option Followed
  | .arrive e =>
    (step p.workloadID s.base (.arrive e)).map fun base =>
      { s with base, arrived := s.arrived ++ [e] }
  | .resume t => (step p.workloadID s.base (.resume t)).map fun base => { s with base }
  | .hold none => some { s with holder := none }
  | .hold (some t) =>
    if s.base.reporters[t]?.any fun r => r.storing.isNone then some { s with holder := some t }
    else none
  | .find scannedAt =>
    let target := getWorkloadConfigByHash s.base.db scannedAt p.workloadID p.configID
    if s.stage = .waiting ∧ target.any fun wc => wc.status = .applied ∧ wc.content ≠ "" then
      some { s with stage := .found }
    else none
  | .check tie =>
    let concurrent := getLatestPendingOrApplyingWorkloadConfig s.base.db tie p.workloadID
    if s.stage = .found ∧ concurrent = none then some { s with stage := .checked } else none
  | .record =>
    if s.stage = .checked then
      (recordWorkloadConfig s.base.db.history p.submittedAt p.workloadConfig).map fun history =>
        { s.setHistory history with stage := .recorded, recordedAt := s.arrived.length }
    else none
  -- the errors of the last two statements are ignored
  | .fail err ok =>
    let history := updateWorkloadConfigStatus s.base.db.history p.workloadID p.configID .failed
      (sanitizeRemoteConfigErrorMessage err)
    if s.stage = .recorded then
      some { if ok then s.setHistory history else s with stage := .failed }
    else none
  | .mark sentAt ok =>
    let history := markWorkloadConfigSent s.base.db.history p.workloadID p.configID sentAt
    if s.stage = .recorded then
      some { if ok then s.setHistory history else s with stage := .sent }
    else none

/-- The condition of a step: no report on the target hash is being stored when the rollback is
recorded. -/
def RecordsAlone (p : ConfigPush) (s : Followed) : FollowAction → Bool
  | .record => s.base.reporters.all fun r => r.storing.all fun e => e.hash ≠ p.configID
  | _ => true

/-- Every report that an instance of the row is shown with has arrived since the rollback. -/
structure Vouched (reported : List (String × Report)) (q : WorkloadConfigRow) : Prop where
  targets : q.instanceStatuses ≠ []
  report : ∀ i ∈ q.instanceStatuses, ∀ r, reportOf i.status = some r →
    (i.instanceUID, r) ∈ reported

variable {hash w : String} {r : Report}

section Rows

variable {reported : List (String × Report)} {q : WorkloadConfigRow}

theorem Vouched.mono {reported' : List (String × Report)} (h : Vouched reported q)
    (hsub : ∀ x ∈ reported, x ∈ reported') : Vouched reported' q :=
  ⟨h.targets, fun i hi r hr => hsub _ (h.report i hi r hr)⟩

theorem Vouched.of_instances {q' : WorkloadConfigRow} (h : Vouched reported q)
    (he : q'.instanceStatuses = q.instanceStatuses) : Vouched reported q' := by
  refine ⟨he ▸ h.targets, fun i hi => h.report i (he ▸ hi)⟩

variable {err uid : String}

theorem mem_mergeInstance {configID : String} {st : PushStatus} {at_ : Time}
    {insts : List WorkloadConfigInstanceStatus} {i : WorkloadConfigInstanceStatus}
    (h : i ∈ mergeInstance configID uid st err at_ insts) :
    i ∈ insts ∨ i.instanceUID = uid ∧ i.status = st := by
  induction insts with
  | nil =>
    rw [mergeInstance, List.mem_singleton] at h
    exact .inr (h ▸ ⟨rfl, rfl⟩)
  | cons j insts ih =>
    rw [mergeInstance] at h
    split at h
    · next huid =>
      rcases List.mem_cons.mp h with rfl | hi
      · exact .inr ⟨huid, rfl⟩
      · exact .inl (List.mem_cons_of_mem _ hi)
    · rcases List.mem_cons.mp h with rfl | hi
      · exact .inl List.mem_cons_self
      · exact (ih hi).imp_left (List.mem_cons_of_mem _)

theorem mergeInstance_ne_nil (configID uid err : String) (st : PushStatus) (at_ : Time)
    (insts : List WorkloadConfigInstanceStatus) :
    mergeInstance configID uid st err at_ insts ≠ [] := by
  cases insts with
  | nil => simp [mergeInstance]
  | cons i insts =>
    rw [mergeInstance]
    split <;> exact List.cons_ne_nil _ _

/-- A report that has arrived since the rollback is merged into the row. -/
theorem Vouched.mergeReport {content : String} {scanNow clock updatedAt : Time}
    (h : Vouched reported q) (hr : (uid, r) ∈ reported) :
    Vouched reported (mergeReport content scanNow clock uid r.status err updatedAt q) := by
  obtain ⟨e₁, e₂, at_, he⟩ :=
    mergeReport_instanceStatuses content scanNow clock uid err updatedAt q r.status
  refine ⟨?_, fun i hi r' hr' => ?_⟩
  · rw [he]
    exact fun hnil => mergeInstance_ne_nil _ _ _ _ _ _ (List.map_eq_nil_iff.mp hnil)
  · rw [he] at hi
    obtain ⟨j, hj, rfl⟩ := List.mem_map.mp hi
    rw [reportOf_hydrateInstance] at hr'
    rw [hydrateInstance_uid]
    rcases mem_mergeInstance hj with hj | ⟨rfl, hstatus⟩
    · obtain ⟨k, hk, rfl⟩ := List.mem_map.mp hj
      rw [reportOf_hydrateInstance] at hr'
      rw [hydrateInstance_uid]
      exact h.report k hk r' hr'
    · rw [hstatus, reportOf_status] at hr'
      exact Option.some.inj hr' ▸ hr

/-- The rows with the key `k` are vouched for, and there is one. -/
structure Recorded (reported : List (String × Report)) (k : PushKey) (db : WorkloadConfigs) :
    Prop where
  exists_row : ∃ q ∈ db.rows, q.key = k
  vouched : ∀ q ∈ db.rows, q.key = k → Vouched reported q

variable {k : PushKey} {db : WorkloadConfigs}

/-- An update that keeps every row it selects vouched for. -/
theorem Recorded.update {sel : WorkloadConfigRow → Bool}
    {f : WorkloadConfigRow → WorkloadConfigRow} {hf : ∀ r, (f r).key = r.key}
    (h : Recorded reported k db)
    (hkeep : ∀ q ∈ db.rows, sel q = true → q.key = k → Vouched reported q → Vouched reported (f q)) :
    Recorded reported k (db.update sel f hf) := by
  have hkey : ∀ q, (if sel q then f q else q).key = q.key := by
    intro q
    split
    · exact hf q
    · rfl
  constructor
  · obtain ⟨q, hq, hk⟩ := h.exists_row
    exact ⟨_, List.mem_map.mpr ⟨q, hq, rfl⟩, (hkey q).trans hk⟩
  · intro q' hq' hk
    obtain ⟨q, hq, rfl⟩ := List.mem_map.mp hq'
    rw [hkey] at hk
    have hv := h.vouched q hq hk
    split
    · next hsel => exact hkeep q hq hsel hk hv
    · exact hv

theorem Recorded.insert {db' : WorkloadConfigs}
    (h : Recorded reported k db) (hins : db.insert q = some db') : Recorded reported k db' := by
  have hrows := KeyedTable.insert_rows hins
  obtain ⟨q₀, hq₀, hk₀⟩ := h.exists_row
  constructor
  · exact ⟨q₀, by rw [hrows]; exact List.mem_append_left _ hq₀, hk₀⟩
  · intro q' hq' hk
    rw [hrows, List.mem_append, List.mem_singleton] at hq'
    rcases hq' with hq' | rfl
    · exact h.vouched q' hq' hk
    · exact absurd (hk₀.trans hk.symm) (KeyedTable.key_ne_of_insert hins q₀ hq₀)

theorem Recorded.updateWorkloadConfigStatus {st : PushStatus} (h : Recorded reported k db) :
    Recorded reported k (updateWorkloadConfigStatus db w hash st err) :=
  h.update fun _ _ _ _ hv => hv.of_instances rfl

theorem Recorded.markWorkloadConfigSent {at_ : Time}
    (h : Recorded reported k db) : Recorded reported k (markWorkloadConfigSent db w hash at_) :=
  h.update fun _ _ _ _ hv => hv.of_instances rfl

theorem Recorded.updateWorkloadConfigInstanceStatus {content : String}
    {scanNow clock updatedAt : Time} (h : Recorded reported k db)
    (hr : hash = k.2.1 → (uid, r) ∈ reported) :
    Recorded reported k (updateWorkloadConfigInstanceStatus db w hash uid r.status err content
      scanNow clock updatedAt) := by
  unfold Push.updateWorkloadConfigInstanceStatus
  split
  · exact h
  · next row hrow =>
    obtain ⟨-, hhash⟩ := latestByHash_isPushOf hrow
    refine h.update fun q _ hsel hk hv => hv.mergeReport (hr ?_)
    rw [← hk, of_decide_eq_true hsel]
    exact hhash.symm

end Rows

/-- What a step of a report writes, and where it leads. -/
theorem resume_history {s s' : State} {t : ℕ} {r : Reporter} (h : resume w s t r = some s') :
    (∃ r', s'.reporters = s.reporters.set t r' ∧ ∀ e, r'.storing = some e → r.storing = some e) ∧
      (s'.db.history = s.db.history ∨
        (∃ hash st err, s'.db.history = updateWorkloadConfigStatus s.db.history w hash st err) ∨
        (∃ e err content, r.storing = some e ∧ s'.db.history =
          updateWorkloadConfigInstanceStatus s.db.history w e.hash e.uid e.report.status err content
            e.scanNow e.clock e.updatedAt) ∨
        (∃ p : ConfigPush, recordWorkloadConfig s.db.history p.submittedAt p.workloadConfig =
          some s'.db.history) ∨
        ∃ hash at_, s'.db.history = markWorkloadConfigSent s.db.history w hash at_) := by
  cases r with
  | rowStatus e =>
    cases h
    exact ⟨⟨_, rfl, fun e h => h⟩, .inr (.inl ⟨_, _, _, rfl⟩)⟩
  | instanceStatus e origin =>
    cases h
    refine ⟨⟨_, rfl, fun e' he' => ?_⟩, .inr (.inr (.inl ⟨e, _, _, rfl, rfl⟩))⟩
    split at he' <;> cases he'
  | rollback e origin stage =>
    cases h
    refine ⟨⟨_, rfl, fun e' he' => ?_⟩, ?_⟩
    · cases hnext : (stage.step s.db w e true).2 <;> rw [hnext] at he' <;> cases he'
    · exact (RollbackStage.step_history rfl).imp_right fun h => .inr (.inr h)
  | finished origin pushed => cases h

/-- Since the rollback was recorded: its row is vouched for, and so is every report on its hash
that is being stored. -/
structure Followed.Sound (p : ConfigPush) (s : Followed) : Prop where
  row : s.stage.isRecorded = true → Recorded (s.reported p) p.recordedRow.key s.base.db.history
  storing : s.stage.isRecorded = true → ∀ r ∈ s.base.reporters, ∀ e, r.storing = some e →
    e.hash = p.configID → (e.uid, e.report) ∈ s.reported p
  recordedAt : s.recordedAt ≤ s.arrived.length

namespace Followed

variable {p : ConfigPush} {s s' : Followed}

theorem mem_reported {t : ℕ} {e : AgentReport} (hat : s.arrived[t]? = some e)
    (ht : s.recordedAt ≤ t) (hhash : e.hash = p.configID) : (e.uid, e.report) ∈ s.reported p := by
  obtain ⟨n, rfl⟩ := Nat.exists_eq_add_of_le ht
  rw [← List.getElem?_drop] at hat
  refine List.mem_map.mpr ⟨e, List.mem_filter.mpr ⟨List.mem_of_getElem? hat, ?_⟩, rfl⟩
  exact decide_eq_true hhash

theorem Sound.initial (db : Tables) (before : Option RemoteConfigStatus) :
    Sound p (.initial db before) :=
  ⟨nofun, nofun, le_rfl⟩

theorem Sound.arrive {e : AgentReport} (h : Sound p s)
    (hs : followStep p s (.arrive e) = some s') : Sound p s' := by
  cases hs
  have hdrop : (s.arrived ++ [e]).drop s.recordedAt = s.arrived.drop s.recordedAt ++ [e] :=
    List.drop_append_of_le_length h.recordedAt
  have hsub : ∀ x ∈ s.reported p, x ∈ reported p { s with arrived := s.arrived ++ [e] } := by
    intro x hx
    simp only [reported, hdrop, List.filter_append, List.map_append]
    exact List.mem_append_left _ hx
  refine ⟨fun hstage => ?_, fun hstage r hr e' he' hhash => ?_, ?_⟩
  · have hrow := h.row hstage
    exact ⟨hrow.exists_row, fun q hq hk => (hrow.vouched q hq hk).mono hsub⟩
  · rcases List.mem_append.mp hr with hr | hr
    · exact hsub _ (h.storing hstage r hr e' he' hhash)
    · cases List.mem_singleton.mp hr
      cases he'
      exact mem_reported (List.getElem?_concat_length ..) h.recordedAt hhash
  · exact h.recordedAt.trans (by simp)

theorem Sound.resume {t : ℕ} (h : Sound p s) (hs : followStep p s (.resume t) = some s') :
    Sound p s' := by
  obtain ⟨base, hbase, rfl⟩ := Option.map_eq_some_iff.mp hs
  obtain ⟨r, hat, hres⟩ := Option.bind_eq_some_iff.mp hbase
  obtain ⟨⟨r', hset, hstoring⟩, hhistory⟩ := resume_history hres
  have hmem : r ∈ s.base.reporters := List.mem_of_getElem? hat
  refine ⟨fun hstage => ?_, fun hstage q hq e he hhash => ?_, h.recordedAt⟩
  · have hrow := h.row hstage
    rcases hhistory with he | ⟨hash, st, err, he⟩ | ⟨e, err, content, hstore, he⟩ | ⟨q, hrecord⟩ |
      ⟨hash, at_, he⟩
    · exact he ▸ hrow
    · exact he ▸ hrow.updateWorkloadConfigStatus
    · rw [he]
      exact hrow.updateWorkloadConfigInstanceStatus fun hh => h.storing hstage r hmem e hstore hh
    · rw [recordWorkloadConfig_workloadConfig] at hrecord
      exact hrow.insert hrecord
    · exact he ▸ hrow.markWorkloadConfigSent
  · rw [hset] at hq
    rcases List.mem_or_eq_of_mem_set hq with hq | rfl
    · exact h.storing hstage q hq e he hhash
    · exact h.storing hstage r hmem e (hstoring e he) hhash

/-- The row as it is recorded has no report yet. -/
theorem vouched_recordedRow (htargets : p.targets ≠ []) (reported : List (String × Report)) :
    Vouched reported p.recordedRow := by
  constructor
  · simpa [ConfigPush.recordedRow, initialPushInstanceStatuses] using htargets
  · intro i hi r hr
    obtain ⟨target, -, rfl⟩ := List.mem_map.mp hi
    cases hr

theorem Sound.record (htargets : p.targets ≠ []) (h : RecordsAlone p s .record = true)
    (hs : followStep p s .record = some s') : Sound p s' := by
  simp only [followStep] at hs
  split at hs
  · obtain ⟨history, hrecord, rfl⟩ := Option.map_eq_some_iff.mp hs
    rw [recordWorkloadConfig_workloadConfig] at hrecord
    have hrows := KeyedTable.insert_rows hrecord
    refine ⟨fun _ => ⟨?_, fun q hq hk => ?_⟩, fun _ r hr e he hhash => ?_, le_rfl⟩
    · exact ⟨p.recordedRow, by rw [setHistory, hrows]; simp, rfl⟩
    · rw [setHistory, hrows, List.mem_append, List.mem_singleton] at hq
      rcases hq with hq | rfl
      · exact absurd hk (KeyedTable.key_ne_of_insert hrecord q hq)
      · exact vouched_recordedRow htargets _
    · have hall := List.all_eq_true.mp h r hr
      rw [he] at hall
      exact absurd hhash (of_decide_eq_true hall)
  · cases hs

/-- A last statement of the rollback that keeps the rows vouched for, or fails. -/
theorem Sound.last {history : WorkloadConfigs} (h : Sound p s) (hstage : s.stage = .recorded)
    (hrow : Recorded (s.reported p) p.recordedRow.key s.base.db.history →
      Recorded (s.reported p) p.recordedRow.key history) (ok : Bool) (stage : SendStage) :
    Sound p { if ok then s.setHistory history else s with stage } := by
  have hrecorded : s.stage.isRecorded = true := by rw [hstage]; rfl
  cases ok with
  | false => exact ⟨fun _ => h.row hrecorded, fun _ => h.storing hrecorded, h.recordedAt⟩
  | true => exact ⟨fun _ => hrow (h.row hrecorded), fun _ => h.storing hrecorded, h.recordedAt⟩

theorem Sound.step {a : FollowAction} (htargets : p.targets ≠ []) (h : Sound p s)
    (hguard : RecordsAlone p s a = true) (hs : followStep p s a = some s') : Sound p s' := by
  cases a with
  | arrive e => exact h.arrive hs
  | resume t => exact h.resume hs
  | hold t =>
    cases t with
    | none =>
      cases hs
      exact ⟨h.row, h.storing, h.recordedAt⟩
    | some t =>
      simp only [followStep] at hs
      split at hs <;> cases hs
      exact ⟨h.row, h.storing, h.recordedAt⟩
  | find scannedAt | check tie =>
    simp only [followStep] at hs
    split at hs <;> cases hs
    exact ⟨nofun, nofun, h.recordedAt⟩
  | record => exact .record htargets hguard hs
  | fail err ok =>
    simp only [followStep] at hs
    split at hs <;> cases hs
    next hstage => exact h.last hstage (fun hrow => hrow.updateWorkloadConfigStatus) ok _
  | mark sentAt ok =>
    simp only [followStep] at hs
    split at hs <;> cases hs
    next hstage => exact h.last hstage (fun hrow => hrow.markWorkloadConfigSent) ok _

/-- The condition of a read: the row has been marked as sent, or says that the send has failed;
and the workload row holds no report on the target hash but one that has arrived since the record,
from an instance of the row, which is the only one if it reports `applied`. -/
structure ReadsSince (p : ConfigPush) (s : Followed) (c : StatusCalls) (row : WorkloadConfigRow) :
    Prop where
  sent : row.sentAt.isSome = true ∨ s.stage = .failed ∧ row.status = .failed
  held : c.workloadOk = true → (∃ snap ∈ s.snapshot, snap.configHash = p.configID) →
    ∃ t e, s.holder = some t ∧ s.recordedAt ≤ t ∧ s.arrived[t]? = some e ∧
      (∃ i ∈ row.instanceStatuses, i.instanceUID = e.uid) ∧
      (e.report = .applied → ∀ i ∈ row.instanceStatuses, i.instanceUID = e.uid)

/-- Such a report speaks for the row. -/
theorem ReadsSince.mem_reported {c : StatusCalls} {row : WorkloadConfigRow}
    {snap : RemoteConfigStatus} (h : s.ReadsSince p c row) (hok : c.workloadOk = true)
    (hsnap : s.snapshot = some snap) (hhash : snap.configHash = p.configID) :
    (∃ i ∈ row.instanceStatuses, (i.instanceUID, snap.status) ∈ s.reported p) ∧
      (snap.status = .applied →
        ∀ i ∈ row.instanceStatuses, (i.instanceUID, .applied) ∈ s.reported p) := by
  obtain ⟨t, e, hholder, ht, hat, ⟨i, hi, huid⟩, hall⟩ := h.held hok ⟨snap, hsnap, hhash⟩
  simp only [snapshot, hholder, hat, Option.map_some, Option.some.injEq] at hsnap
  subst hsnap
  have hmem := Followed.mem_reported hat ht hhash
  refine ⟨⟨i, hi, huid ▸ hmem⟩, fun happlied j hj => ?_⟩
  rw [hall happlied j hj, ← happlied]
  exact hmem

end Followed

section Answer

variable {row : WorkloadConfigRow}

/-- A row shows `applied` if all its instances have applied the config, and `failed` if one has
failed, or what is stored if it has not been sent. -/
theorem reports_of_scannedStatus (htargets : row.instanceStatuses ≠ []) :
    (row.scannedStatus = .applied →
      (∀ i ∈ row.instanceStatuses, reportOf i.status = some .applied) ∨
        row.sentAt = none ∧ canonicalPushStatus row.status = .applied) ∧
    (row.scannedStatus = .failed →
      (∃ i ∈ row.instanceStatuses, reportOf i.status = some .failed) ∨ row.sentAt = none) := by
  have hlen : (row.instanceStatuses.map (hydrateInstance false row.configID)).length ≠ 0 := by
    simpa using htargets
  simp only [WorkloadConfigRow.scannedStatus, aggregateStatus]
  rw [if_neg hlen]
  split_ifs with hfailed hall hany hsent
  · obtain ⟨j, hj, hstatus⟩ := (tally_failed_pos _).mp hfailed
    obtain ⟨i, hi, rfl⟩ := List.mem_map.mp hj
    exact ⟨by simp, fun _ => .inl ⟨i, hi, status_hydrateInstance_iff.mp hstatus⟩⟩
  · refine ⟨fun _ => .inl fun i hi => ?_, by simp⟩
    have happlied := ((tally_allApplied _).mp hall).2 _ (List.mem_map_of_mem hi)
    exact status_hydrateInstance_iff.mp happlied
  · simp
  · simp
  · have hnone : row.sentAt = none := by simpa using hsent
    exact ⟨fun h => .inr ⟨hnone, h⟩, fun _ => .inr hnone⟩

/-- A status comes from the report that is held on the hash, or from the row. -/
theorem reportedStatus_cases {status : PushStatus} {snapshot : Option RemoteConfigStatus}
    (h : (reportedStatus status hash snapshot).1 = .ofStatus r.status) :
    (∃ snap, snapshot = some snap ∧ snap.configHash = hash ∧ snap.status = r) ∨
      status = r.status := by
  unfold reportedStatus at h
  split at h
  · next snap hsnap =>
    obtain ⟨hsnap, hhash⟩ := Option.filter_eq_some_iff.mp hsnap
    refine .inl ⟨snap, hsnap, of_decide_eq_true hhash, ?_⟩
    revert h
    cases snap.status <;> cases r <;> simp [ApplyStatus.ofStatus, Report.status]
  · refine .inr ?_
    revert h
    cases status <;> cases r <;> simp [ApplyStatus.ofStatus, Report.status]

theorem ApplyStatus.of_after {elapsed : Time} {apply : ApplyStatus}
    (h : apply.after elapsed = .ofStatus r.status) : apply = .ofStatus r.status := by
  unfold ApplyStatus.after at h
  split_ifs at h
  · exact h
  · cases r <;> cases h
  · exact h

theorem applyStatus_eq_ofStatus {history : WorkloadConfigs}
    {snapshot : Option RemoteConfigStatus} {ref : RollbackRequestRef} {c : StatusCalls}
    {report : RollbackStatusReport}
    (h : handleRollbackStatus history snapshot ref.workloadID (some ref) c = .ok report)
    (hr : report.applyStatus = .ofStatus r.status) :
    ∃ row, requestRow history ref = some row ∧
      (reportedStatus row.scannedStatus ref.targetHash
        (if c.workloadOk then snapshot else none)).1 = .ofStatus r.status := by
  obtain ⟨ref', href, h⟩ := Checks.bind_eq_ok.mp h
  have href := (Option.filter_eq_some_iff.mp (Checks.require_eq_ok.mp href)).1
  cases href
  obtain ⟨-, h⟩ := Checks.check_eq_ok.mp h
  obtain ⟨row, hrow, h⟩ := Checks.bind_eq_ok.mp h
  refine ⟨row, Checks.require_eq_ok.mp hrow, ?_⟩
  cases h
  rw [← status_scanWorkloadConfig "" c.scannedAt row]
  exact ApplyStatus.of_after hr

end Answer

/-- In every run in which no report on the target hash is being stored when the rollback is
recorded, the answer to a status request that meets the condition of a read is true: `applied`
only if every instance of the row has reported that since, `failed` only if some instance has or
the send has failed. -/
theorem rollback_status_truthful (p : ConfigPush) (htargets : p.targets ≠ []) (db : Tables)
    (before : Option RemoteConfigStatus) (actions : List FollowAction) (s : Followed)
    (hmeets : Meets (followStep p) (fun s a => RecordsAlone p s a = true)
      (.initial db before) actions)
    (hrun : run (followStep p) (.initial db before) actions = some s)
    (hstage : s.stage.isRecorded = true) (c : StatusCalls) (report : RollbackStatusReport)
    (row : WorkloadConfigRow)
    (hrow : requestRow s.base.db.history ⟨p.workloadID, p.configID, p.submittedAt⟩ = some row)
    (hreads : s.ReadsSince p c row)
    (hreport : handleRollbackStatus s.base.db.history s.snapshot p.workloadID
      (some ⟨p.workloadID, p.configID, p.submittedAt⟩) c = .ok report) :
    (report.applyStatus = .applied →
        ∀ i ∈ row.instanceStatuses, (i.instanceUID, .applied) ∈ s.reported p) ∧
      (report.applyStatus = .failed →
        (∃ i ∈ row.instanceStatuses, (i.instanceUID, .failed) ∈ s.reported p) ∨
          s.stage = .failed) := by
  have hsound : s.Sound p := run_invariant_of_meets
    (fun _ _ _ h hguard hs => h.step htargets hguard hs) (Followed.Sound.initial db before)
    hmeets hrun
  obtain ⟨hmem, hkey⟩ := KeyedTable.get?_eq_some_iff.mp hrow
  have hvouched := (hsound.row hstage).vouched row hmem hkey
  have hcases (r : Report) (hr : report.applyStatus = .ofStatus r.status) :
      ((∃ i ∈ row.instanceStatuses, (i.instanceUID, r) ∈ s.reported p) ∧
        (r = .applied → ∀ i ∈ row.instanceStatuses, (i.instanceUID, .applied) ∈ s.reported p)) ∨
        row.scannedStatus = r.status := by
    obtain ⟨row', hrow', hr⟩ := applyStatus_eq_ofStatus hreport hr
    cases hrow.symm.trans hrow'
    refine (reportedStatus_cases hr).imp_left ?_
    rintro ⟨snap, hsnap, hhash, rfl⟩
    split at hsnap
    · next hok => exact hreads.mem_reported hok hsnap hhash
    · cases hsnap
  constructor
  · intro happlied
    rcases hcases .applied happlied with ⟨-, hheld⟩ | hstatus
    · exact hheld rfl
    · intro i hi
      rcases (reports_of_scannedStatus hvouched.targets).1 hstatus with hall | ⟨hnone, hstored⟩
      · exact hvouched.report i hi .applied (hall i hi)
      · rcases hreads.sent with hsent | ⟨-, hfailed⟩
        · rw [hnone] at hsent
          cases hsent
        · rw [hfailed] at hstored
          cases hstored
  · intro hfailed
    rcases hcases .failed hfailed with ⟨hheld, -⟩ | hstatus
    · exact .inl hheld
    · rcases (reports_of_scannedStatus hvouched.targets).2 hstatus with ⟨i, hi, hr⟩ | hnone
      · exact .inl ⟨i, hi, hvouched.report i hi .failed hr⟩
      · rcases hreads.sent with hsent | ⟨hsend, -⟩
        · rw [hnone] at hsent
          cases hsent
        · exact .inr hsend

section Runs

/-- `b` has been applied, and `c` after it. -/
def bThenC : Tables where
  history := ⟨[appliedRow "b" 1, appliedRow "c" 2], by decide⟩
  knownGood := fun _ => none
  content := fun hash => hash

/-- A rollback to `b` of a workload with two instances. -/
def rollbackOfTwo : ConfigPush where
  workloadID := "w"
  configID := "b"
  kind := .operator "ada"
  submittedAt := 100
  targets := [⟨"i", "pod-i"⟩, ⟨"j", "pod-j"⟩]

def rollbackOfOne : ConfigPush := { rollbackOfTwo with targets := [⟨"i", "pod-i"⟩] }

def reportOn (uid : String) (report : Report) : AgentReport :=
  { failedReport "b" 200 with uid, report }

/-- The steps of a report up to the workload row. -/
def reportHandled (t : ℕ) (uid : String) (report : Report) : List FollowAction :=
  [.arrive (reportOn uid report), .resume t, .resume t, .hold (some t)]

def submitted : List FollowAction := [.find 90, .check 0, .record, .mark 150 true]

def statusCalls : StatusCalls where
  scannedAt := 1000
  now := 1000

def rollbackRef : RollbackRequestRef := ⟨"w", "b", 100⟩

def rollbackStatus (s : Followed) : Except RollbackError RollbackStatusReport :=
  handleRollbackStatus s.base.db.history s.snapshot "w" (some rollbackRef) statusCalls

def answers (apply : ApplyStatus) (s : Followed) : Bool :=
  match rollbackStatus s with
  | .ok report => report.applyStatus = apply
  | .error _ => false

theorem rollback_status_truthful_one_target :
    ∃ s report row, run (followStep rollbackOfOne) (.initial bThenC none)
        (submitted ++ reportHandled 0 "i" .applied) = some s ∧
      rollbackStatus s = .ok report ∧ report.applyStatus = .applied ∧
      requestRow s.base.db.history rollbackRef = some row ∧
        ∀ i ∈ row.instanceStatuses, (i.instanceUID, Report.applied) ∈ s.reported rollbackOfOne := by
  obtain ⟨s, hrun, happlied, hstage, hheld, row, hrow, hsent, huid⟩ :
      ∃ s, run (followStep rollbackOfOne) (.initial bThenC none)
          (submitted ++ reportHandled 0 "i" .applied) = some s ∧
        answers .applied s = true ∧ s.stage.isRecorded = true ∧
        (s.holder = some 0 ∧ s.recordedAt ≤ 0 ∧
          s.arrived[0]? = some (reportOn "i" .applied)) ∧
        ∃ row, requestRow s.base.db.history rollbackRef = some row ∧ row.sentAt.isSome = true ∧
          row.instanceStatuses.map (·.instanceUID) = ["i"] := by
    decide +kernel
  have huids (i : WorkloadConfigInstanceStatus) (hi : i ∈ row.instanceStatuses) :
      i.instanceUID = "i" :=
    List.mem_singleton.mp (huid ▸ List.mem_map_of_mem hi)
  obtain ⟨i, hi, -⟩ := List.mem_map.mp (huid.symm ▸ List.mem_singleton_self "i")
  unfold answers at happlied
  split at happlied
  · next report hreport =>
    have happlied := of_decide_eq_true happlied
    refine ⟨s, report, row, hrun, hreport, happlied, hrow, ?_⟩
    refine (rollback_status_truthful rollbackOfOne (by decide) bThenC none _ s (by decide +kernel)
      hrun hstage statusCalls report row hrow ⟨.inl hsent, ?_⟩ hreport).1 happlied
    obtain ⟨hholder, hsince, hat⟩ := hheld
    exact fun _ _ => ⟨0, _, hholder, hsince, hat, ⟨i, hi, huids i hi⟩, fun _ => huids⟩
  · cases happlied

/-- Some instance of the row has not reported since the record that it has applied the config. -/
def lacksApplied (s : Followed) : Bool :=
  (requestRow s.base.db.history rollbackRef).any fun row =>
    row.instanceStatuses.any fun i => (i.instanceUID, Report.applied) ∉ s.reported rollbackOfTwo

/-- The answer is `applied` when one of two instances has reported that, and when one has before the
rollback and none since; it is `failed` when one has reported that between the checks and the record
and none since. -/
theorem snapshot_answers_for_the_rollback :
    (∃ s, run (followStep rollbackOfTwo) (.initial bThenC none)
          (submitted ++ reportHandled 0 "i" .applied) = some s ∧
        answers .applied s = true ∧ lacksApplied s = true) ∧
      (∃ s, run (followStep rollbackOfTwo) (.initial bThenC none)
          (reportHandled 0 "j" .applied ++ submitted) = some s ∧
        answers .applied s = true ∧ lacksApplied s = true ∧ s.reported rollbackOfTwo = []) ∧
      ∃ s, run (followStep rollbackOfTwo) (.initial bThenC none)
          ([.find 90, .check 0] ++ reportHandled 0 "i" .failed ++ [.record, .mark 150 true]) =
            some s ∧
        answers .failed s = true ∧ s.reported rollbackOfTwo = [] ∧ s.stage = .sent := by
  decide +kernel

end Runs

end OtelMagnify.Rollback
