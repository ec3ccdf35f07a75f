import OtelMagnify.Push.Aggregate
import Mathlib.Data.List.Dedup

/-! Canary rollouts: the status of a canary, what `Recount` derives from its targets, and the
statements of `internal/store/workload_canaries.go`. -/
namespace OtelMagnify.Canary
open Push (Time PushStatus Report)

inductive CanaryState where
  | running | succeeded | promoted | aborted | rollbackStarted | stopped | failed
  deriving DecidableEq, Repr

inductive StopReason where
  | remoteConfigFailed | collectorDegraded | noHeartbeat | configDrift | alertTriggered
  deriving DecidableEq, Repr

structure CanaryTarget where
  instanceUID : String
  podName : String
  status : PushStatus
  stopReason : Option StopReason
  updatedAt : Time
  deriving DecidableEq, Repr

structure CanaryCounts where
  pending : ℕ := 0
  applying : ℕ := 0
  applied : ℕ := 0
  failed : ℕ := 0
  deriving DecidableEq, Repr

def CanaryCounts.add (n : CanaryCounts) (target : CanaryTarget) : CanaryCounts :=
  match target.status with
  | .applied => { n with applied := n.applied + 1 }
  | .applying => { n with applying := n.applying + 1 }
  | .failed => { n with failed := n.failed + 1 }
  | _ => { n with pending := n.pending + 1 }

structure CanaryStatus where
  id : String
  workloadID : String
  configHash : String
  status : CanaryState
  targets : List CanaryTarget
  counts : CanaryCounts := {}
  stopReasons : List StopReason := []
  updatedAt : Time
  promotedAt : Option Time := none
  abortedAt : Option Time := none
  rolledBackAt : Option Time := none
  deriving DecidableEq, Repr

/-- The canaries that reports update: `status IN ('running', 'succeeded')`. -/
def CanaryState.isActive : CanaryState → Bool
  | running | succeeded => true
  | _ => false

/-- `InstanceStatus` and `StopReason` of a target that has reported. -/
def CanaryTarget.report (r : Report) (updatedAt : Time) (t : CanaryTarget) : CanaryTarget :=
  { t with
    status := r.status
    updatedAt := updatedAt
    stopReason := if r = .failed then some .remoteConfigFailed else none }

def reportTarget (uid : String) (r : Report) (updatedAt : Time) :
    List CanaryTarget → List CanaryTarget
  | [] => []
  | t :: ts =>
    if t.instanceUID = uid then t.report r updatedAt :: ts
    else t :: reportTarget uid r updatedAt ts

theorem exists_failed_reportTarget {uid : String} (updatedAt : Time) {targets : List CanaryTarget}
    (h : targets.any (·.instanceUID = uid) = true) :
    ∃ t ∈ reportTarget uid .failed updatedAt targets, t.status = .failed := by
  induction targets with
  | nil => cases h
  | cons t ts ih =>
    rw [reportTarget]
    split
    · exact ⟨_, List.mem_cons_self, rfl⟩
    · next hne =>
      rw [List.any_cons, decide_eq_false hne, Bool.false_or] at h
      obtain ⟨t', ht', hfail⟩ := ih h
      exact ⟨t', List.mem_cons_of_mem _ ht', hfail⟩

namespace CanaryStatus

/-- `Recount`. The order of the reasons is that of a Go map, which is not specified. -/
def recount (c : CanaryStatus) : CanaryStatus :=
  { c with
    counts := c.targets.foldl .add {}
    stopReasons := (c.targets.filterMap (·.stopReason)).dedup }

def hasTarget (c : CanaryStatus) (uid : String) : Bool := c.targets.any (·.instanceUID = uid)

/-- Whether `activeCanariesForConfig` would select the row, were it active. -/
def isFor (workloadID configID uid : String) (c : CanaryStatus) : Bool :=
  c.workloadID = workloadID && c.configHash = configID && c.hasTarget uid

def verdict (c : CanaryStatus) : CanaryState :=
  if 0 < c.counts.failed then .stopped
  else if 0 < c.targets.length ∧ c.counts.applied = c.targets.length then .succeeded
  else .running

def report (uid : String) (r : Report) (updatedAt : Time) (c : CanaryStatus) : CanaryStatus :=
  let counted := { c with
    targets := reportTarget uid r updatedAt c.targets
    updatedAt := updatedAt }.recount
  { counted with status := counted.verdict }

def assign (c row : CanaryStatus) : CanaryStatus :=
  { c.recount with id := row.id, workloadID := row.workloadID, configHash := row.configHash }

@[simp] theorem status_recount (c : CanaryStatus) : c.recount.status = c.status := rfl

@[simp] theorem id_recount (c : CanaryStatus) : c.recount.id = c.id := rfl

theorem mem_stopReasons_recount {c : CanaryStatus} {reason : StopReason} :
    reason ∈ c.recount.stopReasons ↔ ∃ t ∈ c.targets, t.stopReason = some reason := by
  simp only [recount, List.mem_dedup, List.mem_filterMap]

theorem foldl_add_failed (targets : List CanaryTarget) (n : CanaryCounts) :
    (targets.foldl CanaryCounts.add n).failed =
      n.failed + targets.countP fun t => t.status = .failed := by
  induction targets generalizing n with
  | nil => rfl
  | cons t ts ih =>
    rw [List.foldl_cons, ih, List.countP_cons]
    cases ht : t.status <;> (simp [CanaryCounts.add, ht]; try omega)

/-- A canary is stopped by a failed report of a target. -/
theorem status_report_failed {c : CanaryStatus} {uid : String} (h : c.hasTarget uid = true)
    (updatedAt : Time) : (c.report uid .failed updatedAt).status = .stopped := by
  obtain ⟨t, ht, hfail⟩ := exists_failed_reportTarget updatedAt h
  have hpos : 0 < (reportTarget uid .failed updatedAt c.targets).countP
      fun t => t.status = .failed :=
    List.countP_pos_iff.mpr ⟨t, ht, decide_eq_true hfail⟩
  have hcount : (c.report uid .failed updatedAt).counts.failed =
      0 + (reportTarget uid .failed updatedAt c.targets).countP fun t => t.status = .failed :=
    foldl_add_failed _ {}
  refine if_pos ?_
  change 0 < (c.report uid .failed updatedAt).counts.failed
  omega

end CanaryStatus

abbrev Canaries := KeyedTable CanaryStatus.id

namespace Canaries

def createCanaryStatus (rows : Canaries) (c : CanaryStatus) : Option Canaries :=
  rows.insert c.recount

def updateCanaryStatus (rows : Canaries) (c : CanaryStatus) : Canaries :=
  rows.update (fun row => row.id = c.id && row.workloadID = c.workloadID) c.assign fun _ => rfl

def getCanaryStatus (rows : Canaries) (workloadID id : String) : Option CanaryStatus :=
  ((rows.get? id).filter (·.workloadID = workloadID)).map CanaryStatus.recount

def updateCanaryTargetStatus (rows : Canaries) (workloadID configID uid : String) (r : Report)
    (updatedAt : Time) : Canaries :=
  rows.update (fun c => c.status.isActive && c.isFor workloadID configID uid)
    (CanaryStatus.report uid r updatedAt) fun _ => rfl

theorem get?_updateCanaryStatus (rows : Canaries) (c : CanaryStatus) (id : String) :
    (rows.updateCanaryStatus c).get? id = (rows.get? id).map fun row =>
      if row.id = c.id && row.workloadID = c.workloadID then c.assign row else row :=
  KeyedTable.get?_update ..

theorem get?_updateCanaryTargetStatus (rows : Canaries) (workloadID configID uid : String)
    (r : Report) (updatedAt : Time) (id : String) :
    (rows.updateCanaryTargetStatus workloadID configID uid r updatedAt).get? id =
      (rows.get? id).map fun c =>
        if c.status.isActive && c.isFor workloadID configID uid then c.report uid r updatedAt
        else c :=
  KeyedTable.get?_update ..

theorem getCanaryStatus_eq_some {rows : Canaries} {workloadID id : String} {c : CanaryStatus}
    (h : rows.getCanaryStatus workloadID id = some c) :
    ∃ row, rows.get? id = some row ∧ row.workloadID = workloadID ∧ c = row.recount := by
  obtain ⟨row, hrow, rfl⟩ := Option.map_eq_some_iff.mp h
  obtain ⟨hget, hw⟩ := Option.filter_eq_some_iff.mp hrow
  exact ⟨row, hget, of_decide_eq_true hw, rfl⟩

end Canaries

end OtelMagnify.Canary
