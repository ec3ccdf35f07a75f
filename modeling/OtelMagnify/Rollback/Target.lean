import Mathlib.Data.Finset.Card
import OtelMagnify.Push.Sender

/-! What an automatic rollback reads and writes: `GetRollbackTarget` prefers the known-good
config and falls back on the newest applied row of another hash than the one that failed. -/
namespace OtelMagnify.Rollback
open Push

/-- The tables behind a rollback: the push history, the known-good pointer of each workload and
the content of each config, empty when it is gone. -/
structure Tables where
  history : WorkloadConfigs
  knownGood : String → Option String
  content : String → String

inductive TargetKind where
  | lastKnownGood
  | previous
  deriving DecidableEq, Repr

structure RollbackTarget where
  kind : TargetKind
  configID : String
  content : String
  deriving DecidableEq, Repr

/-- `status = 'applied' AND config_id <> ?`. -/
def isPrevious (workloadID excludeHash : String) (r : WorkloadConfigRow) : Bool :=
  isApplied workloadID r && r.configID ≠ excludeHash

def getPreviousAppliedWorkloadConfig (db : Tables) (tie : ℕ) (workloadID excludeHash : String) :
    Option WorkloadConfigRow :=
  db.history.newestAt tie (isPrevious workloadID excludeHash) WorkloadConfigRow.appliedAt

/-- The newest row of the config that the known-good pointer names. -/
def getLatestKnownGoodWorkloadConfig (db : Tables) (workloadID : String) :
    Option WorkloadConfigRow :=
  (db.knownGood workloadID).bind fun configID => latestByHash db.history workloadID configID

def Tables.target (db : Tables) (kind : TargetKind) (r : WorkloadConfigRow) : RollbackTarget where
  kind := kind
  configID := r.configID
  content := db.content r.configID

def getRollbackTarget (db : Tables) (tie : ℕ) (workloadID excludeHash : String) :
    Option RollbackTarget :=
  match getLatestKnownGoodWorkloadConfig db workloadID with
  | some kg => if kg.configID = excludeHash then none else some (db.target .lastKnownGood kg)
  | none =>
    (getPreviousAppliedWorkloadConfig db tie workloadID excludeHash).map (db.target .previous)

/-- The checks of `attemptAutoRollback` before it pushes. -/
def RollbackTarget.isPushable (failedHash : String) (target : RollbackTarget) : Bool :=
  target.configID ≠ failedHash && target.content ≠ ""

def rollbackPush (workloadID failedHash : String) (target : RollbackTarget) (now : Time)
    (instances : List PushTarget) : ConfigPush where
  workloadID := workloadID
  configID := target.configID
  kind := .autoRollback failedHash
  submittedAt := now
  targets := instances

/-- An error of `RecordWorkloadConfig` is only logged. -/
def recordRollback (db : Tables) (p : ConfigPush) : Tables :=
  { db with history := PushCall.record.apply p db.history }

def markRollbackSent (db : Tables) (p : ConfigPush) (sentAt : Time) : Tables :=
  { db with history := (PushCall.mark sentAt).apply p db.history }

def hashes (db : Tables) (workloadID : String) : Finset String :=
  (((db.history.rows.map WorkloadConfigRow.key).filter fun k => k.1 = workloadID).map
    fun k => k.2.1).toFinset

variable {db : Tables} {workloadID : String}

theorem mem_hashes {hash : String} :
    hash ∈ hashes db workloadID ↔
      ∃ r ∈ db.history.rows, isPushOf workloadID hash r = true := by
  simp [hashes, isPushOf, WorkloadConfigRow.key, and_assoc]

theorem hashes_eq_of_keys {db' : Tables}
    (h : db'.history.rows.map WorkloadConfigRow.key = db.history.rows.map WorkloadConfigRow.key)
    (workloadID : String) : hashes db' workloadID = hashes db workloadID := by
  rw [hashes, h, hashes]

/-- A rollback target is a config of the history: the known-good one, or one with an applied
row and another hash than the failed one. -/
theorem getRollbackTarget_spec {tie : ℕ} {excludeHash : String} {target : RollbackTarget}
    (h : getRollbackTarget db tie workloadID excludeHash = some target) :
    (∃ kg, getLatestKnownGoodWorkloadConfig db workloadID = some kg ∧
      kg.configID = target.configID ∧ target.configID ≠ excludeHash) ∨
    getLatestKnownGoodWorkloadConfig db workloadID = none ∧
      ∃ r ∈ db.history.rows, isApplied workloadID r = true ∧ r.configID = target.configID ∧
        target.configID ≠ excludeHash := by
  unfold getRollbackTarget at h
  split at h
  · rename_i kg hkg
    split at h
    · cases h
    · rename_i hne
      rw [← Option.some.inj h]
      exact .inl ⟨kg, hkg, rfl, hne⟩
  · rename_i hnone
    obtain ⟨r, hr, rfl⟩ := Option.map_eq_some_iff.mp h
    obtain ⟨hmem, hp⟩ := KeyedTable.newestAt_spec hr
    obtain ⟨happ, hne⟩ := Bool.and_eq_true_iff.mp hp
    exact .inr ⟨hnone, r, hmem, happ, rfl, of_decide_eq_true hne⟩

theorem getRollbackTarget_mem_hashes {tie : ℕ} {excludeHash : String} {target : RollbackTarget}
    (h : getRollbackTarget db tie workloadID excludeHash = some target) :
    target.configID ∈ hashes db workloadID := by
  rw [mem_hashes]
  rcases getRollbackTarget_spec h with ⟨kg, hkg, hid, -⟩ | ⟨-, r, hr, happ, hid, -⟩
  · obtain ⟨configID, -, hrow⟩ := Option.bind_eq_some_iff.mp hkg
    obtain ⟨hmem, hp, -⟩ := KeyedTable.newest_spec hrow
    obtain ⟨hw, hc⟩ := latestByHash_isPushOf hrow
    exact ⟨kg, hmem, by simp [isPushOf, hw, hid]⟩
  · have hw : r.workloadID = workloadID := by
      have := (Bool.and_eq_true_iff.mp happ).1
      simpa using this
    exact ⟨r, hr, by simp [isPushOf, hw, hid]⟩

theorem hashes_recordRollback {p : ConfigPush} (h : p.configID ∈ hashes db p.workloadID) :
    hashes (recordRollback db p) p.workloadID = hashes db p.workloadID := by
  rw [recordRollback, PushCall.apply, recordWorkloadConfig_workloadConfig]
  cases hins : db.history.insert p.recordedRow with
  | none => rfl
  | some u =>
    have hset : hashes { db with history := u } p.workloadID =
        insert p.configID (hashes db p.workloadID) := by
      ext k
      rw [Finset.mem_insert, mem_hashes, mem_hashes]
      simp only [KeyedTable.insert_rows hins, List.mem_append, List.mem_singleton, or_and_right,
        exists_or, exists_eq_left]
      have hself : isPushOf p.workloadID k p.recordedRow = true ↔ k = p.configID := by
        simp only [isPushOf, ConfigPush.recordedRow, decide_true, Bool.true_and]
        exact decide_eq_true_iff.trans eq_comm
      rw [hself, or_comm]
    exact hset.trans (Finset.insert_eq_of_mem h)

theorem hashes_markRollbackSent (db : Tables) (p : ConfigPush) (sentAt : Time)
    (workloadID : String) : hashes (markRollbackSent db p sentAt) workloadID =
      hashes db workloadID :=
  hashes_eq_of_keys (KeyedTable.map_key_update _ _ _ (WorkloadConfigRow.key_setSent sentAt))
    workloadID

end OtelMagnify.Rollback
