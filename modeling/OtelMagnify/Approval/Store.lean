import OtelMagnify.Lib.KeyedTable
import OtelMagnify.Push.Hydrate

/-! The `workload_config_approvals` table and the statements of
`internal/store/config_approvals.go`. A partial unique index allows one pending request for a
workload and target group; it is part of the table. -/
namespace OtelMagnify.Approval
open Push (Time)

inductive ConfigApprovalStatus where
  | pending
  | approved
  | pushed
  deriving DecidableEq, Repr

structure ConfigApprovalRequest where
  id : String
  workloadID : String
  draftYAML : String
  targetGroup : String
  targetEnv : String
  requester : String
  requestComment : String
  approver : String := ""
  approvalComment : String := ""
  status : ConfigApprovalStatus := .pending
  approvedBy : Option String := none
  approvedAt : Option Time := none
  pushComment : Option String := none
  prodTarget : Bool
  prodConfirmation : Bool
  prodDoubleConfirmed : Bool := false
  breakGlass : Bool := false
  breakGlassReason : Option String := none
  configHash : Option String := none
  createdAt : Time
  updatedAt : Time
  pushedAt : Option Time := none
  deriving DecidableEq, Repr

/-- `workload_id = ? AND target_group = ? AND status = 'pending'`. -/
def isPendingFor (workloadID targetGroup : String) (r : ConfigApprovalRequest) : Bool :=
  r.workloadID = workloadID && r.targetGroup = targetGroup && r.status = .pending

/-- The table, with the index `idx_workload_config_approvals_one_pending_target`. -/
structure Approvals extends KeyedTable ConfigApprovalRequest.id where
  onePendingTarget : ∀ r ∈ rows, ∀ q ∈ rows, r.status = .pending →
    isPendingFor r.workloadID r.targetGroup q = true → r = q

/-- A rewrite of a row that the index cannot reject: the key stays, and so do the indexed
columns of a row that is pending afterwards. -/
structure Rewrite where
  apply : ConfigApprovalRequest → ConfigApprovalRequest
  id_eq : ∀ r, (apply r).id = r.id
  pending : ∀ r, (apply r).status = .pending →
    r.status = .pending ∧ (apply r).workloadID = r.workloadID ∧
      (apply r).targetGroup = r.targetGroup

namespace Approvals

def empty : Approvals := ⟨KeyedTable.empty, by simp [KeyedTable.empty]⟩

def update (db : Approvals) (sel : ConfigApprovalRequest → Bool) (f : Rewrite) : Approvals where
  toKeyedTable := db.toKeyedTable.update sel f.apply f.id_eq
  onePendingTarget := by
    have hback : ∀ r, (if sel r then f.apply r else r).status = .pending →
        r.status = .pending ∧ (if sel r then f.apply r else r).workloadID = r.workloadID ∧
          (if sel r then f.apply r else r).targetGroup = r.targetGroup := by
      intro r
      split
      · exact f.pending r
      · exact fun h => ⟨h, rfl, rfl⟩
    intro r' hr' q' hq' hst hfor
    obtain ⟨r, hr, rfl⟩ := List.mem_map.mp hr'
    obtain ⟨q, hq, rfl⟩ := List.mem_map.mp hq'
    simp only [isPendingFor, Bool.and_eq_true, decide_eq_true_eq] at hfor
    obtain ⟨hrp, hrw, hrg⟩ := hback r hst
    obtain ⟨hqp, hqw, hqg⟩ := hback q hfor.2
    have hrq : r = q := db.onePendingTarget r hr q hq hrp (by
      simp [isPendingFor, hqp, ← hqw, ← hqg, ← hrw, ← hrg, hfor.1.1, hfor.1.2])
    rw [hrq]

/-- `INSERT` of a request: `none` when the key or the index rejects it. -/
def insert (db : Approvals) (req : ConfigApprovalRequest) : Option Approvals :=
  if hidx : req.status = .pending ∧
      ∃ q ∈ db.rows, isPendingFor req.workloadID req.targetGroup q = true then none
  else
    match h : db.toKeyedTable.insert req with
    | none => none
    | some t => some
      { toKeyedTable := t
        onePendingTarget := by
          rw [KeyedTable.insert_rows h]
          intro r hr q hq hst hfor
          simp only [List.mem_append, List.mem_singleton] at hr hq
          rcases hr with hr | rfl <;> rcases hq with hq | rfl
          · exact db.onePendingTarget r hr q hq hst hfor
          · simp only [isPendingFor, Bool.and_eq_true, decide_eq_true_eq] at hfor
            exact absurd ⟨hfor.2, r, hr, by simp [isPendingFor, hfor.1.1, hfor.1.2, hst]⟩ hidx
          · exact absurd ⟨hst, q, hq, hfor⟩ hidx
          · rfl }

end Approvals

/-- The `SET` list of the upsert: the draft and its description, never the status. -/
def redraft (req : ConfigApprovalRequest) : Rewrite where
  apply r := { r with
    draftYAML := req.draftYAML, targetEnv := req.targetEnv, requester := req.requester
    requestComment := req.requestComment, prodTarget := req.prodTarget
    prodConfirmation := req.prodConfirmation, updatedAt := req.updatedAt }
  id_eq _ := rfl
  pending _ h := ⟨h, rfl, rfl⟩

def setApproved (approvedBy comment : String) (approvedAt : Time) : Rewrite where
  apply r := { r with
    status := .approved, approver := approvedBy, approvalComment := comment
    approvedBy := some approvedBy, approvedAt := some approvedAt, updatedAt := approvedAt }
  id_eq _ := rfl
  pending _ h := by simp at h

def setPushed (configHash pushComment : String) (prodDoubleConfirmed breakGlass : Bool)
    (breakGlassReason : String) (pushedAt : Time) : Rewrite where
  apply r := { r with
    status := .pushed, pushComment := some pushComment, prodDoubleConfirmed, breakGlass
    breakGlassReason := if breakGlassReason = "" then none else some breakGlassReason
    configHash := some configHash, pushedAt := some pushedAt, updatedAt := pushedAt }
  id_eq _ := rfl
  pending _ h := by simp at h

def getConfigApprovalRequest (db : Approvals) (id : String) : Option ConfigApprovalRequest :=
  db.toKeyedTable.get? id

def getPendingConfigApprovalRequest (db : Approvals) (workloadID targetGroup : String) :
    Option ConfigApprovalRequest :=
  db.rows.find? (isPendingFor workloadID targetGroup)

/-- `INSERT ... ON CONFLICT(id) DO UPDATE`; `none` when the index rejects the row. -/
def upsertConfigApprovalRequest (db : Approvals) (req : ConfigApprovalRequest) :
    Option Approvals :=
  match getConfigApprovalRequest db req.id with
  | some _ => some (db.update (fun r => r.id = req.id) (redraft req))
  | none => db.insert req

/-- `UPDATE ... WHERE id = ? AND p`; `none` is `sql.ErrNoRows`, when no row was affected. -/
def updateWhere (db : Approvals) (id : String) (p : ConfigApprovalRequest → Bool) (f : Rewrite) :
    Option Approvals :=
  if db.rows.any fun r => r.id = id && p r then
    some (db.update (fun r => r.id = id && p r) f)
  else none

def approveConfigApprovalRequest (db : Approvals) (id approvedBy comment : String)
    (approvedAt : Time) : Option Approvals :=
  updateWhere db id (fun r => r.status = .pending) (setApproved approvedBy comment approvedAt)

def markConfigApprovalRequestPushed (db : Approvals) (id configHash pushComment : String)
    (prodDoubleConfirmed breakGlass : Bool) (breakGlassReason : String) (pushedAt : Time) :
    Option Approvals :=
  updateWhere db id (fun r => r.status = .approved || r.status = .pending)
    (setPushed configHash pushComment prodDoubleConfirmed breakGlass breakGlassReason pushedAt)

section Spec

variable {db db' : Approvals}

theorem getConfigApprovalRequest_id {id : String} {r : ConfigApprovalRequest}
    (h : getConfigApprovalRequest db id = some r) : r.id = id :=
  (KeyedTable.get?_eq_some_iff.mp h).2

/-- An update of one row leaves every other row alone. -/
theorem getConfigApprovalRequest_update (db : Approvals) {sel : ConfigApprovalRequest → Bool}
    (f : Rewrite) {id : String} {r : ConfigApprovalRequest}
    (hr : getConfigApprovalRequest db id = some r) (hsel : sel r = true)
    (honly : ∀ q, sel q = true → q.id = id) (k : String) :
    getConfigApprovalRequest (db.update sel f) k =
      if k = id then some (f.apply r) else getConfigApprovalRequest db k := by
  have hupd : getConfigApprovalRequest (db.update sel f) k =
      (getConfigApprovalRequest db k).map fun r => if sel r then f.apply r else r :=
    KeyedTable.get?_update db.toKeyedTable sel f.apply f.id_eq k
  rw [hupd]
  by_cases hk : k = id
  · rw [if_pos hk, hk, hr, Option.map_some, if_pos hsel]
  · rw [if_neg hk]
    cases hq : getConfigApprovalRequest db k with
    | none => rfl
    | some q =>
      have hqk := getConfigApprovalRequest_id hq
      rw [Option.map_some, if_neg fun hs => hk (hqk.symm.trans (honly q hs))]

theorem Approvals.get_insert {req : ConfigApprovalRequest} (h : db.insert req = some db')
    (k : String) :
    getConfigApprovalRequest db' k =
      if k = req.id then some req else getConfigApprovalRequest db k := by
  unfold Approvals.insert at h
  split at h
  · exact absurd h (by simp)
  · split at h
    · exact absurd h (by simp)
    · rename_i t ht
      rw [← Option.some.inj h]
      simp only [getConfigApprovalRequest, KeyedTable.get?_insert ht, eq_comm]

theorem get_upsertConfigApprovalRequest {req : ConfigApprovalRequest}
    (h : upsertConfigApprovalRequest db req = some db') (k : String) :
    getConfigApprovalRequest db' k =
      if k = req.id then
        some ((getConfigApprovalRequest db req.id).elim req (redraft req).apply)
      else getConfigApprovalRequest db k := by
  unfold upsertConfigApprovalRequest at h
  cases hr : getConfigApprovalRequest db req.id with
  | none =>
    rw [hr] at h
    exact Approvals.get_insert h k
  | some r =>
    rw [hr] at h
    rw [← Option.some.inj h]
    exact getConfigApprovalRequest_update db _ hr
      (by simpa using getConfigApprovalRequest_id hr) (by simp) k

theorem get_updateWhere {id : String} {p : ConfigApprovalRequest → Bool} {f : Rewrite}
    (h : updateWhere db id p f = some db') :
    ∃ r, getConfigApprovalRequest db id = some r ∧ p r = true ∧
      ∀ k, getConfigApprovalRequest db' k =
        if k = id then some (f.apply r) else getConfigApprovalRequest db k := by
  unfold updateWhere at h
  split at h
  · rename_i hany
    obtain ⟨r, hr, hs⟩ := List.any_eq_true.mp hany
    have hsel : ∀ q : ConfigApprovalRequest, (decide (q.id = id) && p q) = true →
        q.id = id ∧ p q = true := by
      intro q hq
      simpa using hq
    have hget : getConfigApprovalRequest db id = some r :=
      KeyedTable.get?_eq_some_iff.mpr ⟨hr, (hsel r hs).1⟩
    rw [← Option.some.inj h]
    exact ⟨r, hget, (hsel r hs).2,
      getConfigApprovalRequest_update db f hget hs fun q hq => (hsel q hq).1⟩
  · exact absurd h (by simp)

end Spec

end OtelMagnify.Approval
