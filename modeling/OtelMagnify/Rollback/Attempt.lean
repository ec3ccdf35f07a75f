import OtelMagnify.Rollback.Chain

/-! `attemptAutoRollback` statement by statement, as it runs between those of other threads: the
queries of `GetRollbackTarget`, the push, the row that is recorded and then marked as sent, and the
broadcast. -/
namespace OtelMagnify.Rollback
open Push

/-- The query of `GetRollbackTarget` that runs next. -/
inductive TargetQuery where
  | knownGood
  | knownGoodRow (configID : String)
  | previous
  deriving DecidableEq, Repr

/-- One query: the next one, or the target that is returned. -/
def TargetQuery.run (db : Tables) (tie : ℕ) (workloadID excludeHash : String) :
    TargetQuery → TargetQuery ⊕ Option RollbackTarget
  | knownGood => .inl ((db.knownGood workloadID).elim previous knownGoodRow)
  | knownGoodRow configID =>
    match latestByHash db.history workloadID configID with
    | none => .inl previous
    | some kg =>
      .inr (if kg.configID = excludeHash then none else some (db.target .lastKnownGood kg))
  | previous =>
    .inr ((getPreviousAppliedWorkloadConfig db tie workloadID excludeHash).map
      (db.target .previous))

/-- A target carries the content of its config. -/
theorem TargetQuery.content_of_run {db : Tables} {tie : ℕ} {workloadID excludeHash : String}
    {q : TargetQuery} {target : RollbackTarget}
    (h : q.run db tie workloadID excludeHash = .inr (some target)) :
    target.content = db.content target.configID := by
  cases q with
  | knownGood => cases h
  | knownGoodRow configID =>
    simp only [run] at h
    split at h
    · cases h
    · split at h <;> cases h
      rfl
  | previous =>
    obtain ⟨row, -, rfl⟩ := Option.map_eq_some_iff.mp (Sum.inr.inj h)
    rfl

/-- The statement of `attemptAutoRollback` that runs next. -/
inductive RollbackStage where
  | lookup (q : TargetQuery)
  | pushing (target : RollbackTarget)
  | recording (target : RollbackTarget)
  | marking (target : RollbackTarget)
  | announcing (target : RollbackTarget)
  deriving DecidableEq, Repr

namespace RollbackStage

/-- The tables behind a statement of the rollback that `e` starts, and the statement after it.
`ok` says that a query or a write succeeds; the error of a write is only logged. -/
def step (db : Tables) (workloadID : String) (e : AgentReport) (ok : Bool) :
    RollbackStage → Tables × Option RollbackStage
  | lookup q =>
    if !ok then (db, none)
    else
      match q.run db e.tie workloadID e.hash with
      | .inl q => (db, some (lookup q))
      | .inr target => (db, (target.filter (RollbackTarget.isPushable e.hash)).map pushing)
  | pushing target => (db, if e.pushOK then some (recording target) else none)
  | recording target =>
    (if ok then recordRollback db (rollbackPush workloadID e.hash target e.now e.instances) else db,
      some (marking target))
  | marking target =>
    (if ok then
        markRollbackSent db (rollbackPush workloadID e.hash target e.now e.instances) e.sentAt
      else db, some (announcing target))
  | announcing _ => (db, none)

@[simp] def hasPushed : RollbackStage → Bool
  | lookup _ | pushing _ => false
  | _ => true

@[simp] def hasRecorded : RollbackStage → Bool
  | marking _ | announcing _ => true
  | _ => false

@[simp] def isLookup : RollbackStage → Bool
  | lookup _ => true
  | _ => false

@[simp] def isPushing : RollbackStage → Bool
  | pushing _ => true
  | _ => false

/-- The statement inserts the row of the rollback. -/
def inserts (db : Tables) (workloadID : String) (e : AgentReport) : RollbackStage → Bool
  | recording target => (recordWorkloadConfig db.history e.now
      (rollbackPush workloadID e.hash target e.now e.instances).workloadConfig).isSome
  | _ => false

variable {db : Tables} {workloadID : String} {e : AgentReport} {ok : Bool}

/-- A lookup changes nothing and leads to the next query, or to the push of a config that has a
content and is not the failed one. -/
theorem step_lookup (db : Tables) (workloadID : String) (e : AgentReport) (ok : Bool)
    (q : TargetQuery) : ∃ next, (lookup q).step db workloadID e ok = (db, next) ∧
      ∀ stage ∈ next, (∃ q, stage = lookup q) ∨ ∃ target, stage = pushing target ∧
        target.isPushable e.hash = true ∧ target.content = db.content target.configID := by
  cases ok with
  | false => exact ⟨none, rfl, by simp⟩
  | true =>
    cases hrun : q.run db e.tie workloadID e.hash with
    | inl q' => exact ⟨some (lookup q'), by simp [step, hrun], by simp⟩
    | inr target =>
      refine ⟨(target.filter (RollbackTarget.isPushable e.hash)).map pushing, by simp [step, hrun],
        fun stage hstage => .inr ?_⟩
      obtain ⟨target, htarget, rfl⟩ := Option.mem_map.mp hstage
      obtain ⟨rfl, hpushable⟩ := Option.filter_eq_some_iff.mp htarget
      exact ⟨target, rfl, hpushable, TargetQuery.content_of_run hrun⟩

/-- What a statement writes into the history. -/
theorem step_history {stage : RollbackStage} {db' : Tables} {next : Option RollbackStage}
    (h : stage.step db workloadID e ok = (db', next)) :
    db'.history = db.history ∨
      (∃ p : ConfigPush, recordWorkloadConfig db.history p.submittedAt p.workloadConfig =
        some db'.history) ∨
      ∃ hash at_, db'.history = markWorkloadConfigSent db.history workloadID hash at_ := by
  cases stage with
  | lookup q =>
    obtain ⟨next', hstep, -⟩ := step_lookup db workloadID e ok q
    cases hstep.symm.trans h
    exact .inl rfl
  | recording target =>
    cases h
    cases ok with
    | false => exact .inl rfl
    | true =>
      rw [if_pos rfl, recordRollback, PushCall.apply]
      cases hrecord : recordWorkloadConfig _ _ _ with
      | none => exact .inl rfl
      | some history => exact .inr (.inl ⟨_, hrecord⟩)
  | marking target =>
    cases h
    cases ok with
    | false => exact .inl rfl
    | true => exact .inr (.inr ⟨_, _, rfl⟩)
  | pushing target | announcing target =>
    cases h
    exact .inl rfl

/-- The statements that are left when nothing comes between them and every one succeeds. -/
def finish (workloadID : String) (e : AgentReport) : ℕ → Tables → RollbackStage → Tables
  | 0, db, _ => db
  | n + 1, db, stage =>
    let (db, next) := stage.step db workloadID e true
    next.elim db (finish workloadID e n db)

/-- Alone, the statements do what the chain of rollbacks does at once. -/
theorem finish_lookup (db : Tables) (workloadID : String) (e : AgentReport) :
    finish workloadID e 7 db (lookup .knownGood) =
      match rollbackTargetOf db workloadID e with
      | none => db
      | some target => if e.pushOK then finishRollback db workloadID e target else db := by
  have htarget (n : ℕ) (target : Option RollbackTarget) :
      (((target.filter (RollbackTarget.isPushable e.hash)).map pushing).elim db
        (finish workloadID e (n + 4) db)) =
      match target.filter (RollbackTarget.isPushable e.hash) with
      | none => db
      | some target => if e.pushOK then finishRollback db workloadID e target else db := by
    cases target.filter (RollbackTarget.isPushable e.hash) with
    | none => rfl
    | some target => cases hpush : e.pushOK <;> simp [finish, step, hpush, finishRollback]
  unfold rollbackTargetOf getRollbackTarget getLatestKnownGoodWorkloadConfig
  cases hk : db.knownGood workloadID with
  | none => simpa [finish, step, TargetQuery.run, hk] using htarget 1 _
  | some configID =>
    cases hrow : latestByHash db.history workloadID configID with
    | none => simpa [finish, step, TargetQuery.run, hk, hrow] using htarget 0 _
    | some kg => simpa [finish, step, TargetQuery.run, hk, hrow] using htarget 1 _

end RollbackStage

end OtelMagnify.Rollback
