import OtelMagnify.Rollback.Superseded
import OtelMagnify.Validator.Static

/-! When a prepared rollback says that it can be submitted, and when the submitted one passes its
checks. The two chains of checks ask for the same, except that only the second one compares the
version of the workload with the configured minimum. -/
namespace OtelMagnify.Rollback
open Push Server Checks
open OtelMagnify.Validator (Environment RuntimeOptions runtimeOptionsFor runtimeOptionsFromEnv
  isBelowMinimum valid_validateWithRuntime pipelineText pipelineEnvironment minimumVersionEnv)

def ofValidatorError (e : OtelMagnify.Validator.Error) : ValidationError :=
  ⟨e.code, e.message, e.path⟩

def validatorOf (env : Environment) (getenv : String → String) : Validator where
  validate content available :=
    (OtelMagnify.Validator.validate env content available).errors.map ofValidatorError
  validateWithRuntime content available version :=
    let result := OtelMagnify.Validator.validateWithRuntime env content available
      (runtimeOptionsFor getenv version)
    (result.valid, result.errors.map ofValidatorError)

/-- What both chains of checks ask of the tables for a rollback to `hash`. -/
structure Eligible (env : Environment) (db : Tables) (workloads : Workloads)
    (workloadID hash : String) (wl : Workload) (row : WorkloadConfigRow) : Prop where
  workload : workloads workloadID = some wl
  latest : latestByHash db.history workloadID hash = some row
  applied : row.scannedStatus = .applied
  content : db.content hash ≠ ""
  live : wl.archivedAt = none
  collector : wl.type = .collector
  accepts : wl.acceptsRemoteConfig = true
  idle : ∀ r ∈ db.history.rows, isPendingOrApplying workloadID r = false
  valid : (OtelMagnify.Validator.validate env (db.content hash) wl.availableComponents).errors = []

structure HandlerCalls.StoreOk (c : HandlerCalls) : Prop where
  workload : c.workloadOk = true
  target : c.targetOk = true
  pending : c.pendingOk = true

variable {env : Environment} {getenv : String → String} {db : Tables} {workloads : Workloads}
  {workloadID hash : String} {wl : Workload} {row : WorkloadConfigRow} {c : HandlerCalls}

theorem Eligible.unique {wl' : Workload} {row' : WorkloadConfigRow}
    (h : Eligible env db workloads workloadID hash wl row)
    (h' : Eligible env db workloads workloadID hash wl' row') : wl' = wl ∧ row' = row :=
  ⟨Option.some.inj (h'.workload.symm.trans h.workload), Option.some.inj (h'.latest.symm.trans h.latest)⟩

theorem content_scanWorkloadConfig (content : String) (now : Time) (r : WorkloadConfigRow) :
    (scanWorkloadConfig content now r).content = content := rfl

theorem not_isSome_pending (tie : ℕ) :
    ¬(getLatestPendingOrApplyingWorkloadConfig db tie workloadID).isSome = true ↔
      ∀ r ∈ db.history.rows, isPendingOrApplying workloadID r = false := by
  rw [getLatestPendingOrApplyingWorkloadConfig_isSome]
  push Not
  simp only [Bool.not_eq_true]

theorem findings_buildRollbackValidation (v : Validator) (target : WorkloadConfig) :
    (splitRollbackFindings (buildRollbackValidation v wl target).findings).2 = [] ↔
      wl.type = .collector ∧ wl.acceptsRemoteConfig = true ∧ target.content ≠ "" ∧
        v.validate target.content wl.availableComponents = [] := by
  rw [splitRollbackFindings, List.filter_eq_self.mpr fun f hf => (finding_blocks hf).1]
  simp only [buildRollbackValidation]
  by_cases hcontent : target.content = "" <;> simp [hcontent]

theorem resolveRollbackTarget_eq_ok (hc : c.StoreOk) {target : ResolvedTarget} :
    resolveRollbackTarget db c workloadID hash "" = .ok target ↔
      ∃ row, latestByHash db.history workloadID hash = some row ∧
        target = ⟨scanWorkloadConfig (db.content hash) c.scannedAt row, "push_history_row",
          knownGoodSource (scanWorkloadConfig (db.content hash) c.scannedAt row)⟩ := by
  simp only [resolveRollbackTarget, hc.target, Bool.not_true, Bool.false_eq_true, if_false]
  rw [if_neg (by decide), bind_eq_ok]
  simp only [require_eq_ok, getWorkloadConfigByHash, Option.map_eq_some_iff]
  constructor
  · rintro ⟨_, ⟨row, hrow, rfl⟩, ⟨⟩⟩
    exact ⟨row, hrow, rfl⟩
  · rintro ⟨row, hrow, rfl⟩
    exact ⟨_, ⟨row, hrow, rfl⟩, rfl⟩

/-- A rollback that was prepared for a hash can be submitted if the tables allow it. -/
theorem canSubmit_iff {req : PrepareRequest} (hc : c.StoreOk)
    (hselector : trimSpace req.targetSelector = "") :
    (∃ p, handlePrepareRollback (validatorOf env getenv) db workloads req c = .ok p ∧
        p.action.canSubmit = true) ↔
      trimSpace req.targetHash ≠ "" ∧
        ∃ wl row, Eligible env db workloads req.workloadID (trimSpace req.targetHash) wl row := by
  simp only [handlePrepareRollback, hselector, iff_true, hc.workload, hc.pending, if_true,
    Bool.true_and, check_eq_ok, bind_eq_ok, require_eq_ok, resolveRollbackTarget_eq_ok hc]
  constructor
  · rintro ⟨p, ⟨hhash, -, wl, hwl, _, ⟨row, hrow, rfl⟩, hlive, happlied, ⟨⟩⟩, hsubmit⟩
    refine ⟨hhash, wl, row, ?_⟩
    simp only [prepared, decide_eq_true_eq, List.append_eq_nil_iff,
      findings_buildRollbackValidation, content_scanWorkloadConfig] at hsubmit
    obtain ⟨⟨hcollector, haccepts, hcontent, hvalid⟩, hidle⟩ := hsubmit
    refine ⟨hwl, hrow, ?_, hcontent, ?_, hcollector, haccepts, ?_, List.map_eq_nil_iff.mp hvalid⟩
    · rw [← status_scanWorkloadConfig (db.content (trimSpace req.targetHash)) c.scannedAt]
      exact not_not.mp happlied
    · simpa using hlive
    · refine (not_isSome_pending c.pendingTie).mp fun hsome => ?_
      rw [if_pos hsome] at hidle
      cases hidle
  · rintro ⟨hhash, wl, row, h⟩
    refine ⟨_, ⟨hhash, by simp, wl, h.workload, _, ⟨row, h.latest, rfl⟩, by simp [h.live], ?_, rfl⟩, ?_⟩
    · rw [status_scanWorkloadConfig]
      exact not_not.mpr h.applied
    · simp only [prepared, decide_eq_true_eq, List.append_eq_nil_iff,
        findings_buildRollbackValidation, content_scanWorkloadConfig]
      refine ⟨⟨h.collector, h.accepts, h.content, List.map_eq_nil_iff.mpr h.valid⟩, ?_⟩
      rw [if_neg ((not_isSome_pending c.pendingTie).mpr h.idle)]

/-- A submitted rollback comes to `RecordWorkloadConfig` if the tables allow it and the workload
is not known to be below the minimum. -/
theorem checkRollback_eq_ok_iff (hc : c.StoreOk) (hopamp : c.opamp.isSome = true)
    (hdisabled : (runtimeOptionsFromEnv getenv).enabled = false) :
    (∃ instances, checkRollback (validatorOf env getenv) db workloads workloadID hash c =
        .ok instances) ↔
      ∃ wl row, Eligible env db workloads workloadID hash wl row ∧
        isBelowMinimum wl.version (runtimeOptionsFromEnv getenv).minimumVersion = false := by
  obtain ⟨instances, hinstances⟩ := Option.isSome_iff_exists.mp hopamp
  have hvalid (content : String) (wl : Workload) :
      ¬(!((validatorOf env getenv).validateWithRuntime content wl.availableComponents
        wl.version).1) = true ↔
        (OtelMagnify.Validator.validate env content wl.availableComponents).errors = [] ∧
          isBelowMinimum wl.version (runtimeOptionsFromEnv getenv).minimumVersion = false := by
    rw [← valid_validateWithRuntime env content wl.availableComponents _ hdisabled, validatorOf,
      Bool.not_eq_true', Bool.not_eq_false]
  constructor
  · rintro ⟨_, h⟩
    obtain ⟨_, -, h⟩ := bind_eq_ok.mp h
    obtain ⟨-, h⟩ := check_eq_ok.mp h
    obtain ⟨wc, hwc, h⟩ := bind_eq_ok.mp h
    obtain ⟨row, hrow, rfl⟩ := Option.map_eq_some_iff.mp (require_eq_ok.mp hwc)
    obtain ⟨happlied, h⟩ := check_eq_ok.mp h
    obtain ⟨hcontent, h⟩ := check_eq_ok.mp h
    obtain ⟨-, h⟩ := check_eq_ok.mp h
    obtain ⟨wl, hwl, h⟩ := bind_eq_ok.mp h
    obtain ⟨hlive, h⟩ := check_eq_ok.mp h
    obtain ⟨hcollector, h⟩ := check_eq_ok.mp h
    obtain ⟨haccepts, h⟩ := check_eq_ok.mp h
    obtain ⟨-, h⟩ := check_eq_ok.mp h
    obtain ⟨hidle, h⟩ := check_eq_ok.mp h
    obtain ⟨hchecked, -⟩ := check_eq_ok.mp h
    rw [status_scanWorkloadConfig, not_not] at happlied
    rw [content_scanWorkloadConfig] at hcontent hchecked
    obtain ⟨herrors, hversion⟩ := (hvalid _ wl).mp hchecked
    exact ⟨wl, row, ⟨require_eq_ok.mp hwl, hrow, happlied, hcontent, by simpa using hlive,
      not_not.mp hcollector, by simpa using haccepts, (not_isSome_pending c.pendingTie).mp hidle,
      herrors⟩, hversion⟩
  · rintro ⟨wl, row, h, hversion⟩
    refine ⟨instances, bind_eq_ok.mpr ⟨_, require_eq_ok.mpr hinstances, ?_⟩⟩
    refine check_eq_ok.mpr ⟨by simp [hc.target], bind_eq_ok.mpr ⟨_, require_eq_ok.mpr
      (Option.map_eq_some_iff.mpr ⟨row, h.latest, rfl⟩), ?_⟩⟩
    rw [status_scanWorkloadConfig, content_scanWorkloadConfig]
    refine check_eq_ok.mpr ⟨not_not.mpr h.applied, check_eq_ok.mpr ⟨h.content, ?_⟩⟩
    refine check_eq_ok.mpr ⟨by simp [hc.workload], bind_eq_ok.mpr
      ⟨wl, require_eq_ok.mpr h.workload, ?_⟩⟩
    refine check_eq_ok.mpr ⟨by simp [h.live], check_eq_ok.mpr ⟨not_not.mpr h.collector, ?_⟩⟩
    refine check_eq_ok.mpr ⟨by simp [h.accepts], check_eq_ok.mpr ⟨by simp [hc.pending], ?_⟩⟩
    refine check_eq_ok.mpr ⟨(not_isSome_pending c.pendingTie).mpr h.idle, ?_⟩
    exact check_eq_ok.mpr ⟨(hvalid _ wl).mpr ⟨h.valid, hversion⟩, rfl⟩

/-- For every tables, workload and hash, the answer of a prepared rollback agrees with the checks
of the submitted one if and only if, where the tables allow the rollback, the workload is not
known to be below the minimum and the hash is not blank. -/
theorem prepare_agrees_with_submit (env : Environment) (getenv : String → String) (db : Tables)
    (workloads : Workloads) (req : PrepareRequest) (c c' : HandlerCalls) (hc : c.StoreOk)
    (hc' : c'.StoreOk) (hopamp : c'.opamp.isSome = true)
    (hdisabled : (runtimeOptionsFromEnv getenv).enabled = false)
    (hselector : trimSpace req.targetSelector = "") :
    ((∃ p, handlePrepareRollback (validatorOf env getenv) db workloads req c = .ok p ∧
          p.action.canSubmit = true) ↔
        ∃ instances, checkRollback (validatorOf env getenv) db workloads req.workloadID
          (trimSpace req.targetHash) c' = .ok instances) ↔
      ∀ wl row, Eligible env db workloads req.workloadID (trimSpace req.targetHash) wl row →
        (isBelowMinimum wl.version (runtimeOptionsFromEnv getenv).minimumVersion = false ↔
          trimSpace req.targetHash ≠ "") := by
  rw [canSubmit_iff hc hselector, checkRollback_eq_ok_iff hc' hopamp hdisabled]
  constructor
  · intro h wl row heligible
    constructor
    · intro hversion
      exact (h.mpr ⟨wl, row, heligible, hversion⟩).1
    · intro hhash
      obtain ⟨wl', row', heligible', hversion⟩ := h.mp ⟨hhash, wl, row, heligible⟩
      rwa [(heligible.unique heligible').1] at hversion
  · intro h
    constructor
    · rintro ⟨hhash, wl, row, heligible⟩
      exact ⟨wl, row, heligible, (h wl row heligible).mpr hhash⟩
    · rintro ⟨wl, row, heligible, hversion⟩
      exact ⟨(h wl row heligible).mp hversion, wl, row, heligible⟩

section Runs

def pipelineTables : Tables :=
  { tablesOf (twoPushes .failed) with content := fun _ => pipelineText }

def collectorAt (version : String) : Workload := { collector with version }

theorem prepare_agrees_with_submit_current :
    (∃ p, handlePrepareRollback (validatorOf pipelineEnvironment (minimumVersionEnv "0.95.0"))
        pipelineTables (fun _ => some (collectorAt "0.97.0")) ⟨"w", "bbbbbbbbbbbbbbbb", ""⟩
        handlerCalls = .ok p ∧ p.action.canSubmit = true) ↔
      ∃ instances, checkRollback (validatorOf pipelineEnvironment (minimumVersionEnv "0.95.0"))
        pipelineTables (fun _ => some (collectorAt "0.97.0")) "w"
        (trimSpace "bbbbbbbbbbbbbbbb") handlerCalls = .ok instances :=
  (prepare_agrees_with_submit pipelineEnvironment (minimumVersionEnv "0.95.0") pipelineTables
    (fun _ => some (collectorAt "0.97.0")) ⟨"w", "bbbbbbbbbbbbbbbb", ""⟩ handlerCalls handlerCalls
    ⟨rfl, rfl, rfl⟩ ⟨rfl, rfl, rfl⟩ rfl (by decide +kernel) (by decide +kernel)).mpr (by
      intro wl row h
      cases h.workload
      decide +kernel)

/-- A collector below the minimum: the prepared rollback can be submitted, and the submitted one
is refused for its version. -/
theorem old_collector_is_refused :
    (∃ p, handlePrepareRollback (validatorOf pipelineEnvironment (minimumVersionEnv "0.95.0"))
        pipelineTables (fun _ => some (collectorAt "0.90.0")) ⟨"w", "bbbbbbbbbbbbbbbb", ""⟩
        handlerCalls = .ok p ∧ p.action.canSubmit = true) ∧
      (handleRollbackWorkloadConfig
          (validatorOf pipelineEnvironment (minimumVersionEnv "0.95.0")) pipelineTables
          (fun _ => some (collectorAt "0.90.0")) "w" "bbbbbbbbbbbbbbbb" handlerCalls).response =
        .refused (validationFailed
          [⟨"target_version_too_old",
            "Target collector version 0.90.0 is below the configured minimum 0.95.0.", ""⟩]
          ⟨"valid", true, true, [], []⟩) := by
  refine ⟨⟨_, rfl, by decide +kernel⟩, by decide +kernel⟩

end Runs

end OtelMagnify.Rollback
