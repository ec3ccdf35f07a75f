import OtelMagnify.Push.Hydration
import OtelMagnify.Rollback.Chain

/-! The cause of a reported error. A report's text is sanitised before it is stored, and the cause
is inferred from what is stored. -/
namespace OtelMagnify.Rollback
open Push

/-- The cause that `HydratePushStatus` infers from a text that was not sanitised. -/
def inferredCause (msg : String) : String :=
  if msg = "" then "" else normalizeRemoteConfigErrorCause "" msg

/-- The cause from the sanitised text is the one from the text itself unless the text is blank or
says that the collector rejected the config. -/
theorem inferredCause_sanitize_iff (msg : String) :
    inferredCause (sanitizeRemoteConfigErrorMessage msg) = inferredCause msg ↔
      msg = "" ∨ trimSpace msg ≠ "" ∧
        normalizeRemoteConfigErrorCause "" msg ≠ "collector_validation" := by
  by_cases hempty : msg = ""
  · rw [hempty]
    decide
  by_cases hblank : trimSpace msg = ""
  · have hcause : normalizeRemoteConfigErrorCause "" msg ≠ "" := by
      intro h
      have hknown := cause_mem_knownCauses msg
      rw [h] at hknown
      revert hknown
      decide
    rw [inferredCause, if_pos ((sanitize_eq_empty_iff msg).2 hblank), inferredCause,
      if_neg hempty]
    exact ⟨fun h => absurd h.symm hcause, fun h => by
      rcases h with h | h
      · exact absurd h hempty
      · exact absurd hblank h.1⟩
  · rw [inferredCause, if_neg fun h => hblank ((sanitize_eq_empty_iff msg).1 h), inferredCause,
      if_neg hempty, cause_sanitize_iff]
    simp only [hempty, false_or, ne_eq, hblank, not_false_eq_true, true_and]

section Stored

theorem find?_mergeInstance (configID uid : String) (status : PushStatus) (msg : String)
    (updatedAt : Time) (insts : List WorkloadConfigInstanceStatus) :
    ∃ inst, (mergeInstance configID uid status msg updatedAt insts).find?
        (·.instanceUID = uid) = some inst ∧
      inst.status = status ∧ inst.errorMessage = msg ∧ inst.errorCause = "" := by
  induction insts with
  | nil =>
    rw [mergeInstance]
    exact ⟨_, List.find?_cons_of_pos (decide_eq_true rfl), rfl, rfl, rfl⟩
  | cons inst insts ih =>
    by_cases huid : inst.instanceUID = uid
    · rw [mergeInstance, if_pos huid]
      exact ⟨_, List.find?_cons_of_pos (decide_eq_true huid), rfl, rfl, rfl⟩
    · obtain ⟨found, hfound, hrest⟩ := ih
      refine ⟨found, ?_, hrest⟩
      rw [mergeInstance, if_neg huid, List.find?_cons_of_neg (by simpa using huid)]
      exact hfound

theorem hydrateInstance_of_report {inst : WorkloadConfigInstanceStatus} {report : Report}
    (h : inst.status = report.status) (expired : Bool) (configID : String) :
    hydrateInstance expired configID inst = normalizeInstance configID inst := by
  have hawaits : awaitsReport inst = false := by
    rw [awaitsReport, h]
    cases report <;> simp [Report.status, canonicalInstanceStatus, canonicalPushStatus]
  rw [hydrateInstance_eq, hawaits, Bool.and_false]
  rfl

theorem find?_hydrateInstance (expired : Bool) (configID uid : String)
    (insts : List WorkloadConfigInstanceStatus) :
    (insts.map (hydrateInstance expired configID)).find? (·.instanceUID = uid) =
      (insts.find? (·.instanceUID = uid)).map (hydrateInstance expired configID) := by
  rw [List.find?_map]
  simp only [Function.comp_def, hydrateInstance_uid]

/-- A report that is stored is read back with its status, the sanitised text and the cause of
that text. -/
theorem find?_scan_mergeReport (content : String) (scanNow clock : Time) (uid : String)
    (report : Report) (msg : String) (updatedAt : Time) (row : WorkloadConfigRow)
    (content' : String) (now : Time) :
    ∃ inst, (scanWorkloadConfig content' now (mergeReport content scanNow clock uid report.status
        msg updatedAt row)).instanceStatuses.find? (·.instanceUID = uid) = some inst ∧
      inst.instanceUID = uid ∧ inst.status = report.status ∧
      inst.errorMessage = sanitizeRemoteConfigErrorMessage msg ∧
      inst.errorCause = inferredCause (sanitizeRemoteConfigErrorMessage msg) := by
  obtain ⟨inst, hfind, hstatus, hmsg, hcause⟩ := find?_mergeInstance row.configID uid
    report.status (sanitizeRemoteConfigErrorMessage msg)
    (if updatedAt = 0 then clock else updatedAt)
    (scanWorkloadConfig content scanNow row).instanceStatuses
  have huid : inst.instanceUID = uid := by simpa using List.find?_some hfind
  have hnormal : (normalizeInstance row.configID inst).status = report.status := by
    rw [normalizeInstance, hstatus]
    cases report <;> rfl
  refine ⟨normalizeInstance row.configID inst, ?_, huid, hnormal, ?_, ?_⟩
  · simp only [scanWorkloadConfig, mergeReport, hydratePushStatus, deriveRow,
      normalizeRow] at hfind ⊢
    rw [find?_hydrateInstance, find?_hydrateInstance, hfind, Option.map_some, Option.map_some,
      hydrateInstance_of_report hstatus, hydrateInstance_of_report hnormal,
      normalizeInstance_idem]
  · rw [normalizeInstance, hmsg, sanitize_sanitize]
  · simp only [normalizeInstance, hmsg, hcause, inferredCause]
    by_cases h : sanitizeRemoteConfigErrorMessage msg = "" <;> simp [h]

end Stored

section Groups

/-- The groups count the error of an instance under a cause. -/
def Counts (groups : List ErrorGroup) (cause uid : String) : Prop :=
  ∃ g ∈ groups, g.cause = cause ∧ (uid ≠ "" → uid ∈ g.affectedInstances)

theorem counts_addToErrorGroups (configID : String) (groups : List ErrorGroup)
    (cause uid msg : String) (at_ : Time) :
    Counts (addToErrorGroups configID groups cause uid msg at_)
      (normalizeRemoteConfigErrorCause cause msg) uid := by
  have hextend (g : ErrorGroup) : uid ≠ "" → uid ∈ (g.extend uid msg at_).affectedInstances := by
    intro huid
    simp only [ErrorGroup.extend, if_neg huid]
    exact List.mem_append_right _ List.mem_cons_self
  unfold addToErrorGroups
  generalize normalizeRemoteConfigErrorCause cause msg = inferred
  dsimp only
  split_ifs with hany
  · obtain ⟨g, hg, hcause⟩ := List.any_eq_true.1 hany
    rw [decide_eq_true_eq] at hcause
    exact ⟨_, List.mem_map.2 ⟨g, hg, if_pos hcause⟩, hcause, hextend g⟩
  · exact ⟨_, List.mem_append_right _ List.mem_cons_self, rfl, hextend _⟩

theorem Counts.addToErrorGroups {groups : List ErrorGroup} {cause uid : String}
    (h : Counts groups cause uid) (configID cause' uid' msg : String) (at_ : Time) :
    Counts (addToErrorGroups configID groups cause' uid' msg at_) cause uid := by
  obtain ⟨g, hg, hcause, huid⟩ := h
  have hextend : (g.extend uid' msg at_).cause = cause ∧
      (uid ≠ "" → uid ∈ (g.extend uid' msg at_).affectedInstances) := by
    refine ⟨hcause, fun hne => ?_⟩
    simp only [ErrorGroup.extend]
    split_ifs
    · exact huid hne
    · exact List.mem_append_left _ (huid hne)
  unfold Push.addToErrorGroups
  generalize normalizeRemoteConfigErrorCause cause' msg = inferred
  dsimp only
  split_ifs
  · refine ⟨_, List.mem_map.2 ⟨g, hg, rfl⟩, ?_⟩
    split_ifs
    · exact hextend
    · exact ⟨hcause, huid⟩
  · exact ⟨g, List.mem_append_left _ hg, hcause, huid⟩

/-- An instance that failed is counted under the cause it has, or the one of its text. -/
theorem counts_errorGroups {wc : WorkloadConfig} {inst : WorkloadConfigInstanceStatus}
    (hinst : inst ∈ wc.instanceStatuses) (hfailed : inst.status = .failed) :
    Counts (buildWorkloadConfigErrorGroups wc)
      (normalizeRemoteConfigErrorCause inst.errorCause inst.errorMessage) inst.instanceUID := by
  have hfold (insts : List WorkloadConfigInstanceStatus) (groups : List ErrorGroup)
      (h : inst ∈ insts ∨ Counts groups (normalizeRemoteConfigErrorCause inst.errorCause
        inst.errorMessage) inst.instanceUID) :
      Counts (insts.foldl (addInstanceError wc.configID) groups)
        (normalizeRemoteConfigErrorCause inst.errorCause inst.errorMessage) inst.instanceUID := by
    induction insts generalizing groups with
    | nil => exact h.resolve_left (List.not_mem_nil)
    | cons i insts ih =>
      rw [List.foldl_cons]
      apply ih
      rcases h with hmem | hcounts
      · rcases List.mem_cons.1 hmem with rfl | hmem
        · rw [addInstanceError, hfailed]
          exact .inr (counts_addToErrorGroups ..)
        · exact .inl hmem
      · right
        unfold addInstanceError
        split_ifs
        · exact hcounts.addToErrorGroups ..
        · exact hcounts
  obtain ⟨g, hg, hcause, huid⟩ : Counts _ _ _ := hfold wc.instanceStatuses [] (.inl hinst)
  unfold buildWorkloadConfigErrorGroups
  dsimp only
  rw [List.isEmpty_eq_false_iff.2 (List.ne_nil_of_mem hg), Bool.and_false, if_neg Bool.false_ne_true]
  refine ⟨{ g with affectedInstances := g.affectedInstances.mergeSort }, ?_, hcause, ?_⟩
  · exact List.mem_mergeSort.2 (List.mem_map.2 ⟨g, hg, rfl⟩)
  · exact fun hne => List.mem_mergeSort.2 (huid hne)

theorem errorGroups_hydratePushStatus (clock now : Time) (wc : WorkloadConfig) :
    (hydratePushStatus clock now wc).errorGroups =
      buildWorkloadConfigErrorGroups (hydratePushStatus clock now wc) := rfl

theorem cause_inferredCause (msg : String) :
    normalizeRemoteConfigErrorCause (inferredCause msg) msg =
      normalizeRemoteConfigErrorCause "" msg := by
  by_cases hempty : msg = ""
  · rw [inferredCause, if_pos hempty]
  · have hkept : ∀ cause ∈ knownCauses, trimSpace (toLower cause) = cause ∧ cause ≠ "" := by
      decide +kernel
    obtain ⟨htrim, hne⟩ := hkept _ (cause_mem_knownCauses msg)
    rw [inferredCause, if_neg hempty, normalizeRemoteConfigErrorCause]
    dsimp only
    rw [htrim, if_pos hne]

end Groups

/-- A report as it is read back after it was stored: its instance has the cause of the text as it
was reported, and the group that counts it has it as its label, unless the sanitiser has lost the
cause. -/
theorem reported_cause_iff {db : Tables} {workloadID : String} {e : AgentReport}
    {row : WorkloadConfigRow} (hrow : latestByHash db.history workloadID e.hash = some row)
    (content : String) (now : Time) :
    ∃ stored inst, latestByHash (storeReport db workloadID e).history workloadID e.hash =
        some stored ∧
      (scanWorkloadConfig content now stored).instanceStatuses.find?
        (·.instanceUID = e.uid) = some inst ∧
      (inst.errorCause = inferredCause e.err ↔
        e.err = "" ∨ trimSpace e.err ≠ "" ∧
          normalizeRemoteConfigErrorCause "" e.err ≠ "collector_validation") ∧
      (e.report = .failed →
        ∃ g ∈ (scanWorkloadConfig content now stored).errorGroups,
          (e.uid ≠ "" → e.uid ∈ g.affectedInstances) ∧
          (g.cause = normalizeRemoteConfigErrorCause "" e.err ↔
            normalizeRemoteConfigErrorCause "" e.err ≠ "collector_validation")) := by
  let err := sanitizeRemoteConfigErrorMessage e.err
  have hfirst := latestByHash_updateWorkloadConfigStatus hrow e.report.status err
  have hstored := latestByHash_updateWorkloadConfigInstanceStatus hfirst e.uid e.report.status err
    (db.content e.hash) e.scanNow e.clock e.updatedAt
  obtain ⟨inst, hfind, huid, hstatus, hmsg, hcause⟩ := find?_scan_mergeReport
    (db.content e.hash) e.scanNow e.clock e.uid e.report err e.updatedAt
    (row.setStatus e.report.status err) content now
  rw [sanitize_sanitize] at hmsg hcause
  refine ⟨_, inst, hstored, hfind, ?_, fun hfailed => ?_⟩
  · rw [hcause, inferredCause_sanitize_iff]
  · obtain ⟨g, hg, hlabel, haffected⟩ := counts_errorGroups (List.mem_of_find?_eq_some hfind)
      (by rw [hstatus, hfailed]; rfl)
    rw [scanWorkloadConfig, ← errorGroups_hydratePushStatus, ← scanWorkloadConfig] at hg
    refine ⟨g, hg, ?_, ?_⟩
    · rw [← huid]
      exact haffected
    · rw [hlabel, hcause, hmsg, cause_inferredCause, cause_sanitize_iff]

def failedWith (err : String) : AgentReport := { failedReport "b" 4 with err }

def pushReportedWith (err : String) : Option WorkloadConfig :=
  (latestByHash (storeReport threeConfigs "w" (failedWith err)).history "w" "b").map
    (scanWorkloadConfig "b" 5)

/-- A collector that rejects a config with an unknown exporter. -/
theorem collector_validation_lost :
    normalizeRemoteConfigErrorCause "" "unknown exporter: kafka" = "collector_validation" ∧
      (pushReportedWith "unknown exporter: kafka").map (fun wc =>
          (wc.instanceStatuses.map (·.errorCause), wc.errorGroups.map (·.cause))) =
        some (["unknown"], ["unknown"]) := by
  decide +kernel

/-- The loss of a connection keeps its cause. -/
theorem send_failure_kept :
    latestByHash threeConfigs.history "w" "b" = some { appliedRow "b" 3 with status := .sent } ∧
      ∃ stored inst, latestByHash (storeReport threeConfigs "w"
          (failedWith "connection lost")).history "w" "b" = some stored ∧
        (scanWorkloadConfig "b" 5 stored).instanceStatuses.find? (·.instanceUID = "i") =
          some inst ∧
        inst.errorCause = inferredCause "connection lost" := by
  have hrow : latestByHash threeConfigs.history "w" "b" =
      some { appliedRow "b" 3 with status := .sent } := by decide +kernel
  obtain ⟨stored, inst, hstored, hfind, hcause, -⟩ :=
    reported_cause_iff (e := failedWith "connection lost") hrow "b" 5
  exact ⟨hrow, stored, inst, hstored, hfind, hcause.2 (.inr (by decide +kernel))⟩

end OtelMagnify.Rollback
