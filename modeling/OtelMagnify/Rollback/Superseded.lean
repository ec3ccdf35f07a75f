import OtelMagnify.Alerts.Engine
import OtelMagnify.Rollback.Guided

/-! Pushes that a newer one has replaced. A row whose agent never reported keeps its status, and
the two queries for pushes in flight look at every row of the workload: the drift rule reads the
one, both rollback handlers the other. -/
namespace OtelMagnify.Rollback
open Push Server Alerts Checks

section InFlight

variable {db : Tables} {tie : ℕ} {w : String}

theorem getLatestPendingOrApplyingWorkloadConfig_isSome :
    (getLatestPendingOrApplyingWorkloadConfig db tie w).isSome = true ↔
      ∃ r ∈ db.history.rows, isPendingOrApplying w r = true := by
  rw [← Option.ne_none_iff_isSome, Ne, getLatestPendingOrApplyingWorkloadConfig,
    KeyedTable.newestAt_eq_none_iff]
  push Not
  simp only [Bool.not_eq_false]

theorem isPending_of_isPendingOrApplying {r : WorkloadConfigRow}
    (h : isPendingOrApplying w r = true) : isPending w r = true := by
  simp only [isPendingOrApplying, isPending, Bool.and_eq_true, Bool.or_eq_true] at h ⊢
  exact ⟨h.1, .inl h.2⟩

end InFlight

section Drift

variable {downTimeout : Time} {history : WorkloadConfigs} {alerts : AlertTable} {w : String}
  {now : Time} {c : Alerts.Calls}

/-- The calls of an evaluation that no store error disturbs. -/
def Succeeds (c : Alerts.Calls) : Prop :=
  c.pendingOk = true ∧ c.existingOk = true ∧ c.createOk = true ∧ c.resolveOk = true

/-- The evaluation leaves a drift alert open that it has raised, or that it has found open. -/
def RaisesOrKeepsDrift (downTimeout : Time) (history : WorkloadConfigs) (alerts : AlertTable)
    (w : String) (now : Time) (c : Alerts.Calls) : Prop :=
  ∃ alerts', evaluateConfigDrift downTimeout history alerts w now c = some alerts' ∧
    ∃ a ∈ alerts'.rows, isUnresolved w .configDrift a = true ∧
      (a ∉ alerts.rows ∨ existing alerts w .configDrift c = some a)

theorem drifted_eq_none (h : ∀ r ∈ history.rows, isPending w r = false) :
    drifted downTimeout history w now c = none := by
  rw [drifted, getLatestPendingWorkloadConfig, KeyedTable.newestAt_eq_none_iff.mpr h]
  rfl

/-- A push in flight drifts once the timeout has passed since it was recorded. -/
theorem exists_drifted {r : WorkloadConfigRow} (hr : r ∈ history.rows)
    (hp : isPending w r = true) (downTimeout : Time) (c : Alerts.Calls) :
    ∃ now q, drifted downTimeout history w now c = some q := by
  cases hq : getLatestPendingWorkloadConfig history c.pendingTie w with
  | none =>
    rw [getLatestPendingWorkloadConfig, KeyedTable.newestAt_eq_none_iff] at hq
    rw [hq r hr] at hp
    cases hp
  | some q =>
    have hlate : downTimeout < downTimeout + 1 + q.appliedAt - q.appliedAt := by
      rw [Int.add_sub_cancel]
      exact Int.lt_add_one_of_le le_rfl
    refine ⟨downTimeout + 1 + q.appliedAt, q, ?_⟩
    rw [drifted, hq]
    exact Option.filter_some_pos (decide_eq_true hlate)

theorem not_open_of_settle {a b : Alert} (hok : c.resolveOk = true)
    (hb : b ∈ (settle alerts c a).rows) (hopen : isUnresolved w .configDrift b = true) :
    b ∈ alerts.rows ∧ b ≠ a := by
  rw [settle, if_pos hok] at hb
  obtain ⟨q, hq, rfl⟩ := List.mem_map.mp hb
  by_cases hid : q.id = a.id
  · simp [isUnresolved, hid] at hopen
  · simp only [hid, decide_false, Bool.false_eq_true, if_false] at hopen ⊢
    exact ⟨hq, fun he => hid (congrArg Alert.id he)⟩

theorem not_raisesOrKeepsDrift (h : ∀ r ∈ history.rows, isPending w r = false)
    (hc : Succeeds c) : ¬RaisesOrKeepsDrift downTimeout history alerts w now c := by
  obtain ⟨hpending, -, -, hresolve⟩ := hc
  rintro ⟨alerts', heval, a, ha, hopen, hfrom⟩
  simp only [evaluateConfigDrift, hpending, Bool.not_true, Bool.false_eq_true, if_false,
    drifted_eq_none h] at heval
  cases hex : existing alerts w .configDrift c with
  | none =>
    simp only [hex, Option.some.injEq] at heval
    subst heval
    rcases hfrom with hnew | hfound
    · exact hnew ha
    · rw [hex] at hfound
      cases hfound
  | some b =>
    simp only [hex, Option.some.injEq] at heval
    subst heval
    obtain ⟨hold, hne⟩ := not_open_of_settle hresolve ha hopen
    rcases hfrom with hnew | hfound
    · exact hnew hold
    · rw [hex] at hfound
      exact hne (Option.some.inj hfound).symm

/-- The table with one open drift alert. -/
def openDrift (w : String) : AlertTable where
  rows := [{ id := "", workloadID := w, rule := .configDrift, severity := .warning
             message := "", firedAt := 0 }]
  key_nodup := by simp

theorem existing_openDrift (hok : c.existingOk = true) :
    ∃ a ∈ (openDrift w).rows, isUnresolved w .configDrift a = true ∧
      existing (openDrift w) w .configDrift c = some a := by
  refine ⟨_, List.mem_singleton_self _, by simp [isUnresolved], ?_⟩
  simp [existing, hok, AlertTable.getUnresolvedAlertByWorkloadAndRule, KeyedTable.pick, openDrift,
    isUnresolved, Nat.mod_one]

/-- An open alert stays open while a push drifts. -/
theorem raisesOrKeepsDrift_of_drifted {q : WorkloadConfigRow} (hc : Succeeds c)
    (hq : drifted downTimeout history w now c = some q) :
    RaisesOrKeepsDrift downTimeout history (openDrift w) w now c := by
  obtain ⟨hpending, hexisting, -, -⟩ := hc
  obtain ⟨a, ha, hopen, hfound⟩ := existing_openDrift (w := w) hexisting
  refine ⟨openDrift w, ?_, a, ha, hopen, .inr hfound⟩
  simp [evaluateConfigDrift, hpending, hq, hfound]

end Drift

section Handlers

variable {v : Validator} {db : Tables} {workloads : Workloads} {w hash : String}
  {req : PrepareRequest} {c : HandlerCalls}

/-- Every finding of the validation blocks, and none is about a concurrent change. -/
theorem finding_blocks {wl : Workload} {target : WorkloadConfig} {f : RollbackFinding}
    (hf : f ∈ (buildRollbackValidation v wl target).findings) :
    f.blocking = true ∧ f.source ≠ "concurrency" := by
  simp only [buildRollbackValidation, List.mem_append, List.mem_map] at hf
  rcases hf with ((hf | hf) | hf) | ⟨e, -, rfl⟩
  · split at hf <;> simp_all [notCollectorFinding]
  · split at hf <;> simp_all [remoteConfigFinding]
  · split at hf <;> simp_all [contentFinding]
  · refine ⟨rfl, ?_⟩
    simp only [findingOf, validationSource]
    split_ifs <;> decide

theorem concurrentFinding_notMem (v : Validator) (wl : Workload) (target : WorkloadConfig) :
    concurrentFinding ∉ (buildRollbackValidation v wl target).findings :=
  fun hmem => (finding_blocks hmem).2 rfl

theorem mem_blockingReasons_prepared {selector : String} {wl : Workload} {target : ResolvedTarget}
    {concurrent : Bool} :
    concurrentFinding ∈ (prepared w selector target
      (buildRollbackValidation v wl target.config) concurrent).action.blockingReasons ↔
        concurrent = true := by
  have hnot : concurrentFinding ∉
      (splitRollbackFindings (buildRollbackValidation v wl target.config).findings).2 :=
    fun h => concurrentFinding_notMem v wl target.config (List.mem_filter.mp h).1
  cases concurrent <;> simp [prepared, hnot]

theorem exists_of_prepare_blocked {r : Prepared}
    (h : handlePrepareRollback v db workloads req c = .ok r)
    (hblocked : concurrentFinding ∈ r.action.blockingReasons) :
    ∃ q ∈ db.history.rows, isPendingOrApplying req.workloadID q = true := by
  obtain ⟨-, h⟩ := check_eq_ok.mp h
  obtain ⟨-, h⟩ := check_eq_ok.mp h
  obtain ⟨wl, -, h⟩ := bind_eq_ok.mp h
  obtain ⟨target, -, h⟩ := bind_eq_ok.mp h
  obtain ⟨-, h⟩ := check_eq_ok.mp h
  obtain ⟨-, h⟩ := check_eq_ok.mp h
  cases h
  have hc := mem_blockingReasons_prepared.mp hblocked
  exact getLatestPendingOrApplyingWorkloadConfig_isSome.mp (Bool.and_eq_true_iff.mp hc).2

theorem code_validationFailed (errors : List ValidationError) (validation : RollbackValidation) :
    (validationFailed errors validation).code ≠ "concurrent_config_change" := by
  simp only [validationFailed]
  split_ifs <;> exact ne_of_beq_false rfl

/-- A submitted rollback is refused for a concurrent change only if the query finds one. -/
theorem allErrors_checkRollback :
    AllErrors (fun e => e.code = "concurrent_config_change" →
      ∃ q ∈ db.history.rows, isPendingOrApplying w q = true)
      (checkRollback v db workloads w hash c) := by
  -- every other refusal has a code of its own
  have other {code : String} {P : Prop} (hne : code ≠ "concurrent_config_change") :
      code = "concurrent_config_change" → P := fun h => absurd h hne
  refine .bind (.require fun _ => other (by decide)) fun instances _ => ?_
  refine .check (fun _ => other (by decide)) fun _ => ?_
  refine .bind (.require fun _ => other (by decide)) fun wc _ => ?_
  refine .check (fun _ => other (show "target_not_applied" ≠ _ by decide)) fun _ => ?_
  iterate 2 refine .check (fun _ => other (by decide)) fun _ => ?_
  refine .bind (.require fun _ => other (by decide)) fun wl _ => ?_
  iterate 4 refine .check (fun _ => other (by decide)) fun _ => ?_
  refine .check (fun hs _ => getLatestPendingOrApplyingWorkloadConfig_isSome.mp hs) fun _ => ?_
  exact .check (fun _ => other (code_validationFailed _ _)) fun _ => .ok instances

theorem exists_of_refused {e : RollbackError}
    (h : (handleRollbackWorkloadConfig v db workloads w hash c).response = .refused e)
    (hcode : e.code = "concurrent_config_change") :
    ∃ q ∈ db.history.rows, isPendingOrApplying w q = true := by
  unfold handleRollbackWorkloadConfig at h
  split at h
  · next e' he =>
    cases h
    exact allErrors_checkRollback _ he hcode
  · -- past the checks only the push itself is refused
    dsimp only at h
    split at h
    · cases h
      exact absurd hcode (by decide)
    · split at h
      · cases h
        exact absurd hcode (ne_of_beq_false rfl)
      · dsimp only at h
        split at h <;> cases h

end Handlers

/-- The newest push of the workload has come to its end. -/
structure IsSettled (history : WorkloadConfigs) (w : String) (newest : WorkloadConfigRow) :
    Prop where
  mem : newest ∈ history.rows
  workloadID : newest.workloadID = w
  le : ∀ r ∈ history.rows, r.workloadID = w → r.appliedAt ≤ newest.appliedAt
  terminal : newest.status = .applied ∨ newest.status = .failed

theorem IsSettled.isPending {history : WorkloadConfigs} {w : String} {newest : WorkloadConfigRow}
    (h : IsSettled history w newest) : isPending w newest = false := by
  rcases h.terminal with hst | hst <;> simp [Push.isPending, hst]

/-- No push of the workload has an effect: an evaluation of the drift rule neither raises an alert
nor keeps one open, and neither rollback handler refuses for a concurrent change. -/
structure HasNoEffect (downTimeout : Time) (db : Tables) (w : String) : Prop where
  drift : ∀ alerts now c, Succeeds c → ¬RaisesOrKeepsDrift downTimeout db.history alerts w now c
  prepare : ∀ v workloads req c r, req.workloadID = w →
    handlePrepareRollback v db workloads req c = .ok r →
      concurrentFinding ∉ r.action.blockingReasons
  submit : ∀ v workloads hash c e,
    (handleRollbackWorkloadConfig v db workloads w hash c).response = .refused e →
      e.code ≠ "concurrent_config_change"

theorem hasNoEffect_of_forall {downTimeout : Time} {db : Tables} {w : String}
    (h : ∀ r ∈ db.history.rows, isPending w r = false) : HasNoEffect downTimeout db w := by
  have hnone : ¬∃ q ∈ db.history.rows, isPendingOrApplying w q = true := by
    rintro ⟨q, hq, hp⟩
    have hpending := isPending_of_isPendingOrApplying hp
    rw [h q hq] at hpending
    cases hpending
  refine ⟨fun alerts now c hc => not_raisesOrKeepsDrift h hc, ?_, ?_⟩
  · rintro v workloads req c r rfl hr hblocked
    exact hnone (exists_of_prepare_blocked hr hblocked)
  · intro v workloads hash c e he hcode
    exact hnone (exists_of_refused he hcode)

theorem forall_of_hasNoEffect {downTimeout : Time} {db : Tables} {w : String}
    (h : HasNoEffect downTimeout db w) : ∀ r ∈ db.history.rows, isPending w r = false := by
  intro r hr
  by_contra hp
  let c : Alerts.Calls := { id := "", resolvedAt := 0 }
  have hc : Succeeds c := ⟨rfl, rfl, rfl, rfl⟩
  obtain ⟨now, q, hq⟩ := exists_drifted hr (by simpa using hp) downTimeout c
  exact h.drift _ now c hc (raisesOrKeepsDrift_of_drifted hc hq)

/-- Behind a newest push that was applied or has failed, the older ones have no effect if and only
if none of them is still in flight. -/
theorem superseded_pushes_inert_iff (downTimeout : Time) (db : Tables) (w : String)
    (newest : WorkloadConfigRow) (hnewest : IsSettled db.history w newest) :
    HasNoEffect downTimeout db w ↔
      ∀ r ∈ db.history.rows, r ≠ newest → isPending w r = false := by
  constructor
  · intro h r hr _
    exact forall_of_hasNoEffect h r hr
  · intro h
    refine hasNoEffect_of_forall fun r hr => ?_
    by_cases he : r = newest
    · rw [he]
      exact hnewest.isPending
    · exact h r hr he

section Runs

/-- A push of `configID` that was recorded at `at_` and left in `status`. -/
def pushAt (configID : String) (at_ : Time) (status : PushStatus) : WorkloadConfigRow where
  workloadID := "w"
  configID := configID
  appliedAt := at_
  status := status

/-- Two pushes; the second one was applied. -/
def twoPushes (first : PushStatus) : WorkloadConfigs where
  rows := [pushAt "aaaaaaaaaaaaaaaa" 1 first, pushAt "bbbbbbbbbbbbbbbb" 2 .applied]
  key_nodup := by simp [pushAt, WorkloadConfigRow.key]

theorem isSettled_twoPushes (first : PushStatus) :
    IsSettled (twoPushes first) "w" (pushAt "bbbbbbbbbbbbbbbb" 2 .applied) where
  mem := by simp [twoPushes]
  workloadID := rfl
  le := by simp [twoPushes, pushAt]
  terminal := .inl rfl

def tablesOf (history : WorkloadConfigs) : Tables where
  history := history
  knownGood := fun _ => none
  content := fun _ => "receivers:"

theorem superseded_pushes_inert_iff_failed :
    HasNoEffect 5 (tablesOf (twoPushes .failed)) "w" :=
  (superseded_pushes_inert_iff 5 (tablesOf (twoPushes .failed)) "w" _
    (isSettled_twoPushes .failed)).mpr (by simp [tablesOf, twoPushes, isPending, pushAt])

def lenient : Validator where
  validate := fun _ _ => []
  validateWithRuntime := fun _ _ _ => (true, [])

def collector : Workload :=
  { Workload.zero with type := .collector, status := .connected, acceptsRemoteConfig := true }

def handlerCalls : HandlerCalls where
  scannedAt := 100
  now := 101
  sentAt := 102
  opamp := some []

/-- The first push was sent and never reported on, the second one was applied: a drift alert is
raised and stays open, and no rollback to the applied config can be submitted. -/
theorem sent_push_blocks_rollback :
    IsSettled (twoPushes .sent) "w" (pushAt "bbbbbbbbbbbbbbbb" 2 .applied) ∧
      (∃ raised kept, evaluateConfigDrift 5 (twoPushes .sent) .empty "w" 10
          { id := "alert", resolvedAt := 0 } = some raised ∧
        evaluateConfigDrift 5 (twoPushes .sent) raised "w" 1000
          { id := "other", resolvedAt := 0 } = some kept ∧
        kept.rows.any (isUnresolved "w" .configDrift) = true) ∧
      (∃ r, handlePrepareRollback lenient (tablesOf (twoPushes .sent)) (fun _ => some collector)
          ⟨"w", "bbbbbbbbbbbbbbbb", ""⟩ handlerCalls = .ok r ∧
        concurrentFinding ∈ r.action.blockingReasons) ∧
      (handleRollbackWorkloadConfig lenient (tablesOf (twoPushes .sent)) (fun _ => some collector)
        "w" "bbbbbbbbbbbbbbbb" handlerCalls).response = .refused concurrentConfigChange := by
  refine ⟨isSettled_twoPushes .sent, ?_, ?_, by decide +kernel⟩
  · refine ⟨_, _, rfl, rfl, by decide +kernel⟩
  · refine ⟨_, rfl, by decide +kernel⟩

end Runs

end OtelMagnify.Rollback
