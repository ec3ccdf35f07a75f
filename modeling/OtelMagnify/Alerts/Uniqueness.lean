import OtelMagnify.Alerts.Engine
import OtelMagnify.Lib.StepSystem

/-! No rule of the engine has two open alerts for one workload, as long as no lookup fails that
would have found one. -/
namespace OtelMagnify.Alerts
open Push StepSystem

/-- Of each of the three rules at most one alert is open for a workload. -/
def Unique (alerts : AlertTable) : Prop :=
  ∀ workloadID rule, rule ≠ .canaryStop →
    alerts.rows.countP (isUnresolved workloadID rule) ≤ 1

def NoneOpen (alerts : AlertTable) (workloadID : String) (rule : Rule) : Prop :=
  ∀ a ∈ alerts.rows, isUnresolved workloadID rule a = false

/-- The condition of a step: a lookup whose error the engine drops may fail only when it would
have found nothing, or when the rule does not hold. -/
def Engine.Guarded (e : Engine) (alerts : AlertTable) : Evaluation → Prop
  | .workloadDown .. => True
  | .configDrift w history now c =>
    c.existingOk = true ∨ NoneOpen alerts w.id .configDrift ∨
      drifted e.downTimeout history w.id now c = none
  | .versionOutdated w _ c =>
    c.existingOk = true ∨ NoneOpen alerts w.id .versionOutdated ∨
      isOutdated e.minVersion w.version ≠ some true

instance (e : Engine) (alerts : AlertTable) : DecidablePred (e.Guarded alerts)
  | .workloadDown .. => isTrue trivial
  | .configDrift .. => inferInstanceAs (Decidable (_ ∨ (∀ a ∈ alerts.rows, _) ∨ _))
  | .versionOutdated .. => inferInstanceAs (Decidable (_ ∨ (∀ a ∈ alerts.rows, _) ∨ _))

section Steps

variable {alerts : AlertTable} {c : Calls} {w : WatchedWorkload} {now : Time}

theorem noneOpen_of_lookup {workloadID : String} {rule : Rule} {tie : ℕ}
    (h : alerts.getUnresolvedAlertByWorkloadAndRule tie workloadID rule = none) :
    NoneOpen alerts workloadID rule :=
  KeyedTable.pick_eq_none_iff.mp h

/-- An alert that is raised without an open one is the only open one. -/
theorem Unique.raise {a : Alert} (h : Unique alerts) (hnone : NoneOpen alerts a.workloadID a.rule) :
    Unique (raise alerts c a) := by
  unfold Alerts.raise
  split
  · cases hcreate : alerts.createAlert a with
    | none => exact h
    | some created =>
      intro workloadID rule hrule
      rw [Option.getD_some, KeyedTable.insert_rows hcreate, List.countP_append]
      by_cases hpair : a.workloadID = workloadID ∧ a.rule = rule
      · obtain ⟨rfl, rfl⟩ := hpair
        have hzero : alerts.rows.countP (isUnresolved a.workloadID a.rule) = 0 :=
          List.countP_eq_zero.mpr fun b hb => Bool.not_eq_true _ ▸ hnone b hb
        rw [hzero, Nat.zero_add]
        exact List.countP_le_length
      · have hother : isUnresolved workloadID rule { a with resolvedAt := none } = false := by
          simp only [isUnresolved, Option.isNone_none, Bool.and_true, Bool.and_eq_false_iff,
            decide_eq_false_iff_not]
          exact not_and_or.mp hpair
        simpa [hother] using h workloadID rule hrule
  · exact h

theorem Unique.settle {a : Alert} (h : Unique alerts) : Unique (settle alerts c a) := by
  unfold Alerts.settle
  split
  · intro workloadID rule hrule
    rw [AlertTable.resolveAlert, KeyedTable.update_rows, List.countP_map]
    refine (List.countP_mono_left fun b _ hb => ?_).trans (h workloadID rule hrule)
    rw [Function.comp_apply] at hb
    split at hb
    · simp [isUnresolved] at hb
    · exact hb
  · exact h

theorem Unique.evaluateWorkloadDown {downTimeout : Time} (h : Unique alerts) :
    Unique (evaluateWorkloadDown downTimeout alerts w now c) := by
  unfold Alerts.evaluateWorkloadDown
  split
  · exact h
  · split
    · next hlookup => exact h.raise (noneOpen_of_lookup hlookup)
    · exact h.settle
    · exact h

theorem noneOpen_of_existing {workloadID : String} {rule : Rule} (hc : c.existingOk = true)
    (h : existing alerts workloadID rule c = none) : NoneOpen alerts workloadID rule := by
  rw [existing, if_pos hc] at h
  exact noneOpen_of_lookup h

theorem Unique.evaluateConfigDrift {downTimeout : Time} {history : WorkloadConfigs}
    {alerts' : AlertTable} (h : Unique alerts)
    (hguard : c.existingOk = true ∨ NoneOpen alerts w.id .configDrift ∨
      drifted downTimeout history w.id now c = none)
    (hs : evaluateConfigDrift downTimeout history alerts w.id now c = some alerts') :
    Unique alerts' := by
  unfold Alerts.evaluateConfigDrift at hs
  split at hs
  · cases hs
    exact h
  split at hs
  · next pending hdrift hlookup =>
    have hnone : NoneOpen alerts w.id .configDrift := by
      rcases hguard with hok | hnone | hnot
      · exact noneOpen_of_existing hok hlookup
      · exact hnone
      · rw [hdrift] at hnot
        cases hnot
    obtain ⟨a, ha, rfl⟩ := Option.map_eq_some_iff.mp hs
    unfold driftAlert at ha
    split at ha
    · cases ha
    · cases ha
      exact h.raise hnone
  · cases hs
    exact h.settle
  · cases hs
    exact h

theorem Unique.evaluateVersionOutdated {minVersion : String} (h : Unique alerts)
    (hguard : c.existingOk = true ∨ NoneOpen alerts w.id .versionOutdated ∨
      isOutdated minVersion w.version ≠ some true) :
    Unique (evaluateVersionOutdated minVersion alerts w now c) := by
  unfold Alerts.evaluateVersionOutdated
  split
  · exact h
  · next outdated hold =>
    split
    · next hlookup =>
      rcases hguard with hok | hnone | hnot
      · exact h.raise (noneOpen_of_existing hok hlookup)
      · exact h.raise hnone
      · exact absurd hold hnot
    · exact h.settle
    · exact h

theorem Unique.step {e : Engine} {alerts' : AlertTable} {evaluation : Evaluation}
    (h : Unique alerts) (hguard : e.Guarded alerts evaluation)
    (hs : e.step alerts evaluation = some alerts') : Unique alerts' := by
  cases evaluation with
  | workloadDown w now c =>
    cases hs
    exact h.evaluateWorkloadDown
  | configDrift w history now c => exact h.evaluateConfigDrift hguard hs
  | versionOutdated w now c =>
    cases hs
    exact h.evaluateVersionOutdated hguard

end Steps

/-- At every moment of any sequence of evaluations, over workloads and histories that change in
any way between two rules, each workload has at most one open alert of each rule, if every lookup
whose error is dropped meets the condition. -/
theorem alert_uniqueness (e : Engine) (alerts₀ alerts : AlertTable)
    (calls : List (Time × List Pass)) (moment : ℕ) (h₀ : Unique alerts₀)
    (hmeets : Meets e.step e.Guarded alerts₀ ((evaluations calls).take moment))
    (hrun : run e.step alerts₀ ((evaluations calls).take moment) = some alerts) : Unique alerts :=
  run_invariant_of_meets (fun _ _ _ h hguard hs => h.step hguard hs) h₀ hmeets hrun

section Runs

def watched (version : String) : WatchedWorkload where
  id := "w"
  version := version
  lastSeenAt := 100

def passOf (version id : String) (existingOk : Bool) : Pass where
  workload := watched version
  history := .empty
  down := { id := "down-" ++ id, resolvedAt := 0 }
  drift := { id := "drift-" ++ id, resolvedAt := 0 }
  outdated := { id := "outdated-" ++ id, resolvedAt := 0, existingOk }

def engine : Engine where
  downTimeout := 1000
  minVersion := "0.95.0"

/-- Two evaluations of an outdated workload; the second lookup of the version rule fails or
not. -/
def twoCalls (existingOk : Bool) : List (Time × List Pass) :=
  [(200, [passOf "0.90.0" "a" true]), (300, [passOf "0.90.0" "b" existingOk])]

theorem alert_uniqueness_outdated :
    ∃ alerts, run engine.step .empty ((evaluations (twoCalls true)).take 6) = some alerts ∧
      Unique alerts ∧ alerts.rows.countP (isUnresolved "w" .versionOutdated) = 1 := by
  obtain ⟨alerts, hrun, hone⟩ : ∃ alerts,
      run engine.step .empty ((evaluations (twoCalls true)).take 6) = some alerts ∧
        alerts.rows.countP (isUnresolved "w" .versionOutdated) = 1 := by decide +kernel
  refine ⟨alerts, hrun, ?_, hone⟩
  exact alert_uniqueness engine .empty alerts (twoCalls true) 6 (fun _ _ _ => Nat.zero_le 1)
    (by decide +kernel) hrun

/-- The second lookup of the version rule fails: the engine takes the alert that is open for none
and raises another one. -/
theorem failed_lookup_raises_twice :
    ∃ alerts, run engine.step .empty ((evaluations (twoCalls false)).take 6) = some alerts ∧
      alerts.rows.countP (isUnresolved "w" .versionOutdated) = 2 := by
  decide +kernel

end Runs

end OtelMagnify.Alerts
