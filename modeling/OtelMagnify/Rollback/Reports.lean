import OtelMagnify.Lib.Threads
import OtelMagnify.Rollback.Attempt

/-! Concurrent reports and the rollbacks they start. Every report of a failed push looks for a
rollback target of its own: nothing records that another report of the same push has already
been rolled back. -/
namespace OtelMagnify.Rollback
open Push StepSystem

abbrev PushKey := String × String × Time

/-- `handleRemoteConfigStatus` for one report: the statement it runs next. `origin` is the push
row that the report was stored in, the newest one of its hash. -/
inductive Reporter where
  | rowStatus (e : AgentReport)
  | instanceStatus (e : AgentReport) (origin : Option PushKey)
  | rollback (e : AgentReport) (origin : Option PushKey) (stage : RollbackStage)
  | finished (origin : Option PushKey) (pushed : Bool)
  deriving DecidableEq, Repr

/-- The tables and the reports so far, with the origin of every rollback push that was made and
of every rollback row that was recorded. -/
structure State where
  db : Tables
  reporters : List Reporter
  pushes : List (Option PushKey)
  rows : List (Option PushKey)

def State.initial (db : Tables) : State where
  db := db
  reporters := []
  pushes := []
  rows := []

def State.become (s : State) (t : ℕ) (r : Reporter) : State :=
  { s with reporters := s.reporters.set t r }

inductive Action where
  | arrive (e : AgentReport)
  | resume (t : ℕ)
  | other (history : WorkloadConfigs) (knownGood : String → Option String)

def resume (workloadID : String) (s : State) (t : ℕ) : Reporter → Option State
  | .rowStatus e =>
    let err := sanitizeRemoteConfigErrorMessage e.err
    let origin := (latestByHash s.db.history workloadID e.hash).map WorkloadConfigRow.key
    let history := (ReportCall.rowStatus e.uid e.report err).apply workloadID e.hash s.db.history
    some { s.become t (.instanceStatus e origin) with db := { s.db with history } }
  | .instanceStatus e origin =>
    let err := sanitizeRemoteConfigErrorMessage e.err
    let history := (ReportCall.instanceStatus e.uid e.report err (s.db.content e.hash) e.scanNow
      e.clock e.updatedAt).apply workloadID e.hash s.db.history
    let next := if e.report = .failed then Reporter.rollback e origin (.lookup .knownGood)
      else .finished origin false
    some { s.become t next with db := { s.db with history } }
  | .rollback e origin stage =>
    let after := stage.step s.db workloadID e true
    some
      { s.become t (after.2.elim (.finished origin !stage.isLookup) (.rollback e origin)) with
        db := after.1
        pushes := if stage.isPushing then origin :: s.pushes else s.pushes
        rows := if stage.inserts s.db workloadID e then origin :: s.rows else s.rows }
  | .finished .. => none

/-- `other` stands for every other writer of the tables, such as an operator's push. -/
def step (workloadID : String) (s : State) : Action → Option State
  | .arrive e => some { s with reporters := s.reporters ++ [.rowStatus e] }
  | .resume t => s.reporters[t]?.bind fun r => resume workloadID s t r
  | .other history knownGood => some { s with db := { s.db with history, knownGood } }

/-- The report of push `k` has started its lookup and not ended it without a target. -/
def Reporter.isEngaged (k : PushKey) : Reporter → Bool
  | rollback _ origin stage => origin = some k && stage ≠ .lookup .knownGood
  | finished origin pushed => origin = some k && pushed
  | _ => false

def Reporter.hasPushed (k : PushKey) : Reporter → Bool
  | rollback _ origin stage => origin = some k && stage.hasPushed
  | finished origin pushed => origin = some k && pushed
  | _ => false

def Reporter.hasRecorded (k : PushKey) : Reporter → Bool
  | rollback _ origin stage => origin = some k && stage.hasRecorded
  | finished origin pushed => origin = some k && pushed
  | _ => false

/-- A report starts to look for a target only when every report of the same push that has looked
for one before has ended without. -/
def looksAlone (s : State) : Action → Bool
  | .resume t =>
    match s.reporters[t]? with
    | some (.rollback _ (some k) (.lookup .knownGood)) => s.reporters.all fun r => !r.isEngaged k
    | _ => true
  | _ => true

/-- The report of push `k` is about to look for a target. -/
def Reporter.looks (k : PushKey) (r : Reporter) : Prop :=
  ∃ e, r = .rollback e (some k) (.lookup .knownGood)

/-- What a report's step does to the counts: the reporter `r` becomes `r'`, which is engaged only
if `r` was or was about to look for a target, and every push and row is accounted for. -/
structure Moves (s s' : State) (t : ℕ) (r r' : Reporter) : Prop where
  reporters : s'.reporters = s.reporters.set t r'
  engaged : ∀ k, r'.isEngaged k = true → r.isEngaged k = true ∨ r.looks k
  pushes : ∀ k, s'.pushes.count (some k) + (if r.hasPushed k then 1 else 0) ≤
    s.pushes.count (some k) + (if r'.hasPushed k then 1 else 0)
  rows : ∀ k, s'.rows.count (some k) + (if r.hasRecorded k then 1 else 0) ≤
    s.rows.count (some k) + (if r'.hasRecorded k then 1 else 0)

variable {r r' : Reporter} {s s' : State} {t : ℕ}

/-- A step that neither pushes nor records. -/
theorem Moves.quiet (hreporters : s'.reporters = s.reporters.set t r')
    (hengaged : ∀ k, r'.isEngaged k = true → r.isEngaged k = true ∨ r.looks k)
    (hpushed : ∀ k, r.hasPushed k = true → r'.hasPushed k = true)
    (hrecorded : ∀ k, r.hasRecorded k = true → r'.hasRecorded k = true)
    (hpushes : s'.pushes = s.pushes) (hrows : s'.rows = s.rows) : Moves s s' t r r' := by
  refine ⟨hreporters, hengaged, fun k => ?_, fun k => ?_⟩
  · have hk := hpushed k
    rw [hpushes]
    by_cases hr : r.hasPushed k = true <;> simp_all
  · have hk := hrecorded k
    rw [hrows]
    by_cases hr : r.hasRecorded k = true <;> simp_all

open Reporter

theorem engaged_or_looks {e : AgentReport} {k : PushKey} (stage : RollbackStage) :
    (rollback e (some k) stage).isEngaged k = true ∨ (rollback e (some k) stage).looks k := by
  by_cases h : stage = .lookup .knownGood
  · exact .inr ⟨e, by rw [h]⟩
  · exact .inl (by simpa [isEngaged] using h)

theorem resume_moves {workloadID : String}
    (h : resume workloadID s t r = some s') : ∃ r', Moves s s' t r r' := by
  cases r with
  | rowStatus e =>
    rw [← Option.some.inj h]
    exact ⟨_, .quiet rfl (by simp [isEngaged]) (by simp [hasPushed])
      (by simp [hasRecorded]) rfl rfl⟩
  | instanceStatus e origin =>
    rw [← Option.some.inj h]
    refine ⟨_, .quiet rfl (fun k hk => ?_) (by simp [hasPushed])
      (by simp [hasRecorded]) rfl rfl⟩
    split at hk <;> simp [isEngaged] at hk
  | rollback e origin stage =>
    rw [← Option.some.inj h]
    refine ⟨_, rfl, fun k hk => ?_, fun k => ?_, fun k => ?_⟩
    · obtain rfl : origin = some k := by
        generalize (stage.step s.db workloadID e true).2 = next at hk
        cases next <;> simp_all [isEngaged]
      exact engaged_or_looks stage
    · cases stage with
      | pushing target =>
        cases hok : e.pushOK <;> simp [hasPushed, RollbackStage.step, hok, List.count_cons]
      | _ => simp [hasPushed, RollbackStage.step]
    · cases stage with
      | recording target =>
        simp only [hasRecorded, RollbackStage.step, RollbackStage.hasRecorded, Option.elim_some]
        split <;> simp [List.count_cons]
      | _ => simp [hasRecorded, RollbackStage.step, RollbackStage.inserts]
  | finished origin pushed => cases h

/-- At most one report of a push is engaged, and every push and row belongs to an engaged one. -/
structure RollbackInv (s : State) : Prop where
  engaged : ∀ k, s.reporters.countP (Reporter.isEngaged k) ≤ 1
  pushes : ∀ k, s.pushes.count (some k) ≤ s.reporters.countP (Reporter.hasPushed k)
  rows : ∀ k, s.rows.count (some k) ≤ s.reporters.countP (Reporter.hasRecorded k)

theorem RollbackInv.initial (db : Tables) : RollbackInv (State.initial db) := by
  constructor <;> simp [State.initial]

theorem RollbackInv.resume (inv : RollbackInv s)
    (hat : s.reporters[t]? = some r) (hmove : Moves s s' t r r')
    (hG : ∀ k, r.looks k → ∀ q ∈ s.reporters, q.isEngaged k = false) :
    RollbackInv s' := by
  refine ⟨fun k => ?_, fun k => ?_, fun k => ?_⟩
  · have hc := Threads.countP_set_add hat r' (isEngaged k)
    have hold := inv.engaged k
    rw [hmove.reporters]
    by_cases hr' : r'.isEngaged k = true
    · rcases hmove.engaged k hr' with hr | hlooks
      · simp only [hr, hr', if_true] at hc
        omega
      · have hnone : s.reporters.countP (isEngaged k) = 0 :=
          List.countP_eq_zero.mpr fun q hq => by simp [hG k hlooks q hq]
        simp only [hr', hnone, if_true] at hc
        omega
    · simp only [hr'] at hc
      simp only [Bool.false_eq_true, if_false] at hc
      omega
  · have hc := Threads.countP_set_add hat r' (hasPushed k)
    have hp := hmove.pushes k
    have hold := inv.pushes k
    rw [hmove.reporters]
    omega
  · have hc := Threads.countP_set_add hat r' (hasRecorded k)
    have hp := hmove.rows k
    have hold := inv.rows k
    rw [hmove.reporters]
    omega

theorem RollbackInv.step {workloadID : String} {a : Action} (inv : RollbackInv s)
    (hG : looksAlone s a = true) (h : Rollback.step workloadID s a = some s') :
    RollbackInv s' := by
  cases a with
  | arrive e =>
    rw [← Option.some.inj h]
    refine ⟨fun k => ?_, fun k => ?_, fun k => ?_⟩
    · simpa [List.countP_append, isEngaged] using inv.engaged k
    · simpa [List.countP_append, hasPushed] using inv.pushes k
    · simpa [List.countP_append, hasRecorded] using inv.rows k
  | resume t =>
    obtain ⟨r, hat, hres⟩ := Option.bind_eq_some_iff.mp h
    obtain ⟨r', hmove⟩ := resume_moves hres
    refine inv.resume hat hmove ?_
    rintro k ⟨e, he⟩
    simpa [looksAlone, hat, he] using hG
  | other history knownGood =>
    rw [← Option.some.inj h]
    exact ⟨inv.engaged, inv.pushes, inv.rows⟩

/-- In every run whose reports look for a target alone, at most one rollback push is made and at
most one rollback row recorded for a push row. -/
theorem one_rollback_per_failed_push (workloadID : String) (db : Tables) (as : List Action)
    (s : State)
    (hG : Meets (step workloadID) (fun s a => looksAlone s a = true) (State.initial db) as)
    (hrun : run (step workloadID) (State.initial db) as = some s) (k : PushKey) :
    s.pushes.count (some k) ≤ 1 ∧ s.rows.count (some k) ≤ 1 := by
  have inv := run_invariant_of_meets (fun _ _ _ inv hG h => RollbackInv.step inv hG h)
    (RollbackInv.initial db) hG hrun
  -- one that has pushed or recorded is engaged, and one reporter is
  have hengaged (r : Reporter) :
      (r.hasPushed k = true → r.isEngaged k = true) ∧
        (r.hasRecorded k = true → r.isEngaged k = true) := by
    cases r with
    | rollback e origin stage =>
      cases stage <;> simp_all [hasPushed, hasRecorded, isEngaged]
    | _ => simp_all [hasPushed, hasRecorded, isEngaged]
  exact ⟨(inv.pushes k).trans
      ((List.countP_mono_left fun r _ => (hengaged r).1).trans (inv.engaged k)),
    (inv.rows k).trans ((List.countP_mono_left fun r _ => (hengaged r).2).trans (inv.engaged k))⟩

section TwoInstances

/-- The statements of a report that is rolled back, run without interruption. -/
def handled (t : ℕ) (e : AgentReport) : List Action :=
  .arrive e :: List.replicate 8 (.resume t)

/-- Two instances of the workload report that the push of `b` failed, one after the other. -/
theorem each_failed_report_rolls_back :
    ∃ s, run (step "w") (State.initial threeConfigs)
        (handled 0 (failedReport "b" 10) ++
          handled 1 { failedReport "b" 20 with uid := "j" }) = some s ∧
      s.pushes.count (some ("w", "b", 3)) = 2 ∧ s.rows.count (some ("w", "b", 3)) = 2 :=
  ⟨_, rfl, by decide, by decide⟩

theorem one_rollback_per_failed_push_two_pushes :
    ∃ s, run (step "w") (State.initial threeConfigs)
        (handled 0 (failedReport "b" 10) ++ handled 1 (failedReport "c" 20)) = some s ∧
      s.pushes.count (some ("w", "b", 3)) ≤ 1 ∧ s.rows.count (some ("w", "b", 3)) ≤ 1 :=
  ⟨_, rfl, one_rollback_per_failed_push "w" threeConfigs
    (handled 0 (failedReport "b" 10) ++ handled 1 (failedReport "c" 20)) _ (by decide) rfl
    ("w", "b", 3)⟩

end TwoInstances

end OtelMagnify.Rollback
