import OtelMagnify.Lib.StepSystem
import OtelMagnify.Rollback.Target

/-! The chain of automatic rollbacks that a failed push starts. Reports are handled one after
the other and no operator interferes. The target query excludes the hash that failed last, while
older rows of hashes that failed before it keep the status `applied`. -/
namespace OtelMagnify.Rollback
open Push StepSystem

/-- A report of `uid` on the config `hash`, and what the environment decides while it is handled:
the clocks, the tie among equally new rows, whether `pushFn` succeeds, the live instances. -/
structure AgentReport where
  uid : String
  hash : String
  report : Report
  err : String
  scanNow : Time
  clock : Time
  updatedAt : Time
  tie : ℕ
  pushOK : Bool
  now : Time
  instances : List PushTarget
  sentAt : Time
  deriving DecidableEq, Repr

def AgentReport.calls (e : AgentReport) (content : String) : List ReportCall :=
  let err := sanitizeRemoteConfigErrorMessage e.err
  [.rowStatus e.uid e.report err,
   .instanceStatus e.uid e.report err content e.scanNow e.clock e.updatedAt]

def storeReport (db : Tables) (workloadID : String) (e : AgentReport) : Tables :=
  { db with
    history :=
      (e.calls (db.content e.hash)).foldl (ReportCall.apply workloadID e.hash) db.history }

/-- The target that `attemptAutoRollback` hands to `pushFn`. -/
def rollbackTargetOf (db : Tables) (workloadID : String) (e : AgentReport) :
    Option RollbackTarget :=
  (getRollbackTarget db e.tie workloadID e.hash).filter (RollbackTarget.isPushable e.hash)

def finishRollback (db : Tables) (workloadID : String) (e : AgentReport)
    (target : RollbackTarget) : Tables :=
  let p := rollbackPush workloadID e.hash target e.now e.instances
  markRollbackSent (recordRollback db p) p e.sentAt

/-- A rollback push, with the hashes reported failed up to then. -/
structure RollbackPush where
  hash : String
  failedBefore : List String
  deriving DecidableEq, Repr

structure Chain where
  db : Tables
  failed : List String
  pushes : List RollbackPush

def Chain.start (db : Tables) : Chain where
  db := db
  failed := []
  pushes := []

def Chain.handleRemoteConfigStatus (workloadID : String) (c : Chain) (e : AgentReport) : Chain :=
  let db := storeReport c.db workloadID e
  if e.report = .failed then
    let failed := e.hash :: c.failed
    match rollbackTargetOf db workloadID e with
    | none => { c with db, failed }
    | some target =>
      { db := if e.pushOK then finishRollback db workloadID e target else db
        failed
        pushes := { hash := target.configID, failedBefore := failed } :: c.pushes }
  else { c with db }

def Chain.step (workloadID : String) (c : Chain) (e : AgentReport) : Option Chain :=
  some (c.handleRemoteConfigStatus workloadID e)

/-- A `FAILED` report is the first one for a hash of the history, and no hash that failed before
it can be chosen again: it is not the known-good config or, without one, has no applied row. -/
def failsAfresh (workloadID : String) (c : Chain) (e : AgentReport) : Bool :=
  e.report ≠ .failed ||
    (e.hash ∉ c.failed && (c.db.history.rows.any (isPushOf workloadID e.hash)) &&
      match getLatestKnownGoodWorkloadConfig c.db workloadID with
      | some kg => kg.configID ∉ c.failed
      | none => c.db.history.rows.all fun r => !isApplied workloadID r || r.configID ∉ c.failed)

variable {c : Chain} {e : AgentReport} {workloadID : String}

section StoreReport

variable {db : Tables} {workloadID : String} {e : AgentReport}

theorem knownGood_storeReport (db : Tables) (workloadID : String) (e : AgentReport) :
    (getLatestKnownGoodWorkloadConfig (storeReport db workloadID e) workloadID).map (·.configID) =
      (getLatestKnownGoodWorkloadConfig db workloadID).map (·.configID) := by
  cases hk : db.knownGood workloadID with
  | none => simp [getLatestKnownGoodWorkloadConfig, storeReport, hk]
  | some k =>
    have hkey := latestByHash_foldl_apply_key workloadID e.hash workloadID k
      (e.calls (db.content e.hash)) db.history
    have hid := congrArg (Option.map fun key : String × String × Time => key.2.1) hkey
    simpa [getLatestKnownGoodWorkloadConfig, storeReport, hk, Function.comp_def,
      WorkloadConfigRow.key] using hid

/-- What is pushed next did not fail before, when the report fails afresh. -/
theorem target_not_failed {target : RollbackTarget}
    (hG : failsAfresh workloadID c e = true) (hfailed : e.report = .failed)
    (h : rollbackTargetOf (storeReport c.db workloadID e) workloadID e = some target) :
    target.configID ∉ e.hash :: c.failed := by
  simp only [failsAfresh, hfailed, Bool.and_eq_true, ne_eq, not_true_eq_false, decide_false,
    Bool.false_or] at hG
  obtain ⟨-, hsafe⟩ := hG
  have htarget := (Option.filter_eq_some_iff.mp h).1
  have hkg := knownGood_storeReport c.db workloadID e
  rcases getRollbackTarget_spec htarget with ⟨kg, hrow, hid, hne⟩ | ⟨hnone, r, hr, happ, hid, hne⟩
  · rw [hrow, Option.map_some] at hkg
    obtain ⟨kg₀, hrow₀, hid₀⟩ := Option.map_eq_some_iff.mp hkg.symm
    have hmem : kg₀.configID ∉ c.failed := by simpa [hrow₀] using hsafe
    rw [List.mem_cons, not_or]
    exact ⟨hne, by rw [← hid, ← hid₀]; exact hmem⟩
  · rw [hnone, Option.map_none] at hkg
    have hrow₀ := Option.map_eq_none_iff.mp hkg.symm
    have hr₀ := mem_of_mem_foldl_apply hr (hid ▸ hne)
    rw [hrow₀] at hsafe
    have hmem : r.configID ∉ c.failed := by
      have := List.all_eq_true.mp hsafe r hr₀
      simpa [happ] using this
    rw [List.mem_cons, not_or]
    exact ⟨hne, hid ▸ hmem⟩

end StoreReport

theorem hashes_storeReport (db : Tables) (workloadID : String) (e : AgentReport) :
    hashes (storeReport db workloadID e) workloadID = hashes db workloadID :=
  hashes_eq_of_keys (foldl_apply_keys ..) workloadID

theorem hashes_finishRollback {db : Tables}
    {target : RollbackTarget} (h : target.configID ∈ hashes db workloadID) :
    hashes (finishRollback db workloadID e target) workloadID = hashes db workloadID := by
  let p := rollbackPush workloadID e.hash target e.now e.instances
  calc hashes (finishRollback db workloadID e target) workloadID
      = hashes (recordRollback db p) workloadID := hashes_markRollbackSent _ p e.sentAt workloadID
    _ = hashes db workloadID := hashes_recordRollback (p := p) h

/-- Every failed hash is a hash of the history, and has started at most one push, to a hash
that had not failed. -/
structure ChainInv (workloadID : String) (db₀ : Tables) (c : Chain) : Prop where
  nodup : c.failed.Nodup
  mem_hashes : ∀ h ∈ c.failed, h ∈ hashes db₀ workloadID
  hashes_eq : hashes c.db workloadID = hashes db₀ workloadID
  count : c.pushes.length ≤ c.failed.length
  fresh : ∀ p ∈ c.pushes, p.hash ∉ p.failedBefore

theorem ChainInv.start (workloadID : String) (db : Tables) :
    ChainInv workloadID db (Chain.start db) := by
  constructor <;> simp [Chain.start]

/-- A first `FAILED` report adds its hash to the ones that failed. -/
theorem ChainInv.fail {db₀ : Tables}
    (inv : ChainInv workloadID db₀ c) (hG : failsAfresh workloadID c e = true)
    (hfailed : e.report = .failed) :
    (e.hash :: c.failed).Nodup ∧ ∀ h ∈ e.hash :: c.failed, h ∈ hashes db₀ workloadID := by
  simp only [failsAfresh, hfailed, Bool.and_eq_true, ne_eq, not_true_eq_false, decide_false,
    Bool.false_or] at hG
  obtain ⟨⟨hnew, hany⟩, -⟩ := hG
  have hmem : e.hash ∈ hashes c.db workloadID := Rollback.mem_hashes.mpr (by simpa using hany)
  refine ⟨List.nodup_cons.mpr ⟨of_decide_eq_true hnew, inv.nodup⟩, fun h hh => ?_⟩
  rcases List.mem_cons.mp hh with rfl | hh
  · exact inv.hashes_eq ▸ hmem
  · exact inv.mem_hashes h hh

theorem ChainInv.step {db₀ : Tables} {c' : Chain}
    (inv : ChainInv workloadID db₀ c) (hG : failsAfresh workloadID c e = true)
    (h : c.step workloadID e = some c') : ChainInv workloadID db₀ c' := by
  rw [← Option.some.inj h]
  have hstore : hashes (storeReport c.db workloadID e) workloadID = hashes db₀ workloadID :=
    (hashes_storeReport c.db workloadID e).trans inv.hashes_eq
  by_cases hfailed : e.report = .failed
  · obtain ⟨hnodup, hmem⟩ := inv.fail hG hfailed
    rw [Chain.handleRemoteConfigStatus, if_pos hfailed]
    split
    · exact ⟨hnodup, hmem, hstore, by simpa using inv.count.trans (Nat.le_succ _), inv.fresh⟩
    · rename_i target htarget
      refine ⟨hnodup, hmem, ?_, by simpa using inv.count, fun p hp => ?_⟩
      · dsimp only
        split
        · have hin := getRollbackTarget_mem_hashes (Option.filter_eq_some_iff.mp htarget).1
          exact (hashes_finishRollback hin).trans hstore
        · exact hstore
      · rcases List.mem_cons.mp hp with rfl | hp
        · exact target_not_failed hG hfailed htarget
        · exact inv.fresh p hp
  · rw [Chain.handleRemoteConfigStatus, if_neg hfailed]
    exact ⟨inv.nodup, inv.mem_hashes, hstore, inv.count, inv.fresh⟩

/-- In every sequence of reports that fail afresh, no rollback goes to a hash that was reported
failed before, and there are at most as many rollbacks as hashes in the history. -/
theorem rollback_never_returns_to_failed (workloadID : String) (db : Tables)
    (es : List AgentReport) (c : Chain)
    (hG : Meets (Chain.step workloadID) (fun c e => failsAfresh workloadID c e = true)
      (Chain.start db) es)
    (hrun : run (Chain.step workloadID) (Chain.start db) es = some c) :
    (∀ p ∈ c.pushes, p.hash ∉ p.failedBefore) ∧
      c.pushes.length ≤ (hashes db workloadID).card := by
  have inv := run_invariant_of_meets (fun _ _ _ inv hG h => ChainInv.step inv hG h)
    (ChainInv.start workloadID db) hG hrun
  refine ⟨inv.fresh, ?_⟩
  have hsub : c.failed.toFinset ⊆ hashes db workloadID := by
    intro h hh
    exact inv.mem_hashes h (List.mem_toFinset.mp hh)
  calc c.pushes.length ≤ c.failed.length := inv.count
    _ = c.failed.toFinset.card := (List.toFinset_card_of_nodup inv.nodup).symm
    _ ≤ (hashes db workloadID).card := Finset.card_le_card hsub

section PingPong

def appliedRow (configID : String) (appliedAt : Time) : WorkloadConfigRow where
  workloadID := "w"
  configID := configID
  appliedAt := appliedAt
  status := .applied

def threeConfigs : Tables where
  history := ⟨[appliedRow "a" 1, appliedRow "c" 2, { appliedRow "b" 3 with status := .sent }],
    by decide⟩
  knownGood := fun _ => none
  content := fun hash => hash

def failedReport (hash : String) (at_ : Time) : AgentReport where
  uid := "i"
  hash := hash
  report := .failed
  err := "boom"
  scanNow := at_
  clock := at_
  updatedAt := at_
  tie := 0
  pushOK := true
  now := at_ + 1
  instances := [{ instanceUID := "i", podName := "pod-i" }]
  sentAt := at_ + 2

/-- `b` fails, then `c`, then `a`, and `c` is pushed again: its older row is still `applied`. -/
theorem rollback_returns_to_failed :
    ∃ c p, run (Chain.step "w") (Chain.start threeConfigs)
        [failedReport "b" 10, failedReport "c" 20, failedReport "a" 30] = some c ∧
      p ∈ c.pushes ∧ p.hash = "c" ∧ "c" ∈ p.failedBefore :=
  ⟨_, ⟨"c", ["a", "c", "b"]⟩, rfl, by decide, rfl, by decide⟩

theorem rollback_never_returns_to_failed_twice :
    ∃ c, run (Chain.step "w") (Chain.start threeConfigs)
        [failedReport "b" 10, failedReport "c" 20] = some c ∧
      (∀ p ∈ c.pushes, p.hash ∉ p.failedBefore) ∧
      c.pushes.length ≤ (hashes threeConfigs "w").card :=
  ⟨_, rfl, rollback_never_returns_to_failed "w" threeConfigs
    [failedReport "b" 10, failedReport "c" 20] _ (by decide) rfl⟩

end PingPong

end OtelMagnify.Rollback
