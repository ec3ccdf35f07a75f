import OtelMagnify.Push.Store
import OtelMagnify.Version.Compare

/-! The alert engine of `internal/alerts/engine.go` and the `alerts` table. A rule is evaluated
against what the store says now: a condition that holds without an open alert raises one, and an
open alert whose condition does not hold is resolved. -/
namespace OtelMagnify.Alerts
open Push

/-- The rules of the engine, and the one whose alerts a canary reads. -/
inductive Rule where
  | workloadDown | configDrift | versionOutdated | canaryStop
  deriving DecidableEq, Repr

inductive Severity where
  | warning | critical
  deriving DecidableEq, Repr

structure Alert where
  id : String
  workloadID : String
  rule : Rule
  severity : Severity
  message : String
  firedAt : Time
  resolvedAt : Option Time := none
  deriving DecidableEq, Repr

abbrev AlertTable := KeyedTable Alert.id

/-- `workload_id = ? AND rule = ? AND resolved_at IS NULL`. -/
def isUnresolved (workloadID : String) (rule : Rule) (a : Alert) : Bool :=
  a.workloadID = workloadID && a.rule = rule && a.resolvedAt.isNone

namespace AlertTable

def getUnresolvedAlertByWorkloadAndRule (alerts : AlertTable) (tie : ℕ) (workloadID : String)
    (rule : Rule) : Option Alert :=
  alerts.pick tie (isUnresolved workloadID rule)

/-- `CreateAlert`; `none` when the id is taken. -/
def createAlert (alerts : AlertTable) (a : Alert) : Option AlertTable :=
  alerts.insert { a with resolvedAt := none }

def resolveAlert (alerts : AlertTable) (id : String) (at_ : Time) : AlertTable :=
  alerts.update (fun a => a.id = id) (fun a => { a with resolvedAt := some at_ }) fun _ => rfl

end AlertTable

/-- The digits of `v / 10 ^ prec` after the point, without trailing zeros, and the whole part. -/
def fmtFrac (v : ℕ) : ℕ → List Char → List Char × ℕ
  | 0, digits => (if digits = [] then [] else '.' :: digits, v)
  | prec + 1, digits =>
    let digit := v % 10
    fmtFrac (v / 10) prec
      (if digits = [] ∧ digit = 0 then [] else Nat.digitChar digit :: digits)

/-- `Duration.String` -/
def durationString (d : Time) : String :=
  let u := d.natAbs
  let sign := if d < 0 then "-" else ""
  let small := fun (prec : ℕ) (unit : String) =>
    let (frac, whole) := fmtFrac u prec []
    sign ++ toString whole ++ String.ofList frac ++ unit
  if u = 0 then "0s"
  else if u < 1000 then small 0 "ns"
  else if u < 1000000 then small 3 "µs"
  else if u < 1000000000 then small 6 "ms"
  else
    let (frac, s) := fmtFrac u 9 []
    let seconds := toString (s % 60) ++ String.ofList frac ++ "s"
    if s < 60 then sign ++ seconds
    else if s < 3600 then sign ++ toString (s / 60) ++ "m" ++ seconds
    else sign ++ toString (s / 3600) ++ "h" ++ toString (s / 60 % 60) ++ "m" ++ seconds

/-- What the environment decides while a rule is evaluated: which store calls succeed, which row
a query without a total order returns, the id that is drawn and the clock of the store. -/
structure Calls where
  pendingOk : Bool := true
  existingOk : Bool := true
  createOk : Bool := true
  resolveOk : Bool := true
  pendingTie : ℕ := 0
  existingTie : ℕ := 0
  id : String
  resolvedAt : Time
  deriving DecidableEq, Repr

def getLatestPendingWorkloadConfig (history : WorkloadConfigs) (tie : ℕ) (workloadID : String) :
    Option WorkloadConfigRow :=
  history.newestAt tie (isPending workloadID) WorkloadConfigRow.appliedAt

/-- The alert of a drifted workload. The message has the first twelve bytes of the config id, which
are characters, as the id is a hex text: the slice of a shorter one panics. -/
def driftAlert (downTimeout : Time) (workloadID : String) (now : Time) (id : String)
    (pending : WorkloadConfigRow) : Option Alert :=
  if pending.configID.length < 12 then none
  else some
    { id, workloadID, rule := .configDrift, severity := .warning
      message := "Workload " ++ workloadID ++ " has not applied config " ++
        String.ofList (pending.configID.toList.take 12) ++ " after " ++
        durationString downTimeout
      firedAt := now }

/-- A failed `CreateAlert` is logged. -/
def raise (alerts : AlertTable) (c : Calls) (a : Alert) : AlertTable :=
  if c.createOk then (alerts.createAlert a).getD alerts else alerts

/-- A failed `ResolveAlert` is logged. -/
def settle (alerts : AlertTable) (c : Calls) (a : Alert) : AlertTable :=
  if c.resolveOk then alerts.resolveAlert a.id c.resolvedAt else alerts

/-- The push that has been in flight for longer than the timeout. -/
def drifted (downTimeout : Time) (history : WorkloadConfigs) (workloadID : String) (now : Time)
    (c : Calls) : Option WorkloadConfigRow :=
  (getLatestPendingWorkloadConfig history c.pendingTie workloadID).filter fun pending =>
    downTimeout < now - pending.appliedAt

/-- The open alert as the engine sees it: an error of the lookup is dropped. -/
def existing (alerts : AlertTable) (workloadID : String) (rule : Rule) (c : Calls) :
    Option Alert :=
  if c.existingOk then alerts.getUnresolvedAlertByWorkloadAndRule c.existingTie workloadID rule
  else none

/-- `evaluateConfigDrift`; `none` when it panics. -/
def evaluateConfigDrift (downTimeout : Time) (history : WorkloadConfigs) (alerts : AlertTable)
    (workloadID : String) (now : Time) (c : Calls) : Option AlertTable :=
  if !c.pendingOk then some alerts
  else
    match drifted downTimeout history workloadID now c,
      existing alerts workloadID .configDrift c with
    | some pending, none =>
      (driftAlert downTimeout workloadID now c.id pending).map (raise alerts c)
    | none, some a => some (settle alerts c a)
    | _, _ => some alerts

structure WatchedWorkload where
  id : String
  version : String
  lastSeenAt : Time
  deriving DecidableEq, Repr

/-- `evaluateWorkloadDown`; the one rule that does nothing when its lookup fails. -/
def evaluateWorkloadDown (downTimeout : Time) (alerts : AlertTable) (w : WatchedWorkload)
    (now : Time) (c : Calls) : AlertTable :=
  if !c.existingOk then alerts
  else
    match decide (downTimeout < now - w.lastSeenAt),
      alerts.getUnresolvedAlertByWorkloadAndRule c.existingTie w.id .workloadDown with
    | true, none =>
      raise alerts c
        { id := c.id, workloadID := w.id, rule := .workloadDown, severity := .critical
          message := "Workload " ++ w.id ++ " not seen for " ++ durationString downTimeout
          firedAt := now }
    | false, some a => settle alerts c a
    | _, _ => alerts

/-- Whether a version is outdated, none when that is not known. -/
def isOutdated (minVersion version : String) : Option Bool :=
  if minVersion = "" ∨ version = "" then none
  else (Version.compare? version minVersion).map (· = .lt)

def evaluateVersionOutdated (minVersion : String) (alerts : AlertTable) (w : WatchedWorkload)
    (now : Time) (c : Calls) : AlertTable :=
  match isOutdated minVersion w.version with
  | none => alerts
  | some outdated =>
    match outdated, existing alerts w.id .versionOutdated c with
    | true, none =>
      raise alerts c
        { id := c.id, workloadID := w.id, rule := .versionOutdated, severity := .warning
          message := "Workload " ++ w.id ++ " version " ++ w.version ++ " is below minimum " ++
            minVersion
          firedAt := now }
    | false, some a => settle alerts c a
    | _, _ => alerts

structure Engine where
  downTimeout : Time
  minVersion : String
  deriving DecidableEq, Repr

inductive Evaluation where
  | workloadDown (w : WatchedWorkload) (now : Time) (c : Calls)
  | configDrift (w : WatchedWorkload) (history : WorkloadConfigs) (now : Time) (c : Calls)
  | versionOutdated (w : WatchedWorkload) (now : Time) (c : Calls)

def Engine.step (e : Engine) (alerts : AlertTable) : Evaluation → Option AlertTable
  | .workloadDown w now c => some (evaluateWorkloadDown e.downTimeout alerts w now c)
  | .configDrift w history now c => evaluateConfigDrift e.downTimeout history alerts w.id now c
  | .versionOutdated w now c => some (evaluateVersionOutdated e.minVersion alerts w now c)

/-- One pass of the loop of `Evaluate`: a listed workload, the push history at the time of its
drift rule, and what the environment decides for each rule. -/
structure Pass where
  workload : WatchedWorkload
  history : WorkloadConfigs
  down : Calls
  drift : Calls
  outdated : Calls

def Pass.evaluations (now : Time) (p : Pass) : List Evaluation :=
  [.workloadDown p.workload now p.down, .configDrift p.workload p.history now p.drift,
    .versionOutdated p.workload now p.outdated]

/-- The rules that a call of `Evaluate` goes through, of the workloads that were listed: those of
the pages before the first one that failed, or all of them. -/
def evaluate (now : Time) (passes : List Pass) : List Evaluation :=
  passes.flatMap (Pass.evaluations now)

def evaluations (calls : List (Time × List Pass)) : List Evaluation :=
  calls.flatMap fun call => evaluate call.1 call.2

end OtelMagnify.Alerts
