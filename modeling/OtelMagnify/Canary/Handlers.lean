import OtelMagnify.Canary.Status
import OtelMagnify.Lib.Pool
import Mathlib.Data.List.Sort

/-! The canary handlers of `internal/api/workload_canary.go`. A handler reads the canary, changes
its copy in memory and writes every column back; reports, alerts and other requests come between
any two of its calls. -/
namespace OtelMagnify.Canary
open Push (Time Report sanitizeRemoteConfigErrorMessage)

structure Instance where
  instanceUID : String
  healthy : Bool := true
  lastMessageAt : Time
  acceptsRemoteConfig : Bool := true
  remoteConfigCapabilityKnown : Bool := true
  deriving DecidableEq, Repr

def canaryHeartbeatFreshness : Time := 120000000000

namespace Instance

def isFresh (inst : Instance) (now : Time) : Bool :=
  inst.lastMessageAt ≠ 0 && now - inst.lastMessageAt ≤ canaryHeartbeatFreshness

def rejectsRemoteConfig (inst : Instance) : Bool :=
  inst.remoteConfigCapabilityKnown && !inst.acceptsRemoteConfig

def isEligible (inst : Instance) (now : Time) : Bool :=
  !inst.rejectsRemoteConfig && inst.healthy && inst.isFresh now

end Instance

/-- `byUID`; the last instance with a uid wins. -/
def byUID (instances : List Instance) (uid : String) : Option Instance :=
  instances.reverse.find? (·.instanceUID = uid)

def eligibleRemainingTargets (instances : List Instance) (selected : List String) (now : Time) :
    List String :=
  ((instances.filter fun inst => inst.instanceUID ∉ selected && inst.isEligible now).map
    Instance.instanceUID).insertionSort (· ≤ ·)

/-- What `loadCanaryWithHealth` finds about the instance of a target. -/
def CanaryTarget.stopCause (instances : List Instance) (now : Time) (t : CanaryTarget) :
    Option StopReason :=
  let inst := byUID instances t.instanceUID
  if inst.any (!·.healthy) then some .collectorDegraded
  else if inst.all (!·.isFresh now) then some .noHeartbeat
  else none

def CanaryTarget.examine (instances : List Instance) (now : Time) (t : CanaryTarget) :
    CanaryTarget :=
  { t with stopReason := (t.stopCause instances now).or t.stopReason }

def appendUnique {α : Type*} [DecidableEq α] (items : List α) (item : α) : List α :=
  if item ∈ items then items else items ++ [item]

namespace CanaryStatus

def markCanaryStop (reason : StopReason) (now : Time) (c : CanaryStatus) : CanaryStatus :=
  { c with
    stopReasons := appendUnique c.stopReasons reason
    status := .stopped
    updatedAt := now }

def markCanaryTargetFailed (uid : String) (reason : StopReason) (now : Time) (c : CanaryStatus) :
    CanaryStatus :=
  { c with
    targets := c.targets.map fun (t : CanaryTarget) =>
      if t.instanceUID = uid then
        { t with status := .failed, stopReason := some reason, updatedAt := now }
      else t : CanaryStatus }.recount

def isDegraded (instances : List Instance) (now : Time) (c : CanaryStatus) : Bool :=
  c.targets.any fun t => (t.stopCause instances now).isSome

/-- The copy of `loadCanaryWithHealth` at its `Recount`. -/
def examined (instances : List Instance) (alert : Bool) (now : Time) (c : CanaryStatus) :
    CanaryStatus :=
  let c' : CanaryStatus := { c with targets := c.targets.map (.examine instances now) }
  (if alert then c'.markCanaryStop .alertTriggered now else c').recount

/-- The copy of `loadCanaryWithHealth` after its checks, and whether it is written back. -/
def withHealth (instances : List Instance) (alert : Bool) (now : Time) (c : CanaryStatus) :
    CanaryStatus × Bool :=
  let e := c.examined instances alert now
  let stops := e.stopReasons ≠ [] && e.status = .running
  let checked := if stops then { e with status := .stopped } else e
  let changed := c.isDegraded instances now || alert || stops
  (if changed then { checked with updatedAt := now } else checked, changed)

section WithHealth

variable (instances : List Instance) (alert : Bool) (now : Time) (c : CanaryStatus)

@[simp] theorem id_withHealth : (c.withHealth instances alert now).1.id = c.id := by
  have hid : (c.examined instances alert now).id = c.id := by
    unfold examined
    cases alert <;> rfl
  unfold withHealth
  dsimp only
  split <;> split <;> exact hid

theorem workloadID_withHealth :
    (c.withHealth instances alert now).1.workloadID = c.workloadID := by
  have hw : (c.examined instances alert now).workloadID = c.workloadID := by
    unfold examined
    cases alert <;> rfl
  unfold withHealth
  dsimp only
  split <;> split <;> exact hw

theorem status_examined :
    (c.examined instances alert now).status = if alert then .stopped else c.status := by
  unfold examined
  cases alert <;> rfl

theorem targets_withHealth :
    (c.withHealth instances alert now).1.targets = c.targets.map (.examine instances now) := by
  have htargets : (c.examined instances alert now).targets =
      c.targets.map (.examine instances now) := by
    unfold examined
    cases alert <;> rfl
  unfold withHealth
  dsimp only
  split <;> split <;> exact htargets

theorem stopReasons_withHealth : (c.withHealth instances alert now).1.stopReasons =
    (c.examined instances alert now).stopReasons := by
  unfold withHealth
  dsimp only
  split <;> split <;> rfl

theorem status_withHealth : (c.withHealth instances alert now).1.status =
    if (c.examined instances alert now).stopReasons ≠ [] ∧
      (c.examined instances alert now).status = .running then .stopped
    else (c.examined instances alert now).status := by
  unfold withHealth
  by_cases h : (c.examined instances alert now).stopReasons ≠ [] ∧
      (c.examined instances alert now).status = .running
  · simp [h]
  · simp only [Bool.and_eq_true, decide_eq_true_eq, if_neg h]
    split <;> rfl

/-- The copy keeps the status, or is stopped. -/
theorem status_withHealth_of_isActive
    (h : (c.withHealth instances alert now).1.status.isActive = true) :
    (c.withHealth instances alert now).1.status = c.status := by
  rw [status_withHealth] at h ⊢
  split at h
  · cases h
  next hno =>
  rw [if_neg hno]
  rw [status_examined] at h ⊢
  cases alert with
  | true => cases h
  | false => rfl

theorem stopReasons_examined_ne_nil (h : c.isDegraded instances now = true) :
    (c.examined instances alert now).stopReasons ≠ [] := by
  obtain ⟨t, ht, hcause⟩ := List.any_eq_true.mp h
  obtain ⟨reason, hreason⟩ := Option.isSome_iff_exists.mp hcause
  have hmem : reason ∈ (c.examined instances alert now).stopReasons := by
    unfold examined
    refine mem_stopReasons_recount.mpr ⟨t.examine instances now, ?_, ?_⟩
    · cases alert <;> exact List.mem_map_of_mem ht
    · rw [CanaryTarget.examine, hreason]
      rfl
  exact List.ne_nil_of_mem hmem

theorem status_ne_running_of_changed (h : (c.withHealth instances alert now).2 = true) :
    (c.withHealth instances alert now).1.status ≠ .running := by
  rw [status_withHealth]
  split
  · decide
  next hno =>
  intro hrun
  have hreasons : (c.examined instances alert now).stopReasons = [] := by
    by_contra hne
    exact hno ⟨hne, hrun⟩
  cases alert with
  | true =>
    rw [status_examined] at hrun
    cases hrun
  | false =>
    have hdegraded : c.isDegraded instances now = true := by
      simpa [withHealth, hreasons] using h
    exact stopReasons_examined_ne_nil instances false now c hdegraded hreasons

end WithHealth

def uids (c : CanaryStatus) : List String := c.targets.map CanaryTarget.instanceUID

end CanaryStatus

inductive Outcome where
  | error (code : ℕ) (text : String)
  | canary (code : ℕ) (c : CanaryStatus)
  | conflict (text : String) (c : CanaryStatus)
  | auditUnavailable
  deriving DecidableEq, Repr

/-- The requests. A promote carries the number of reports that the canary had received when it
began. -/
inductive Op where
  | start
  | get
  | promote (began : ℕ)
  | abort
  | rollback
  deriving DecidableEq, Repr

/-- A request between two of its calls, with its copy of the canary. The copy of
`loadCanaryWithHealth` also carries the number of reports that the canary had received when it was
read; a write carries the stop condition that it records, if any. -/
inductive Stage where
  | creating (c : CanaryStatus)
  | starting (c : CanaryStatus) (rest : List String)
  | reading (workloadID id : String)
  | examining (c : CanaryStatus) (seen : ℕ)
  | refreshing (c : CanaryStatus) (seen : ℕ) (reason : Option StopReason)
  | fetching (c : CanaryStatus)
  | promoting (c : CanaryStatus) (rest : List String)
  | restoring (c : CanaryStatus)
  | rollingBack (c : CanaryStatus) (rest : List String)
  | storing (c : CanaryStatus) (reason : Option StopReason) (emits : Bool) (outcome : Outcome)
  | returned (outcome : Outcome)
  deriving DecidableEq, Repr

structure Thread where
  op : Op
  stage : Stage
  deriving DecidableEq, Repr

def Op.began : Op → ℕ
  | .promote began => began
  | _ => 0

/-- A push of a promoted config to an instance, with the canary and the beginning of the promote. -/
structure PromotePush where
  canaryID : String
  began : ℕ
  uid : String
  deriving DecidableEq, Repr

/-- The canaries and the workloads with an unresolved `canary_stop` alert. The rest is history:
the reports of each canary's targets since it is stored, the pushes of promotes, and the stop
conditions that were recorded. -/
structure Shared where
  canaries : Canaries
  alerts : List String
  reports : String → List (String × Report)
  pushes : List PromotePush
  recorded : String → List StopReason

structure Choice where
  ok : Bool := true
  now : Time := 0
  instances : List Instance := []
  found : Bool := true
  pushError : Option String := none
  audited : Bool := true
  deriving DecidableEq, Repr

/-- `UpdateCanaryStatus` with the stop condition it is meant to record. Its error is ignored. -/
def Shared.store (σ : Shared) (ok : Bool) (c : CanaryStatus) (reason : Option StopReason) :
    Shared :=
  if ok then
    { σ with
      canaries := Canaries.updateCanaryStatus σ.canaries c
      recorded := Function.update σ.recorded c.id (σ.recorded c.id ++ reason.toList) }
  else σ

def Op.afterRead (op : Op) (c : CanaryStatus) (seen : ℕ) (now : Time) : Stage :=
  match op with
  | .abort =>
    let c' := { c with abortedAt := some now, updatedAt := now, status := .aborted }
    .storing c' none true (.canary 200 c')
  | .rollback => .restoring c
  | _ => .examining c seen

/-- `handleGetCanary` and `handlePromoteCanary` after `loadCanaryWithHealth`. -/
def Op.afterLoad (op : Op) (c : CanaryStatus) : Stage :=
  match op with
  | .promote _ =>
    if c.status ≠ .succeeded then
      .returned (.conflict "canary is not in a promotable state" c)
    else if 0 < c.counts.failed ∨ c.stopReasons ≠ [] then .returned (.canary 409 c)
    else if c.counts.applied ≠ c.targets.length then
      .returned (.conflict "canary has not succeeded" c)
    else .fetching c
  | _ => .returned (.canary 200 c)

/-- A failed `PushConfig`: the canary is written with the stop condition. -/
def stopWith (c : CanaryStatus) (reason : Option StopReason) (e : String) : Stage :=
  .storing c reason false (.error 502 (sanitizeRemoteConfigErrorMessage e))

def advance (σ : Shared) (op : Op) (stage : Stage) (c : Choice) : Option (Shared × Stage) :=
  match stage with
  | .creating canary =>
    some (match (if c.ok then Canaries.createCanaryStatus σ.canaries canary else none) with
      | some rows => ({ σ with canaries := rows }, .starting canary canary.uids)
      | none => (σ, .returned (.error 500 "failed to record canary")))
  | .starting canary [] =>
    some (σ, .returned (if c.audited then .canary 202 canary.recount else .auditUnavailable))
  | .starting canary (uid :: rest) =>
    some (σ, match c.pushError with
      | none => .starting canary rest
      | some e => stopWith
        { canary.markCanaryTargetFailed uid .remoteConfigFailed c.now with status := .stopped }
        none e)
  | .reading workloadID id =>
    some (σ, if c.ok then
        match Canaries.getCanaryStatus σ.canaries workloadID id with
        | some canary => op.afterRead canary (σ.reports id).length c.now
        | none => .returned (.error 404 "canary not found")
      else .returned (.error 500 "failed to load canary"))
  | .examining canary seen =>
    let alert := c.ok && decide (canary.workloadID ∈ σ.alerts)
    let checked := canary.withHealth c.instances alert c.now
    some (σ, if checked.2 then
        .refreshing checked.1 seen (if alert then some .alertTriggered else none)
      else op.afterLoad checked.1)
  | .refreshing canary _ reason => some (σ.store c.ok canary reason, op.afterLoad canary)
  | .fetching canary =>
    some (σ, if c.found then
        .promoting canary (eligibleRemainingTargets c.instances canary.uids c.now)
      else .returned (.error 500 "failed to load canary config"))
  | .promoting canary [] =>
    let canary' :=
      { canary with promotedAt := some c.now, updatedAt := c.now, status := .promoted }
    some (σ, .storing canary' none true (.canary 202 canary'))
  | .promoting canary (uid :: rest) =>
    some ({ σ with pushes := σ.pushes ++ [⟨canary.id, op.began, uid⟩] },
      match c.pushError with
      | none => .promoting canary rest
      | some e => stopWith (canary.markCanaryStop .remoteConfigFailed c.now)
        (some .remoteConfigFailed) e)
  | .restoring canary =>
    some (σ, if c.found then .rollingBack canary canary.uids
      else .returned (.error 409 "no rollback target available"))
  | .rollingBack canary [] =>
    let canary' :=
      { canary with rolledBackAt := some c.now, updatedAt := c.now, status := .rollbackStarted }
    some (σ, .storing canary' none true (.canary 202 canary'))
  | .rollingBack canary (_ :: rest) =>
    some (σ, match c.pushError with
      | none => .rollingBack canary rest
      | some e => stopWith (canary.markCanaryStop .remoteConfigFailed c.now)
        (some .remoteConfigFailed) e)
  | .storing canary reason emits outcome =>
    some (σ.store c.ok canary reason,
      .returned (if emits && !c.audited then .auditUnavailable else outcome))
  | .returned _ => none

/-- What a call of a request does to the tables and the history. -/
inductive Writes (σ : Shared) (op : Op) (c : Choice) : Stage → Shared → Prop where
  | nothing (stage : Stage) : Writes σ op c stage σ
  | create (canary : CanaryStatus) (rows : Canaries)
      (h : Canaries.createCanaryStatus σ.canaries canary = some rows) :
      Writes σ op c (.creating canary) { σ with canaries := rows }
  | refresh (canary : CanaryStatus) (seen : ℕ) (reason : Option StopReason) :
      Writes σ op c (.refreshing canary seen reason) (σ.store c.ok canary reason)
  | store (canary : CanaryStatus) (reason : Option StopReason) (emits : Bool)
      (outcome : Outcome) :
      Writes σ op c (.storing canary reason emits outcome) (σ.store c.ok canary reason)
  | push (canary : CanaryStatus) (uid : String) (rest : List String) :
      Writes σ op c (.promoting canary (uid :: rest))
        { σ with pushes := σ.pushes ++ [⟨canary.id, op.began, uid⟩] }

theorem advance_writes {σ σ' : Shared} {op : Op} {c : Choice} {stage stage' : Stage}
    (h : advance σ op stage c = some (σ', stage')) : Writes σ op c stage σ' := by
  cases stage with
  | creating canary =>
    simp only [advance] at h
    split at h
    · next rows hrows =>
      cases h
      split at hrows
      · exact .create canary rows hrows
      · cases hrows
    · cases h
      exact .nothing _
  | refreshing canary seen reason =>
    cases h
    exact .refresh canary seen reason
  | storing canary reason emits outcome =>
    cases h
    exact .store canary reason emits outcome
  | promoting canary rest =>
    cases rest with
    | nil =>
      cases h
      exact .nothing _
    | cons uid rest =>
      cases h
      exact .push canary uid rest
  | starting canary rest | rollingBack canary rest =>
    cases rest <;> cases h <;> exact .nothing _
  | returned => cases h
  | _ =>
    cases h
    exact .nothing _

def resume (σ : Shared) (t : Thread) (c : Choice) : Option (Shared × Thread × Option Thread) :=
  (advance σ t.op t.stage c).map fun m => (m.1, ⟨t.op, m.2⟩, none)

theorem resume_eq_some {σ σ' : Shared} {c : Choice} {t t' : Thread} {new : Option Thread} :
    resume σ t c = some (σ', t', new) ↔
      ∃ stage', advance σ t.op t.stage c = some (σ', stage') ∧ t' = ⟨t.op, stage'⟩ ∧
        new = none := by
  simp only [resume, Option.map_eq_some_iff, Prod.mk.injEq]
  constructor
  · rintro ⟨⟨σ₁, stage'⟩, h, rfl, rfl, rfl⟩
    exact ⟨stage', h, rfl, rfl⟩
  · rintro ⟨stage', h, rfl, rfl⟩
    exact ⟨(σ', stage'), h, rfl, rfl, rfl⟩

/-- A validated start has the uid and the pod of each target. -/
inductive Event where
  | start (id workloadID configHash : String) (targets : List (String × String)) (now : Time)
  | get (workloadID id : String)
  | promote (workloadID id : String)
  | abort (workloadID id : String)
  | rollback (workloadID id : String)
  | report (workloadID configID uid : String) (r : Report) (updatedAt : Time)
  | raiseAlert (workloadID : String)
  | resolveAlert (workloadID : String)
  deriving DecidableEq, Repr

def startStatus (id workloadID configHash : String) (targets : List (String × String))
    (now : Time) : CanaryStatus where
  id := id
  workloadID := workloadID
  configHash := configHash
  status := .running
  targets := targets.map fun t =>
    { instanceUID := t.1, podName := t.2, status := .sent, stopReason := none, updatedAt := now }
  updatedAt := now

def arrive (σ : Shared) : Event → Option (Shared × Option Thread)
  | .start id workloadID configHash targets now =>
    some (σ, some ⟨.start, .creating (startStatus id workloadID configHash targets now)⟩)
  | .get workloadID id => some (σ, some ⟨.get, .reading workloadID id⟩)
  | .promote workloadID id =>
    some (σ, some ⟨.promote (σ.reports id).length, .reading workloadID id⟩)
  | .abort workloadID id => some (σ, some ⟨.abort, .reading workloadID id⟩)
  | .rollback workloadID id => some (σ, some ⟨.rollback, .reading workloadID id⟩)
  | .report workloadID configID uid r updatedAt =>
    some ({ σ with
      canaries := Canaries.updateCanaryTargetStatus σ.canaries workloadID configID uid r updatedAt
      reports := fun id =>
        if (σ.canaries.get? id).any (·.isFor workloadID configID uid) then
          σ.reports id ++ [(uid, r)]
        else σ.reports id }, none)
  | .raiseAlert workloadID => some ({ σ with alerts := workloadID :: σ.alerts }, none)
  | .resolveAlert workloadID =>
    some ({ σ with alerts := σ.alerts.filter (· ≠ workloadID) }, none)

def program : Pool.Program Shared Thread Choice Event := ⟨resume, arrive⟩

abbrev State := Pool Shared Thread

abbrev Action := Pool.Label Choice Event

def step : State → Action → Option State := program.step

/-- Any stored canaries, at rest. -/
def initial (canaries : Canaries) : State :=
  ⟨⟨canaries, [], fun _ => [], [], fun _ => []⟩, []⟩

end OtelMagnify.Canary
