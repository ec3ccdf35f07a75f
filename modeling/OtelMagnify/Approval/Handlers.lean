import OtelMagnify.Approval.Store
import OtelMagnify.Lib.Sha256
import OtelMagnify.Lib.StepSystem
import OtelMagnify.Lib.Threads
import OtelMagnify.Push.Sender

/-! The approval handlers of `internal/api/config_approvals.go` as concurrent requests. Each SQL
statement is one step; everything a handler does between two statements belongs to the step
before it. What the environment decides (the workload row, the verdicts of the validator and
of the policy, clocks, random bytes, the outcome of a send, a failing store) is part of the
action. -/
namespace OtelMagnify.Approval
open Push

structure Reply where
  status : ℕ
  error : String := ""
  code : String := ""
  approval : Option ConfigApprovalRequest := none
  deriving DecidableEq, Repr

/-- The columns of the workload row that the handlers read. -/
structure WorkloadView where
  acceptsRemoteConfig : Bool
  status : String
  deriving DecidableEq, Repr

inductive WorkloadLookup where
  | found (wl : WorkloadView)
  | noRows
  | failed
  deriving DecidableEq, Repr

structure ConfigApprovalRequestPayload where
  draftYAML : String
  targetGroup : String
  targetEnv : String
  comment : String
  prodConfirmation : Bool
  deriving DecidableEq, Repr

structure ConfigApprovalPushPayload where
  comment : String
  prodDoubleConfirmed : Bool
  breakGlass : Bool
  breakGlassReason : String
  deriving DecidableEq, Repr

/-- The fields that the create handler passes to `CreateOrUpdateConfigApprovalRequest`, and the
clock that the store reads first. -/
structure ApprovalDraft where
  workloadID : String
  draftYAML : String
  targetGroup : String
  targetEnv : String
  requester : String
  requestComment : String
  prodTarget : Bool
  prodConfirmation : Bool
  now : Time
  deriving DecidableEq, Repr

/-- The row of the upsert: the status and the times that were left empty get their defaults. -/
def ApprovalDraft.request (d : ApprovalDraft) (id : String) : ConfigApprovalRequest where
  id := id
  workloadID := d.workloadID
  draftYAML := d.draftYAML
  targetGroup := d.targetGroup
  targetEnv := d.targetEnv
  requester := d.requester
  requestComment := d.requestComment
  status := .pending
  prodTarget := d.prodTarget
  prodConfirmation := d.prodConfirmation
  createdAt := d.now
  updatedAt := d.now

def isProdTarget (targetGroup targetEnv : String) : Bool :=
  let group := toLower (trimSpace targetGroup)
  let env := toLower (trimSpace targetEnv)
  env = "prod" || env = "production" || contains group "prod"

def workloadIsConnected (wl : WorkloadView) : Bool := toLower (trimSpace wl.status) = "connected"

def newConfigApprovalID (random : Vector UInt8 16) : String :=
  "car_" ++ Sha256.hexEncode random.toList

def remoteConfigUnsupported : Reply :=
  { status := 409, error := "workload does not accept remote config"
    code := "remote_config_unsupported" }

def failedValidation : Reply := { status := 400, error := "configuration failed validation" }

def loadWorkloadFailed : Reply := { status := 500, error := "failed to load workload" }

def approvalNotFound : Reply := { status := 404, error := "approval request not found" }

/-- `handleCreateOrUpdateConfigApproval` up to the store call, whose argument it returns. -/
def checkCreate (workloadID actor : String) (req : ConfigApprovalRequestPayload)
    (wl : WorkloadLookup) (valid : Bool) (now : Time) : Except Reply ApprovalDraft :=
  if trimSpace req.draftYAML = "" then .error { status := 400, error := "empty config draft" }
  else if trimSpace req.targetGroup = "" then
    .error { status := 400, error := "target_group is required" }
  else if trimSpace req.comment = "" then .error { status := 400, error := "comment is required" }
  else match wl with
  | .noRows => .error { status := 404, error := "workload not found" }
  | .failed => .error loadWorkloadFailed
  | .found wl =>
    let prodTarget := isProdTarget req.targetGroup req.targetEnv
    if !wl.acceptsRemoteConfig then .error remoteConfigUnsupported
    else if !valid then .error failedValidation
    else if prodTarget && !req.prodConfirmation then
      .error { status := 400, error := "prod approval request requires confirmation" }
    else .ok
      { workloadID, draftYAML := req.draftYAML
        targetGroup := trimSpace req.targetGroup, targetEnv := trimSpace req.targetEnv
        requester := actor, requestComment := trimSpace req.comment, prodTarget
        prodConfirmation := req.prodConfirmation, now }

/-- `handleApproveConfigApproval` up to the `UPDATE`: the draft it has validated. -/
def checkApprove (workloadID comment : String) (approval : Option ConfigApprovalRequest)
    (wl : WorkloadLookup) (valid : Bool) : Except Reply String :=
  if trimSpace comment = "" then .error { status := 400, error := "comment is required" }
  else match approval with
  | none => .error approvalNotFound
  | some approval =>
    if approval.workloadID ≠ workloadID then .error approvalNotFound
    else match wl with
    | .noRows => .error loadWorkloadFailed
    | .failed => .error loadWorkloadFailed
    | .found _ => if !valid then .error failedValidation else .ok approval.draftYAML

def checkPushWorkload (wl : WorkloadView) (valid blocked : Bool) : Option Reply :=
  if !wl.acceptsRemoteConfig then some remoteConfigUnsupported
  else if !workloadIsConnected wl then
    some { status := 409, error := "workload is not connected", code := "workload_not_connected" }
  else if !valid then some failedValidation
  else if blocked then
    some { status := 400, error := "configuration blocked by policy"
           code := "config_policy_blocked" }
  else none

/-- `handlePushConfigApproval` up to `persistAndPushApprovalConfig`: the request it read. -/
def checkPush (workloadID : String) (req : ConfigApprovalPushPayload)
    (approval : Option ConfigApprovalRequest) (wl : WorkloadLookup) (valid blocked : Bool) :
    Except Reply ConfigApprovalRequest :=
  if trimSpace req.comment = "" then .error { status := 400, error := "comment is required" }
  else if req.breakGlass && trimSpace req.breakGlassReason = "" then
    .error { status := 400, error := "break_glass_reason is required" }
  else match approval with
  | none => .error approvalNotFound
  | some approval =>
    if approval.workloadID ≠ workloadID then .error approvalNotFound
    else if approval.prodTarget && !req.prodDoubleConfirmed then
      .error { status := 400, error := "prod push requires double confirmation" }
    else if approval.status = .pushed then
      .error { status := 409, error := "approval request has already been pushed"
               code := "approval_already_pushed" }
    else if !req.breakGlass && approval.status ≠ .approved then
      .error { status := 409, error := "approval request is not approved"
               code := "approval_required" }
    else match wl with
    | .noRows => .error loadWorkloadFailed
    | .failed => .error loadWorkloadFailed
    | .found wl =>
      match checkPushWorkload wl valid blocked with
      | some reply => .error reply
      | none => .ok approval

/-- A push request that has passed its checks, with the approval it read. -/
structure PushJob where
  approval : ConfigApprovalRequest
  req : ConfigApprovalPushPayload
  pushedBy : String
  deriving DecidableEq, Repr

/-- The body is the draft as it was read, and the hash is its digest. -/
def PushJob.hash (job : PushJob) : String := Sha256.hexSum256 job.approval.draftYAML

def PushJob.configPush (job : PushJob) (submittedAt : Time) (targets : List PushTarget) :
    ConfigPush where
  workloadID := job.approval.workloadID
  configID := job.hash
  kind := .operator job.pushedBy
  submittedAt := submittedAt
  targets := targets

/-- Where a request stands: the statement it runs next and the values it holds. -/
inductive Handler where
  | lookingUp (draft : ApprovalDraft)
  | upserting (draft : ApprovalDraft) (id : String)
  | approving (id approvedBy comment validated : String)
  | recording (job : PushJob)
  | sending (job : PushJob)
  | markingSent (job : PushJob)
  | markingFailed (job : PushJob) (err : String)
  | markingPushed (job : PushJob)
  | rereading (id : String) (ok : ℕ) (noRows failed : Reply)
  | replied (reply : Reply)
  deriving DecidableEq, Repr

/-- The job of a push request that is past its checks and has not finished. -/
def Handler.job : Handler → Option PushJob
  | recording job => some job
  | sending job => some job
  | markingSent job => some job
  | markingFailed job _ => some job
  | markingPushed job => some job
  | _ => none

def Handler.isPastSend : Handler → Bool
  | markingSent _ => true
  | markingFailed .. => true
  | markingPushed _ => true
  | _ => false

/-- A config handed to the agents of a workload for an approval request. -/
structure Sent where
  approvalID : String
  workloadID : String
  body : String
  breakGlass : Bool
  deriving DecidableEq, Repr

def PushJob.sent (job : PushJob) : Sent where
  approvalID := job.approval.id
  workloadID := job.approval.workloadID
  body := job.approval.draftYAML
  breakGlass := job.req.breakGlass

/-- How a request became approved: the stored draft, and the one its handler validated. -/
structure ApprovedAs where
  stored : String
  validated : String
  deriving DecidableEq, Repr

/-- The two tables and the requests so far. The other fields record what has happened: how
requests became approved, what was sent, and for which requests a row was recorded. -/
structure State where
  approvals : Approvals
  history : WorkloadConfigs
  handlers : List Handler
  approvedAs : String → Option ApprovedAs
  sent : List Sent
  recorded : List String

def State.initial (history : WorkloadConfigs) : State where
  approvals := .empty
  history := history
  handlers := []
  approvedAs := fun _ => none
  sent := []
  recorded := []

def State.arrive (s : State) (h : Handler) : State := { s with handlers := s.handlers ++ [h] }

def State.become (s : State) (t : ℕ) (h : Handler) : State :=
  { s with handlers := s.handlers.set t h }

inductive Op where
  | lookUpPending (random : Vector UInt8 16)
  | upsert
  | setApproved (approvedAt : Time)
  | record (submittedAt : Time) (targets : List PushTarget)
  | send (err : Option String)
  | markSent (sentAt : Time)
  | markFailed
  | markPushed (pushedAt : Time)
  | reread
  | storeError
  deriving DecidableEq, Repr

/-- A request arrives and runs to its first write, or request `t` goes on. -/
inductive Action where
  | create (workloadID actor : String) (req : ConfigApprovalRequestPayload) (wl : WorkloadLookup)
      (valid : Bool) (now : Time)
  | approve (workloadID approvalID actor comment : String) (wl : WorkloadLookup) (valid : Bool)
  | push (workloadID approvalID actor : String) (req : ConfigApprovalPushPayload)
      (wl : WorkloadLookup) (valid blocked : Bool)
  | resume (t : ℕ) (op : Op)
  deriving DecidableEq, Repr

def saveFailed : Reply := { status := 500, error := "failed to save approval request" }

def approveFailed : Reply := { status := 500, error := "failed to approve request" }

def approvalNotPending : Reply :=
  { status := 409, error := "approval request is not pending", code := "approval_not_pending" }

def recordFailed : Reply := { status := 500, error := "failed to record push" }

def markPushedFailed : Reply :=
  { status := 500, error := "failed to mark approval request pushed" }

/-- What a store error does to a request. Marking the row sent or failed ignores it. -/
def Handler.onStoreError : Handler → Option Handler
  | lookingUp _ => some (.replied saveFailed)
  | upserting .. => some (.replied saveFailed)
  | approving .. => some (.replied approveFailed)
  | recording _ => some (.replied recordFailed)
  | markingSent job => some (.markingPushed job)
  | markingFailed _ err => some (.replied { status := 502, error := err })
  | markingPushed _ => some (.replied markPushedFailed)
  | rereading _ _ _ failed => some (.replied failed)
  | _ => none

def resume (s : State) (t : ℕ) : Op → Handler → Option State
  | .lookUpPending random, .lookingUp draft =>
    let id :=
      match getPendingConfigApprovalRequest s.approvals draft.workloadID draft.targetGroup with
      | some existing => existing.id
      | none => newConfigApprovalID random
    some (s.become t (.upserting draft id))
  | .upsert, .upserting draft id =>
    match upsertConfigApprovalRequest s.approvals (draft.request id) with
    | none => some (s.become t (.replied saveFailed))
    | some approvals => some { s.become t (.rereading id 201 saveFailed saveFailed) with approvals }
  | .setApproved approvedAt, .approving id approvedBy comment validated =>
    match getConfigApprovalRequest s.approvals id,
        approveConfigApprovalRequest s.approvals id approvedBy comment approvedAt with
    | some row, some approvals =>
      some { s.become t (.rereading id 200 approvalNotPending approveFailed) with
        approvals
        approvedAs := Function.update s.approvedAs id
          (some { stored := row.draftYAML, validated }) }
    | _, _ => some (s.become t (.replied approvalNotPending))
  | .record submittedAt targets, .recording job =>
    match recordWorkloadConfig s.history submittedAt
        (job.configPush submittedAt targets).workloadConfig with
    | none => some (s.become t (.replied recordFailed))
    | some history =>
      some { s.become t (.sending job) with history, recorded := job.approval.id :: s.recorded }
  | .send err, .sending job =>
    let next := match err with
      | none => Handler.markingSent job
      | some err => .markingFailed job (sanitizeRemoteConfigErrorMessage err)
    some { s.become t next with sent := job.sent :: s.sent }
  | .markSent sentAt, .markingSent job =>
    some { s.become t (.markingPushed job) with
      history := markWorkloadConfigSent s.history job.approval.workloadID job.hash sentAt }
  | .markFailed, .markingFailed job err =>
    some { s.become t (.replied { status := 502, error := err }) with
      history := updateWorkloadConfigStatus s.history job.approval.workloadID job.hash .failed err }
  | .markPushed pushedAt, .markingPushed job =>
    match markConfigApprovalRequestPushed s.approvals job.approval.id job.hash
        (trimSpace job.req.comment) job.req.prodDoubleConfirmed job.req.breakGlass
        (trimSpace job.req.breakGlassReason) pushedAt with
    | none => some (s.become t (.replied markPushedFailed))
    | some approvals =>
      some { s.become t (.rereading job.approval.id 202 markPushedFailed markPushedFailed) with
        approvals }
  | .reread, .rereading id ok noRows _ =>
    match getConfigApprovalRequest s.approvals id with
    | none => some (s.become t (.replied noRows))
    | some approval => some (s.become t (.replied { status := ok, approval := some approval }))
  | .storeError, h => h.onStoreError.map fun h' => s.become t h'
  | _, _ => none

def step (s : State) : Action → Option State
  | .create workloadID actor req wl valid now =>
    match checkCreate workloadID actor req wl valid now with
    | .error reply => some (s.arrive (.replied reply))
    | .ok draft => some (s.arrive (.lookingUp draft))
  | .approve workloadID approvalID actor comment wl valid =>
    match checkApprove workloadID comment (getConfigApprovalRequest s.approvals approvalID) wl
        valid with
    | .error reply => some (s.arrive (.replied reply))
    | .ok draft => some (s.arrive (.approving approvalID actor (trimSpace comment) draft))
  | .push workloadID approvalID actor req wl valid blocked =>
    match checkPush workloadID req (getConfigApprovalRequest s.approvals approvalID) wl valid
        blocked with
    | .error reply => some (s.arrive (.replied reply))
    | .ok approval => some (s.arrive (.recording { approval, req, pushedBy := actor }))
  | .resume t op => s.handlers[t]?.bind fun h => resume s t op h

/-- Everything a step can do to the approvals and to the push jobs. -/
inductive Effect (s : State) : Action → State → Prop
  | arrive {a : Action} (h : Handler) (hjob : h.job = none) : Effect s a (s.arrive h)
  | check (workloadID approvalID actor : String) (req : ConfigApprovalPushPayload)
      (wl : WorkloadLookup) (valid blocked : Bool) (job : PushJob)
      (hrow : getConfigApprovalRequest s.approvals approvalID = some job.approval)
      (hopen : job.approval.status ≠ .pushed)
      (happroved : job.req.breakGlass = false → job.approval.status = .approved) :
      Effect s (.push workloadID approvalID actor req wl valid blocked)
        (s.arrive (.recording job))
  | move {a : Action} (t : ℕ) (h₀ h : Handler) (history : WorkloadConfigs)
      (hat : s.handlers[t]? = some h₀)
      (hjob : h.job = none ∨
        h₀.isPastSend = true ∧ h.isPastSend = true ∧ h.job = h₀.job) :
      Effect s a { s.become t h with history }
  | upsert (t : ℕ) (draft : ApprovalDraft) (id : String) (h : Handler) (approvals : Approvals)
      (hat : s.handlers[t]? = some (.upserting draft id)) (hjob : h.job = none)
      (hdb : upsertConfigApprovalRequest s.approvals (draft.request id) = some approvals) :
      Effect s (.resume t .upsert) { s.become t h with approvals }
  | approve (t : ℕ) (id approvedBy comment validated : String) (approvedAt : Time)
      (row : ConfigApprovalRequest) (h : Handler) (approvals : Approvals)
      (hat : s.handlers[t]? = some (.approving id approvedBy comment validated))
      (hjob : h.job = none) (hrow : getConfigApprovalRequest s.approvals id = some row)
      (hdb : approveConfigApprovalRequest s.approvals id approvedBy comment approvedAt =
        some approvals) :
      Effect s (.resume t (.setApproved approvedAt))
        { s.become t h with
          approvals
          approvedAs := Function.update s.approvedAs id
            (some { stored := row.draftYAML, validated }) }
  | record {a : Action} (t : ℕ) (job : PushJob) (history : WorkloadConfigs)
      (hat : s.handlers[t]? = some (.recording job)) :
      Effect s a
        { s.become t (.sending job) with history, recorded := job.approval.id :: s.recorded }
  | send {a : Action} (t : ℕ) (job : PushJob) (h : Handler)
      (hat : s.handlers[t]? = some (.sending job)) (hpast : h.isPastSend = true)
      (hsame : h.job = some job) :
      Effect s a { s.become t h with sent := job.sent :: s.sent }
  | markPushed {a : Action} (t : ℕ) (job : PushJob) (pushedAt : Time) (h : Handler)
      (approvals : Approvals) (hat : s.handlers[t]? = some (.markingPushed job))
      (hjob : h.job = none)
      (hdb : markConfigApprovalRequestPushed s.approvals job.approval.id job.hash
        (trimSpace job.req.comment) job.req.prodDoubleConfirmed job.req.breakGlass
        (trimSpace job.req.breakGlassReason) pushedAt = some approvals) :
      Effect s a { s.become t h with approvals }

theorem checkPush_ok {workloadID : String} {req : ConfigApprovalPushPayload}
    {found : Option ConfigApprovalRequest} {wl : WorkloadLookup} {valid blocked : Bool}
    {approval : ConfigApprovalRequest}
    (h : checkPush workloadID req found wl valid blocked = .ok approval) :
    found = some approval ∧ approval.status ≠ .pushed ∧
      (req.breakGlass = false → approval.status = .approved) := by
  unfold checkPush at h
  split at h
  · cases h
  split at h
  · cases h
  split at h
  · cases h
  rename_i row
  split at h
  · cases h
  split at h
  · cases h
  split at h
  · cases h
  rename_i hpushed
  split at h
  · cases h
  rename_i happroved
  have hrow : row = approval := by
    split at h
    · cases h
    · cases h
    · split at h
      · cases h
      · exact Except.ok.inj h
  subst hrow
  exact ⟨rfl, hpushed, fun hb => by simpa [hb] using happroved⟩

theorem onStoreError_job {h h' : Handler} (hs : h.onStoreError = some h') :
    h'.job = none ∨ h.isPastSend = true ∧ h'.isPastSend = true ∧ h'.job = h.job := by
  cases h <;> simp [Handler.onStoreError] at hs <;> subst hs <;>
    simp [Handler.job, Handler.isPastSend]

theorem resume_effect {s s' : State} {t : ℕ} {op : Op} {h₀ : Handler}
    (hat : s.handlers[t]? = some h₀) (h : resume s t op h₀ = some s') :
    Effect s (.resume t op) s' := by
  have hdrop {h₁ : Handler} (hjob : h₁.job = none) (h : some (s.become t h₁) = some s') :
      Effect s (.resume t op) s' := by
    rw [← Option.some.inj h]
    exact .move t _ _ s.history hat (.inl hjob)
  unfold resume at h
  split at h
  · exact hdrop rfl h
  · rename_i draft id
    split at h
    · exact hdrop rfl h
    · rename_i approvals hdb
      rw [← Option.some.inj h]
      exact .upsert t draft id _ approvals hat rfl hdb
  · rename_i approvedAt id approvedBy comment validated
    split at h
    · rename_i row approvals hrow hdb
      rw [← Option.some.inj h]
      exact .approve t id approvedBy comment validated approvedAt row _ approvals hat rfl hrow hdb
    · exact hdrop rfl h
  · rename_i submittedAt targets job
    split at h
    · exact hdrop rfl h
    · rename_i history hrec
      rw [← Option.some.inj h]
      exact .record t job history hat
  · rename_i err job
    rw [← Option.some.inj h]
    refine .send t job _ hat ?_ ?_ <;> cases err <;> rfl
  · rename_i sentAt job
    rw [← Option.some.inj h]
    exact .move t _ _ _ hat (.inr ⟨rfl, rfl, rfl⟩)
  · rw [← Option.some.inj h]
    exact .move t _ _ _ hat (.inl rfl)
  · rename_i pushedAt job
    split at h
    · exact hdrop rfl h
    · rename_i approvals hdb
      rw [← Option.some.inj h]
      exact .markPushed t job pushedAt _ approvals hat rfl hdb
  · split at h <;> exact hdrop rfl h
  · obtain ⟨h', hs, rfl⟩ := Option.map_eq_some_iff.mp h
    exact .move t _ h' s.history hat (onStoreError_job hs)
  · cases h

theorem step_effect {s s' : State} {a : Action} (h : step s a = some s') : Effect s a s' := by
  unfold step at h
  split at h
  · split at h <;> (rw [← Option.some.inj h]; exact .arrive _ rfl)
  · split at h <;> (rw [← Option.some.inj h]; exact .arrive _ rfl)
  · rename_i workloadID approvalID actor req wl valid blocked
    split at h
    · rw [← Option.some.inj h]
      exact .arrive _ rfl
    · rename_i approval hcheck
      obtain ⟨hrow, hopen, happroved⟩ := checkPush_ok hcheck
      rw [← Option.some.inj h]
      exact .check workloadID approvalID actor req wl valid blocked _ hrow hopen happroved
  · obtain ⟨h₀, hat, hres⟩ := Option.bind_eq_some_iff.mp h
    exact resume_effect hat hres

end OtelMagnify.Approval
