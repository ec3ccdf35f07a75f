import OtelMagnify.Approval.Handlers
import OtelMagnify.Validator.Static

/-! The push preview of `internal/api/pushes.go` against the gates of an approval push: what the
preview counts as capable of remote config, and what the push asks for. -/
namespace OtelMagnify.Approval
open Push Server Validator

structure PreviewWorkload where
  id : String
  displayName : String
  type : String
  version : String
  status : String
  lastSeenAt : Time
  acceptsRemoteConfig : Bool
  availableComponents : Option AvailableComponents
  deriving DecidableEq, Repr

def PreviewWorkload.view (wl : PreviewWorkload) : WorkloadView where
  acceptsRemoteConfig := wl.acceptsRemoteConfig
  status := wl.status

inductive PushPreviewBucket where
  | remoteConfigCapable | readOnly | incompatible | offline
  deriving DecidableEq, Repr

structure PushPreviewTarget where
  workloadID : String
  displayName : String
  type : String
  version : String
  status : String
  bucket : PushPreviewBucket
  reason : String := ""
  acceptsRemoteConfig : Bool
  lastSeenUnix : ℤ
  deriving DecidableEq, Repr

def classifyPushPreviewTarget (env : Environment) (workload : PreviewWorkload)
    (configContent : String) : PushPreviewTarget :=
  let target : PushPreviewTarget :=
    { workloadID := workload.id, displayName := workload.displayName, type := workload.type
      version := workload.version, status := workload.status, bucket := .remoteConfigCapable
      acceptsRemoteConfig := workload.acceptsRemoteConfig
      lastSeenUnix := if workload.lastSeenAt = 0 then 0 else workload.lastSeenAt / 1000000000 }
  if workload.status = "disconnected" then
    { target with bucket := .offline, reason := "workload is not connected" }
  else if workload.type ≠ "collector" || !workload.acceptsRemoteConfig then
    { target with bucket := .readOnly, reason := "workload does not accept remote config" }
  else if configContent ≠ "" then
    let result := validate env configContent workload.availableComponents
    if !result.valid then
      { target with
        bucket := .incompatible
        reason := (result.errors.head?.map Error.message).getD "configuration failed validation" }
    else target
  else target

def validateApprovalDraft (env : Environment) (getenv : String → String) (body : String)
    (wl : PreviewWorkload) : Result :=
  validateWithRuntime env body wl.availableComponents (runtimeOptionsFor getenv wl.version)

def PassesGates (env : Environment) (getenv : String → String) (body : String)
    (wl : PreviewWorkload) : Prop :=
  checkPushWorkload wl.view (validateApprovalDraft env getenv body wl).valid false = none

variable {env : Environment} {getenv : String → String} {content : String} {wl : PreviewWorkload}

theorem bucket_eq_capable_iff (hcontent : content ≠ "") :
    (classifyPushPreviewTarget env wl content).bucket = .remoteConfigCapable ↔
      wl.status ≠ "disconnected" ∧ wl.type = "collector" ∧ wl.acceptsRemoteConfig = true ∧
        (validate env content wl.availableComponents).errors = [] := by
  have hvalid : (validate env content wl.availableComponents).valid = true ↔
      (validate env content wl.availableComponents).errors = [] := decide_eq_true_iff
  rw [← hvalid]
  dsimp only [classifyPushPreviewTarget]
  by_cases hstatus : wl.status = "disconnected"
  · rw [if_pos hstatus]
    simp [hstatus]
  by_cases htype : wl.type = "collector"
  · cases haccepts : wl.acceptsRemoteConfig with
    | false => simp [hstatus]
    | true =>
      cases (validate env content wl.availableComponents).valid <;>
        simp [hstatus, htype, hcontent]
  · simp [hstatus, htype]

theorem passesGates_iff (hdisabled : (runtimeOptionsFromEnv getenv).enabled = false) :
    PassesGates env getenv content wl ↔
      wl.acceptsRemoteConfig = true ∧ workloadIsConnected wl.view = true ∧
        (validate env content wl.availableComponents).errors = [] ∧
          isBelowMinimum wl.version (runtimeOptionsFromEnv getenv).minimumVersion = false := by
  rw [← valid_validateWithRuntime env content wl.availableComponents _ hdisabled, PassesGates,
    checkPushWorkload, validateApprovalDraft]
  split_ifs with haccepts hconnected hchecked <;> simp_all [PreviewWorkload.view]

/-- For every workload and config, what the preview counts as capable passes the gates of a push
if and only if every collector that accepts the config and is not disconnected has the status
`connected` and is not known to be below the minimum version. -/
theorem preview_agrees_with_push_gate (env : Environment) (getenv : String → String)
    (wl : PreviewWorkload) (content : String) (hcontent : content ≠ "")
    (hdisabled : (runtimeOptionsFromEnv getenv).enabled = false) :
    ((classifyPushPreviewTarget env wl content).bucket = .remoteConfigCapable →
        PassesGates env getenv content wl) ↔
      (wl.status ≠ "disconnected" ∧ wl.type = "collector" ∧ wl.acceptsRemoteConfig = true ∧
          (validate env content wl.availableComponents).errors = [] →
        workloadIsConnected wl.view = true ∧
          isBelowMinimum wl.version (runtimeOptionsFromEnv getenv).minimumVersion = false) := by
  rw [bucket_eq_capable_iff hcontent, passesGates_iff hdisabled]
  constructor
  · intro h hcapable
    obtain ⟨-, hconnected, -, hversion⟩ := h hcapable
    exact ⟨hconnected, hversion⟩
  · rintro h ⟨hstatus, htype, haccepts, herrors⟩
    obtain ⟨hconnected, hversion⟩ := h ⟨hstatus, htype, haccepts, herrors⟩
    exact ⟨haccepts, hconnected, herrors, hversion⟩

def previewed (status version : String) : PreviewWorkload where
  id := "w"
  displayName := "gateway"
  type := "collector"
  version := version
  status := status
  lastSeenAt := 0
  acceptsRemoteConfig := true
  availableComponents := none

theorem preview_agrees_with_push_gate_connected :
    (classifyPushPreviewTarget pipelineEnvironment (previewed "connected" "0.97.0")
        pipelineText).bucket = .remoteConfigCapable ∧
      PassesGates pipelineEnvironment (minimumVersionEnv "0.95.0") pipelineText
        (previewed "connected" "0.97.0") := by
  have hbucket : (classifyPushPreviewTarget pipelineEnvironment (previewed "connected" "0.97.0")
      pipelineText).bucket = .remoteConfigCapable := by decide +kernel
  refine ⟨hbucket, (preview_agrees_with_push_gate pipelineEnvironment
    (minimumVersionEnv "0.95.0") (previewed "connected" "0.97.0") pipelineText (by decide +kernel)
    (by decide +kernel)).mpr (fun _ => by decide +kernel) hbucket⟩

/-- Two collectors that the preview counts as capable: the push of the first one is refused for
its status, the push of the second one for its version. -/
theorem capable_collectors_are_refused :
    ((classifyPushPreviewTarget pipelineEnvironment (previewed "degraded" "0.97.0")
          pipelineText).bucket = .remoteConfigCapable ∧
        ¬PassesGates pipelineEnvironment (minimumVersionEnv "") pipelineText
          (previewed "degraded" "0.97.0")) ∧
      (classifyPushPreviewTarget pipelineEnvironment (previewed "connected" "0.90.0")
          pipelineText).bucket = .remoteConfigCapable ∧
        ¬PassesGates pipelineEnvironment (minimumVersionEnv "0.95.0") pipelineText
          (previewed "connected" "0.90.0") := by
  simp only [PassesGates]
  decide +kernel

end OtelMagnify.Approval
