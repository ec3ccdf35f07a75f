import OtelMagnify.Server.Fingerprint
import OtelMagnify.Server.Registry
import Mathlib.Data.List.Sort

/-! Workload rows: what an agent description makes of a row, and the statements on the
`workloads` table. -/
namespace OtelMagnify.Server
open Push Sha256

inductive WorkloadType where
  | collector | sdk
  deriving DecidableEq, Repr

structure AvailableComponents where
  components : List (String × List String)
  hash : String
  deriving DecidableEq, Repr

structure Workload where
  fingerprintSource : String
  fingerprintKeys : Attrs
  displayName : String
  type : WorkloadType
  version : String
  status : WorkloadStatus
  lastSeenAt : Time
  labels : Attrs
  activeConfigID : Option String
  activeConfigHash : String
  remoteConfigStatus : Option RemoteConfigStatus
  availableComponents : Option AvailableComponents
  acceptsRemoteConfig : Bool
  retentionUntil : Option Time
  archivedAt : Option Time
  deriving DecidableEq, Repr

/-- The part of an `AgentToServer` that the server reads. -/
structure AgentDescription where
  identifyingAttributes : List (String × String)
  nonIdentifyingAttributes : List (String × String)
  deriving DecidableEq, Repr

structure RemoteConfigReport where
  status : Option Report
  lastRemoteConfigHash : List UInt8
  errorMessage : String
  deriving DecidableEq, Repr

/-- A category without details is `none`. -/
structure ReportedComponents where
  components : List (String × Option (List String))
  hash : List UInt8
  deriving DecidableEq, Repr

structure AgentMessage where
  instanceUid : List UInt8
  agentDescription : Option AgentDescription
  capabilities : ℕ
  health : Option Bool := none
  remoteConfigStatus : Option RemoteConfigReport := none
  effectiveConfig : List (String × List UInt8) := []
  availableComponents : Option ReportedComponents := none
  deriving DecidableEq, Repr

def AgentMessage.uid (msg : AgentMessage) : String := hexEncode msg.instanceUid

def acceptsRemoteConfigCap : ℕ := 0x2

def AgentMessage.acceptsRemoteConfig (msg : AgentMessage) : Bool :=
  msg.capabilities &&& acceptsRemoteConfigCap ≠ 0

def AgentDescription.attrs (desc : AgentDescription) : Attrs :=
  flattenAttrs desc.identifyingAttributes desc.nonIdentifyingAttributes

def hasPrefix (s pre : String) : Bool := pre.toList.isPrefixOf s.toList

def isCollectorName (name : String) : Bool :=
  let n := toLower name
  hasPrefix n "otelcol" || contains n "opentelemetry-collector" ||
    contains n "opentelemetry.collector"

def classifyAgent (attrs : Attrs) : WorkloadType :=
  if attr attrs "otelcol.version" ≠ "" then .collector
  else if contains (toLower (attr attrs "os.description")) "otelcol" then .collector
  else if attr attrs "telemetry.sdk.language" ≠ "" then .sdk
  else if isCollectorName (attr attrs "service.name") then .collector
  else .sdk

def trustedSelectorLabelPrefix : String := "otel.magnify/selector."

/-- The labels of a described workload: the trusted ones of the row, the others of the agent. -/
def describedLabels (old attrs : Attrs) : Attrs :=
  old.filter (fun kv => hasPrefix kv.1 trustedSelectorLabelPrefix) ++
    attrs.filter fun kv => kv.1 ≠ "service.name" && kv.1 ≠ "service.version" &&
      !hasPrefix kv.1 trustedSelectorLabelPrefix

def flattenAvailableComponents (ac : Option ReportedComponents) : Option AvailableComponents :=
  match ac with
  | none => none
  | some r =>
    if r.components = [] then none
    else some
      { components := r.components.filterMap fun c =>
          c.2.map fun names => (c.1, names.insertionSort (· ≤ ·))
        hash := hexEncode r.hash }

/-- The config id of `persistEffectiveConfig`. The config is `stored` when the store has it or
accepts it. -/
def persistEffectiveConfig (effective : List (String × List UInt8)) (stored : Bool) :
    Option String :=
  let buf := ((effective.insertionSort fun a b => a.1 ≤ b.1).map Prod.snd).flatten
  if buf = [] then none
  else if stored then some (hexEncode (sum256 buf))
  else none

def Workload.zero : Workload where
  fingerprintSource := ""
  fingerprintKeys := []
  displayName := ""
  type := .sdk
  version := ""
  status := .disconnected
  lastSeenAt := 0
  labels := []
  activeConfigID := none
  activeConfigHash := ""
  remoteConfigStatus := none
  availableComponents := none
  acceptsRemoteConfig := false
  retentionUntil := none
  archivedAt := none

/-- The row that `upsertWorkloadFromDescription` writes, from the row it read. -/
def Workload.described (prev : Option Workload) (fp : FingerprintResult) (attrs : Attrs)
    (msg : AgentMessage) (status : WorkloadStatus) (now : Time) (stored : Bool) : Workload :=
  let w := prev.getD .zero
  let service := attr attrs "service.name"
  let version := attr attrs "service.version"
  { w with
    fingerprintSource := fp.source
    fingerprintKeys := fp.keys
    displayName := if service ≠ "" then service else w.displayName
    version := if version ≠ "" then version else w.version
    type := classifyAgent attrs
    status := status
    lastSeenAt := now
    acceptsRemoteConfig := msg.acceptsRemoteConfig
    labels := describedLabels w.labels attrs
    retentionUntil := none
    activeConfigID := (persistEffectiveConfig msg.effectiveConfig stored).or w.activeConfigID
    availableComponents :=
      (flattenAvailableComponents msg.availableComponents).or w.availableComponents }

abbrev Workloads := String → Option Workload

namespace Workloads

/-- `UpsertWorkload`: a null snapshot or component list keeps the stored one. -/
def upsertWorkload (rows : Workloads) (id : String) (w : Workload) : Workloads :=
  let old := rows id
  Function.update rows id (some
    { w with
      fingerprintSource := if w.fingerprintSource = "" then "uid" else w.fingerprintSource
      remoteConfigStatus :=
        (w.remoteConfigStatus.map RemoteConfigStatus.sanitized).or
          (old.bind Workload.remoteConfigStatus)
      availableComponents := w.availableComponents.or (old.bind Workload.availableComponents) })

def markWorkloadDisconnected (rows : Workloads) (id : String) (retentionUntil : Time) : Workloads :=
  Function.update rows id ((rows id).map fun w =>
    { w with status := .disconnected, retentionUntil := some retentionUntil })

def clearWorkloadRetention (rows : Workloads) (id : String) : Workloads :=
  Function.update rows id ((rows id).map fun w => { w with retentionUntil := none })

def archiveExpiredWorkloads (rows : Workloads) (now : Time) : Workloads := fun id =>
  (rows id).map fun w =>
    if w.archivedAt = none ∧ w.retentionUntil.any (· < now) = true then
      { w with archivedAt := some now }
    else w

end Workloads

end OtelMagnify.Server
