import OtelMagnify.Yaml.Value

/-! The result of `internal/oteldiff`: a semantic diff of two Collector configurations. -/
namespace OtelMagnify.Diff
open Yaml GoString

def schemaVersion : String := "otel-config-diff.v1"

def blastRadiusSchemaVersion : String := "otel-config-blast-radius.v1"

def maskedValue : String := "••••masked••••"

inductive Risk where
  | none
  | low
  | medium
  | high
  deriving DecidableEq, Repr

inductive ChangeKind where
  | added
  | removed
  | modified
  | unchanged
  deriving DecidableEq, Repr

/-- `componentCategories` -/
inductive Category where
  | receivers
  | processors
  | exporters
  | connectors
  | extensions
  deriving DecidableEq, Repr

def Category.all : List Category := [.receivers, .processors, .exporters, .connectors, .extensions]

def Category.name : Category → String
  | .receivers => "receivers"
  | .processors => "processors"
  | .exporters => "exporters"
  | .connectors => "connectors"
  | .extensions => "extensions"

inductive Rule where
  | exporterRemoved
  | batchProcessorRemovedFromPipeline
  | memoryLimiterRemovedFromPipeline
  | samplingGuardRemoved
  | authHeaderModified
  | transportSecurityWeakened
  | samplingRateStronglyChanged
  | samplingPolicyModified
  | pipelineRemoved
  | pipelineBroken
  | pipelineExporterSetChanged
  | otlpEndpointChanged
  | receiverEndpointExposureChanged
  deriving DecidableEq, Repr

def Rule.name : Rule → String
  | .exporterRemoved => "exporter_removed"
  | .batchProcessorRemovedFromPipeline => "batch_processor_removed_from_pipeline"
  | .memoryLimiterRemovedFromPipeline => "memory_limiter_removed_from_pipeline"
  | .samplingGuardRemoved => "sampling_guard_removed"
  | .authHeaderModified => "auth_header_modified"
  | .transportSecurityWeakened => "transport_security_weakened"
  | .samplingRateStronglyChanged => "sampling_rate_strongly_changed"
  | .samplingPolicyModified => "sampling_policy_modified"
  | .pipelineRemoved => "pipeline_removed"
  | .pipelineBroken => "pipeline_broken"
  | .pipelineExporterSetChanged => "pipeline_exporter_set_changed"
  | .otlpEndpointChanged => "otlp_endpoint_changed"
  | .receiverEndpointExposureChanged => "receiver_endpoint_exposure_changed"

inductive Signal where
  | traces
  | metrics
  | logs
  | profiles
  | unknown
  deriving DecidableEq, Repr

def Signal.name : Signal → String
  | .traces => "traces"
  | .metrics => "metrics"
  | .logs => "logs"
  | .profiles => "profiles"
  | .unknown => "unknown"

structure ComponentRef where
  category : Category
  id : GoString
  type : GoString
  name : GoString
  path : GoString
  deriving DecidableEq

structure FieldChange where
  path : GoString
  before : Value
  after : Value
  risk : Risk

structure ComponentDiff where
  id : GoString
  kind : ChangeKind
  component : ComponentRef
  risk : Risk
  title : GoString
  before : Value := .null
  after : Value := .null
  changedFields : List FieldChange := []
  impactedPipelines : List GoString
  rules : List Rule := []

structure PipelineShape where
  receivers : List GoString
  processors : List GoString
  exporters : List GoString
  deriving DecidableEq

structure PipelineRefChange where
  section_ : Category
  componentID : GoString
  kind : ChangeKind
  fromIndex : Option ℕ := none
  toIndex : Option ℕ := none
  risk : Risk
  reason : Option Rule := none

structure PipelineDiff where
  id : GoString
  kind : ChangeKind
  pipelineKey : GoString
  signal : Signal
  risk : Risk
  before : Option PipelineShape := none
  after : Option PipelineShape := none
  componentRefChanges : List PipelineRefChange := []
  rules : List Rule := []

inductive EndpointKind where
  | otlpHttp
  | otlpGrpc
  | generic
  deriving DecidableEq, Repr

structure EndpointValue where
  raw : GoString
  scheme : GoString := []
  host : GoString := []
  port : ℤ := 0
  path : GoString := []
  normalized : GoString
  insecure : Bool := false
  tlsEnabled : Bool := false

structure EndpointDiff where
  id : GoString
  kind : ChangeKind
  component : ComponentRef
  endpointKind : EndpointKind
  fieldPath : GoString
  before : Option EndpointValue := none
  after : Option EndpointValue := none
  risk : Risk
  rules : List Rule := []

structure SecurityDiff where
  id : GoString
  kind : ChangeKind
  component : ComponentRef
  path : GoString
  field : String
  before : Value
  after : Value
  risk : Risk
  rules : List Rule
  message : String

inductive RiskCategory where
  | security
  | dataLoss
  | cost
  | routing
  deriving DecidableEq, Repr

structure RiskItem where
  id : GoString
  risk : Risk
  category : RiskCategory
  rule : Rule
  title : GoString
  description : GoString
  affectedPaths : List GoString
  affectedPipelines : List GoString

inductive SummaryCategory where
  | component
  | field
  | pipeline
  | unchanged
  deriving DecidableEq, Repr

structure HumanSummaryItem where
  text : GoString
  category : SummaryCategory
  kind : ChangeKind
  risk : Risk
  componentID : GoString := []
  pipelineKey : GoString := []
  signal : Option Signal := none
  path : GoString := []

structure Counts where
  componentsAdded : ℕ := 0
  componentsRemoved : ℕ := 0
  componentsModified : ℕ := 0
  pipelinesAdded : ℕ := 0
  pipelinesRemoved : ℕ := 0
  pipelinesModified : ℕ := 0
  endpointsAdded : ℕ := 0
  endpointsRemoved : ℕ := 0
  endpointsModified : ℕ := 0
  highRisk : ℕ := 0
  mediumRisk : ℕ := 0
  lowRisk : ℕ := 0

structure Summary where
  overallRisk : Risk
  counts : Counts
  headline : String

structure ConfigRiskScore where
  severity : Risk
  reasons : List GoString
  appliesToCount : ℕ

inductive Side where
  | base
  | target
  deriving DecidableEq, Repr

inductive DiagnosticCode where
  | yamlParse
  | invalidSection
  deriving DecidableEq, Repr

inductive DiagnosticSeverity where
  | error
  | warning
  deriving DecidableEq, Repr

structure Diagnostic where
  side : Side
  code : DiagnosticCode
  message : String
  path : String := ""
  severity : DiagnosticSeverity

structure Normalized where
  baseHash : String
  targetHash : String
  baseComponentCount : ℕ := 0
  targetComponentCount : ℕ := 0
  basePipelineCount : ℕ := 0
  targetPipelineCount : ℕ := 0

structure BlastRadiusService where
  serviceName : GoString
  workloadID : GoString
  displayName : GoString
  type : GoString
  status : GoString

structure BlastRadiusCollector where
  workloadID : GoString
  displayName : GoString
  status : GoString
  reasons : List GoString

structure BlastRadius where
  schemaVersion : String
  affectedSignals : List GoString := []
  touchedExporters : List GoString := []
  impactedServices : List BlastRadiusService := []
  impactedClusters : List GoString := []
  criticalCollectors : List BlastRadiusCollector := []

/-- `labels` and `fingerprintKeys` are maps. -/
structure BlastRadiusWorkload where
  id : GoString := []
  displayName : GoString := []
  type : GoString := []
  status : GoString := []
  labels : List (GoString × GoString) := []
  fingerprintKeys : List (GoString × GoString) := []

structure BlastRadiusContext where
  workload : BlastRadiusWorkload := {}
  fleetPeers : List BlastRadiusWorkload := []

structure ConfigDiff where
  schemaVersion : String
  valid : Bool
  summary : Summary
  riskScore : ConfigRiskScore
  blastRadius : BlastRadius
  humanSummary : List HumanSummaryItem := []
  components : List ComponentDiff := []
  pipelines : List PipelineDiff := []
  endpoints : List EndpointDiff := []
  security : List SecurityDiff := []
  riskItems : List RiskItem := []
  diagnostics : List Diagnostic := []
  normalized : Normalized

structure Component where
  ref : ComponentRef
  cfg : Value

/-- The parts of Go's library and of `yaml.v3` that the diff takes as they are. `literal` is what
`net/url` makes of a host with a bracket. -/
structure Environment where
  caseTable : CaseTable
  sortSlice : SortSlice
  literal : GoString → Option GoString
  unmarshal : List UInt8 → Except String (Option Document)

def textBytes (s : String) : List UInt8 := s.toUTF8.data.toList

theorem textBytes_injective : Function.Injective textBytes := fun _ _ h =>
  String.toByteArray_inj.mp (ByteArray.ext (Array.toList_inj.mp h))

/-- An environment in which two texts decode to the given documents, and no other text does. -/
def Environment.knowing (a b : String) (da db : Document) : Environment where
  caseTable := .asciiOnly
  sortSlice := .stable
  literal _ := none
  unmarshal s :=
    if s = textBytes a then .ok (some da)
    else if s = textBytes b then .ok (some db)
    else .error "unknown document"

theorem Environment.unmarshal_knowing_left (a b : String) (da db : Document) :
    (knowing a b da db).unmarshal (textBytes a) = .ok (some da) := if_pos rfl

theorem Environment.unmarshal_knowing_right {a b : String} (h : b ≠ a) (da db : Document) :
    (knowing a b da db).unmarshal (textBytes b) = .ok (some db) := by
  simp [knowing, textBytes_injective.ne h]

/-- What `parseConfig` reads off a document. Maps are lists of their entries, by increasing key. -/
structure Graph where
  components : Category → List (GoString × Component) := fun _ => []
  pipelines : List (GoString × PipelineShape) := []

def lookup {α : Type} (m : List (GoString × α)) (key : GoString) : Option α :=
  (m.find? fun entry => entry.1 = key).map Prod.snd

variable {α : Type} {key : GoString} {m : List (GoString × α)}

theorem lookup_eq_some_iff {x : α}
    (h : (m.map Prod.fst).Nodup) : lookup m key = some x ↔ (key, x) ∈ m := by
  induction m with
  | nil => simp [lookup]
  | cons entry m ih =>
    obtain ⟨k, y⟩ := entry
    rw [List.map_cons, List.nodup_cons] at h
    rw [lookup, List.find?_cons, List.mem_cons]
    by_cases hk : k = key
    · subst hk
      have hnot : (k, x) ∉ m := fun hmem => h.1 (List.mem_map.mpr ⟨_, hmem, rfl⟩)
      simp [hnot, eq_comm]
    · simpa [hk, Ne.symm hk, lookup] using ih h.2

theorem isSome_lookup_iff : (lookup m key).isSome = true ↔ key ∈ m.map Prod.fst := by
  simp [lookup, List.find?_isSome]

theorem lookup_eq_none_iff : lookup m key = none ↔ key ∉ m.map Prod.fst := by
  rw [← isSome_lookup_iff, Option.not_isSome_iff_eq_none]

def Risk.rank : Risk → ℕ
  | .high => 3
  | .medium => 2
  | .low => 1
  | .none => 0

def Risk.max (a b : Risk) : Risk := if b.rank > a.rank then b else a

theorem Risk.rank_max (a b : Risk) : (a.max b).rank = Nat.max a.rank b.rank := by
  cases a <;> cases b <;> rfl

/-- The largest of some risks is at least each of them. -/
theorem Risk.rank_foldl_max (l : List Risk) (r : Risk) :
    r.rank ≤ (l.foldl Risk.max r).rank ∧ ∀ x ∈ l, x.rank ≤ (l.foldl Risk.max r).rank := by
  induction l generalizing r with
  | nil => simp
  | cons y l ih =>
    obtain ⟨hacc, hall⟩ := ih (r.max y)
    rw [Risk.rank_max] at hacc
    have hr := le_trans (Nat.le_max_left r.rank y.rank) hacc
    have hy := le_trans (Nat.le_max_right r.rank y.rank) hacc
    refine ⟨hr, fun x hx => ?_⟩
    rcases List.mem_cons.mp hx with rfl | hx
    · exact hy
    · exact hall x hx

def appendRule (rules : List Rule) (rule : Rule) : List Rule :=
  if rule ∈ rules then rules else rules ++ [rule]

def dedupeSorted (l : List GoString) : List GoString := sortedSet (l.filter (· ≠ []))

end OtelMagnify.Diff
