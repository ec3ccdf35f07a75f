import OtelMagnify.Diff.Canonical
import OtelMagnify.Diff.Labels
import OtelMagnify.Lib.Sha256

/-! `diff.go`, `human_summary.go`, `risk_score.go` and `blast_radius.go`: the comparison of two
configurations. -/
namespace OtelMagnify.Diff
open Yaml GoString

variable (env : Environment)

section Parse

def parseSection (root : Fields) (cat : Category) : Option Fields :=
  match root.get cat.name with
  | none => some .nil
  | some v => v.asMap

def invalidSection (side : Side) (cat : Category) : Diagnostic where
  side := side
  code := .invalidSection
  path := cat.name
  message := cat.name ++ " section is not an object"
  severity := .warning

/-- The components of a section; the copy that `normalizeValue` makes is equal to the value. -/
def parseComponents (root : Fields) (cat : Category) : List (GoString × Component) :=
  ((parseSection root cat).getD .nil).toList.map fun (id, cfg) =>
    (ofString id, { ref := componentRef cat id, cfg })

def pipelineShape (m : Fields) : PipelineShape where
  receivers := toStringSlice (m.get "receivers")
  processors := toStringSlice (m.get "processors")
  exporters := toStringSlice (m.get "exporters")

def pipelineMap (root : Fields) : Option Fields := do
  let svc ← (← root.get "service").asMap
  (← svc.get "pipelines").asMap

def parsePipelines (root : Fields) : List (GoString × PipelineShape) :=
  match pipelineMap root with
  | none => []
  | some pmap => pmap.toList.filterMap fun (name, v) =>
    v.asMap.map fun m => (ofString name, pipelineShape m)

def parseGraph (root : Fields) : Graph where
  components := parseComponents root
  pipelines := parsePipelines root

/-- The mapping of a document, an empty one for an empty document. -/
def rootOf : Option Document → Fields
  | some doc => doc.root
  | none => .nil

def parseConfig (side : Side) (b : List UInt8) : Graph × List Diagnostic :=
  match env.unmarshal b with
  | .error _ =>
    ({}, [{ side, code := .yamlParse, message := "invalid YAML: parse failed", severity := .error }])
  | .ok doc =>
    let root := rootOf doc
    (parseGraph root,
      (Category.all.filter fun cat => (parseSection root cat).isNone).map (invalidSection side))

end Parse

/-- The state of the comparison. The ids in `seenRisk` are those of `riskItems`. -/
structure Engine where
  base : Graph
  target : Graph
  components : List ComponentDiff := []
  pipelines : List PipelineDiff := []
  endpoints : List EndpointDiff := []
  security : List SecurityDiff := []
  riskItems : List RiskItem := []

namespace Engine

variable (e : Engine)

def addRisk (item : RiskItem) : Engine :=
  if e.riskItems.any fun i => i.id = item.id then e
  else
    { e with
      riskItems := e.riskItems ++ [{ item with
        affectedPaths := dedupeSorted item.affectedPaths
        affectedPipelines := dedupeSorted item.affectedPipelines }] }

/-- `addRisk` with the category, the title and the description of a rule. -/
def addRule (risk : Risk) (paths pipelines : List GoString) (place : GoString) (rule : Rule) :
    Engine :=
  e.addRisk
    { id := rule.name ++ ":" ++ place, risk, category := riskCategory rule, rule
      title := titleForRule rule, description := rule.name, affectedPaths := paths
      affectedPipelines := pipelines }

section Components

/-- The diff of one component, none when the two configurations agree. -/
def componentDiff (cat : Category) (id : GoString) : Option ComponentDiff :=
  let ref := componentRef cat id
  let impacted := impactedPipelines e.base.pipelines e.target.pipelines cat id
  let diffID := cat.name ++ ":" ++ id
  match lookup (e.base.components cat) id, lookup (e.target.components cat) id with
  | none, some t =>
    some { id := diffID, kind := .added, component := ref, risk := .low,
           title := singular cat ++ " " ++ id ++ " added", after := redactValue env t.cfg ref.path,
           impactedPipelines := impacted }
  | some b, none =>
    some { id := diffID, kind := .removed, component := ref, risk := removedComponentRisk env cat id,
           title := singular cat ++ " " ++ id ++ " removed",
           before := redactValue env b.cfg ref.path, impactedPipelines := impacted,
           rules := removedComponentRules env cat id }
  | some b, some t =>
    if canonical b.cfg = canonical t.cfg then none
    else
      let changes := changedFields env ref.path b.cfg t.cfg
      some { id := diffID, kind := .modified, component := ref,
             risk := componentModifiedRisk env id changes,
             title := singular cat ++ " " ++ id ++ " modified",
             before := redactValue env b.cfg ref.path, after := redactValue env t.cfg ref.path,
             changedFields := changes, impactedPipelines := impacted,
             rules := componentModifiedRules env id changes }
  | none, none => none

def componentIDs : List (Category × GoString) :=
  Category.all.flatMap fun cat =>
    (sortedSet ((e.base.components cat ++ e.target.components cat).map Prod.fst)).map fun id =>
      (cat, id)

def addComponent (cd : ComponentDiff) : Engine :=
  let e := cd.rules.foldl (fun e rule =>
    e.addRule cd.risk [cd.component.path] cd.impactedPipelines cd.component.path rule) e
  { e with components := e.components ++ [cd] }

def compareComponents : Engine :=
  (e.componentIDs.filterMap fun (cat, id) => e.componentDiff env cat id).foldl addComponent e

end Components

section Pipelines

/-- What `comparePipelines` adds when a changed pipeline has no exporters or no receivers. -/
def brokenItem (key : GoString) (sec : Category) (title description : String) : RiskItem where
  id := "pipeline_broken:" ++ key ++ ":" ++ sec.name
  risk := .high
  category := .dataLoss
  rule := .pipelineBroken
  title := "Pipeline " ++ key ++ title
  description := description
  affectedPaths := ["service.pipelines." ++ key ++ "." ++ sec.name]
  affectedPipelines := [key]

def removedItem (key : GoString) : RiskItem where
  id := "pipeline_removed:" ++ key
  risk := .high
  category := .dataLoss
  rule := .pipelineRemoved
  title := "Pipeline " ++ key ++ " removed"
  description := "Telemetry pipeline removed"
  affectedPaths := ["service.pipelines." ++ key]
  affectedPipelines := [key]

def pipelineDiff (key : GoString) : Option PipelineDiff :=
  let id := "pipeline:" ++ key
  let signal := signalOf key
  match lookup e.base.pipelines key, lookup e.target.pipelines key with
  | none, some t =>
    some { id, kind := .added, pipelineKey := key, signal, risk := .low, after := some t }
  | some b, none =>
    some { id, kind := .removed, pipelineKey := key, signal, risk := .high, before := some b,
           rules := [.pipelineRemoved] }
  | some b, some t =>
    match pipelineRefChanges env b t with
    | [] => none
    | changes =>
      let broken := t.exporters = [] || t.receivers = []
      let rules := (changes.filterMap (·.reason)).foldl appendRule []
      some { id, kind := .modified, pipelineKey := key, signal,
             risk := if broken then .high else changes.foldl (fun r ch => r.max ch.risk) .low,
             before := some b, after := some t, componentRefChanges := changes,
             rules := if broken then appendRule rules .pipelineBroken else rules }
  | none, none => none

def addPipeline (pd : PipelineDiff) : Engine :=
  let key := pd.pipelineKey
  let e := if pd.kind = .removed then e.addRisk (removedItem key) else e
  let e :=
    match pd.kind, pd.after with
    | .modified, some t =>
      let e :=
        if t.exporters = [] then
          e.addRisk (brokenItem key .exporters " has no exporters" "Telemetry would not be exported")
        else e
      if t.receivers = [] then
        e.addRisk (brokenItem key .receivers " has no receivers" "Telemetry would not be received")
      else e
    | _, _ => e
  let e := pd.componentRefChanges.foldl (fun e ch =>
    match ch.reason with
    | some rule =>
      e.addRule ch.risk ["service.pipelines." ++ key ++ "." ++ ch.section_.name] [key]
        (key ++ ":" ++ ch.componentID) rule
    | none => e) e
  { e with pipelines := e.pipelines ++ [pd] }

def pipelineKeys : List GoString :=
  sortedSet ((e.base.pipelines ++ e.target.pipelines).map Prod.fst)

def comparePipelines : Engine := (e.pipelineKeys.filterMap (e.pipelineDiff env)).foldl addPipeline e

end Pipelines

section Endpoints

def endpointDiff (base target : List (GoString × Endpoint)) (k : GoString) : Option EndpointDiff :=
  let id := "endpoint:" ++ k
  match lookup base k, lookup target k with
  | none, some t =>
    some { id, kind := .added, component := t.component, endpointKind := endpointKind t.component,
           fieldPath := k, after := some t.value, risk := .low }
  | some b, none =>
    some { id, kind := .removed, component := b.component, endpointKind := endpointKind b.component,
           fieldPath := k, before := some b.value, risk := .medium }
  | some b, some t =>
    if b.value.normalized = t.value.normalized then none
    else
      some { id, kind := .modified, component := b.component,
             endpointKind := endpointKind b.component, fieldPath := k, before := some b.value,
             after := some t.value, risk := endpointRisk b.component b.value t.value,
             rules := endpointRules b.component b.value t.value }
  | none, none => none

def addEndpoint (ed : EndpointDiff) : Engine :=
  let impacted :=
    impactedPipelines e.base.pipelines e.target.pipelines ed.component.category ed.component.id
  let e := ed.rules.foldl (fun e rule =>
    e.addRule ed.risk [ed.fieldPath] impacted ed.fieldPath rule) e
  { e with endpoints := e.endpoints ++ [ed] }

def endpointDiffs : List EndpointDiff :=
  let base := extractEndpoints env e.base
  let target := extractEndpoints env e.target
  (sortedSet ((base ++ target).map Prod.fst)).filterMap (endpointDiff base target)

def compareEndpoints : Engine := (e.endpointDiffs env).foldl addEndpoint e

end Endpoints

section Security

/-- `addRisk` and the entry of `Security` for one change. -/
def addSecurity (cd : ComponentDiff) (fc : FieldChange) (kind : ChangeKind) (field message : String)
    (rule : Rule) (title description : String) : Engine :=
  let sd : SecurityDiff :=
    { id := "security:" ++ fc.path, kind, component := cd.component, path := fc.path, field,
      before := fc.before, after := fc.after, risk := .high, rules := [rule], message }
  let e : Engine := { e with security := e.security ++ [sd] }
  e.addRisk
    { id := rule.name ++ ":" ++ fc.path, risk := .high, category := .security, rule,
      title := title, description := description, affectedPaths := [fc.path],
      affectedPipelines := cd.impactedPipelines }

def addField (cd : ComponentDiff) (fc : FieldChange) : Engine :=
  let e :=
    if isAuthOrHeaders (toLower env.caseTable fc.path) then
      e.addSecurity cd fc cd.kind "headers" "Authentication/header value changed; values redacted"
        .authHeaderModified "Auth/header modified"
        "Authentication headers or secret-like auth fields changed"
    else e
  if weakens env fc then
    e.addSecurity cd fc .modified "insecure" "Transport security weakened"
      .transportSecurityWeakened "Transport security weakened" "TLS/insecure setting was weakened"
  else e

/-- One pass of the loop in `compareSecurity`. -/
def secureComponent (cd : ComponentDiff) : Engine :=
  let e := cd.changedFields.foldl (fun e fc => e.addField env cd fc) e
  if cd.kind = .removed && cd.component.category = .exporters then
    e.addRisk
      { id := "exporter_removed:" ++ cd.component.id, risk := .high, category := .dataLoss,
        rule := .exporterRemoved, title := "Exporter " ++ cd.component.id ++ " removed",
        description := "Telemetry destination removed", affectedPaths := [cd.component.path],
        affectedPipelines := cd.impactedPipelines }
  else e

def compareSecurity : Engine := e.components.foldl (fun e cd => e.secureComponent env cd) e

end Security

section Finish

def sorted : Engine :=
  { e with
    components := env.sortSlice.sort (fun a b => less a.id b.id) e.components
    pipelines := env.sortSlice.sort (fun a b => less a.pipelineKey b.pipelineKey) e.pipelines
    endpoints := env.sortSlice.sort (fun a b => less a.fieldPath b.fieldPath) e.endpoints
    security := env.sortSlice.sort (fun a b => less a.path b.path) e.security
    riskItems := env.sortSlice.sort (fun a b =>
      if a.risk ≠ b.risk then b.risk.rank < a.risk.rank else less a.id b.id) e.riskItems }

def componentLines (cd : ComponentDiff) : List HumanSummaryItem :=
  let name := humanComponentName env cd.component.id
  let kind := singular cd.component.category
  let id := humanSafeLabel env cd.component.id
  match cd.kind with
  | .added =>
    [{ text := "Adds " ++ name ++ " " ++ kind, category := .component, kind := cd.kind,
       risk := cd.risk, componentID := id }]
  | .removed =>
    [{ text := "Removes " ++ name ++ " " ++ kind, category := .component, kind := cd.kind,
       risk := cd.risk, componentID := id }]
  | .modified => cd.changedFields.map fun f =>
    { text := "Changes " ++ name ++ " " ++ humanFieldName env f.path, category := .field,
      kind := cd.kind, risk := f.risk, componentID := id, path := humanSafePath env f.path }
  | .unchanged => []

/-- The summary lines of a pipeline: the exporters it gains. -/
def pipelineLines (pd : PipelineDiff) : List HumanSummaryItem :=
  (pd.componentRefChanges.filter fun ch => ch.section_ = .exporters && ch.kind = .added).map
    fun ch =>
      { text := "Routes " ++ ofString pd.signal.name ++ " to " ++
          humanComponentName env ch.componentID,
        category := .pipeline, kind := ch.kind, risk := ch.risk,
        componentID := humanSafeLabel env ch.componentID,
        pipelineKey := humanSafeLabel env pd.pipelineKey, signal := some pd.signal }

/-- The pipelines that stay as they are, when another one changes. -/
def unchangedLines : List HumanSummaryItem :=
  if e.pipelines = [] then []
  else
    (e.pipelineKeys.filter fun key =>
      !(e.pipelines.any fun pd => pd.pipelineKey = key) &&
        (lookup e.base.pipelines key).isSome &&
        lookup e.base.pipelines key = lookup e.target.pipelines key).map fun key =>
      { text := "Keeps " ++ ofString (signalOf key).name ++ " unchanged", category := .unchanged,
        kind := .unchanged, risk := .none, pipelineKey := humanSafeLabel env key,
        signal := some (signalOf key) }

/-- `add`: one line for each text. -/
def addLine (items : List HumanSummaryItem) (item : HumanSummaryItem) : List HumanSummaryItem :=
  if item.text = [] || items.any fun i => i.text = item.text then items else items ++ [item]

def buildHumanSummary : List HumanSummaryItem :=
  (e.components.flatMap (componentLines env) ++ e.pipelines.flatMap (pipelineLines env) ++
    e.unchangedLines env).foldl addLine []

/-- The kind and the risk of each component, pipeline and endpoint. -/
def risks : List Risk :=
  e.components.map (·.risk) ++ e.pipelines.map (·.risk) ++ e.endpoints.map (·.risk)

def counts : Counts where
  componentsAdded := e.components.countP (·.kind = .added)
  componentsRemoved := e.components.countP (·.kind = .removed)
  componentsModified := e.components.countP (·.kind = .modified)
  pipelinesAdded := e.pipelines.countP (·.kind = .added)
  pipelinesRemoved := e.pipelines.countP (·.kind = .removed)
  pipelinesModified := e.pipelines.countP (·.kind = .modified)
  endpointsAdded := e.endpoints.countP (·.kind = .added)
  endpointsRemoved := e.endpoints.countP (·.kind = .removed)
  endpointsModified := e.endpoints.countP (·.kind = .modified)
  highRisk := e.risks.countP (· = .high)
  mediumRisk := e.risks.countP (· = .medium)
  lowRisk := e.risks.countP (· = .low)

def overallRisk : Risk := (e.riskItems.map (·.risk) ++ e.risks).foldl Risk.max .none

end Finish

end Engine

def headline : Risk → String
  | .high => "High risk: dangerous OTel Collector changes detected"
  | .medium => "Medium risk: review routing, endpoints, sampling, or auth changes"
  | .low => "Low risk: no telemetry path or destination appears to be removed"
  | .none => "No OTel semantic changes detected"

def riskReason (item : RiskItem) : GoString :=
  match item.rule with
  | .pipelineRemoved =>
    match item.affectedPipelines with
    | key :: _ => "Pipeline " ++ key ++ " removed"
    | [] => "Pipeline removed"
  | .otlpEndpointChanged => "OTLP endpoint changed"
  | .memoryLimiterRemovedFromPipeline => "Memory limiter removed from pipeline"
  | .batchProcessorRemovedFromPipeline => "Batch processor removed from pipeline"
  | .pipelineBroken => "Pipeline broken"
  | .transportSecurityWeakened => "Transport security weakened"
  | .authHeaderModified => "Auth/header modified"
  | .exporterRemoved => "Exporter removed"
  | .samplingGuardRemoved => "Sampling guard removed"
  | .samplingRateStronglyChanged => "Sampling rate strongly changed"
  | .receiverEndpointExposureChanged => "Receiver endpoint exposure changed"
  | .pipelineExporterSetChanged => "Pipeline exporter set changed"
  | .samplingPolicyModified => trimSpace item.title

def buildRiskScore (severity : Risk) (items : List RiskItem) (appliesToCount : ℕ) :
    ConfigRiskScore where
  severity := severity
  reasons := (items.map riskReason).foldl (fun reasons reason =>
    if reason = [] || reason ∈ reasons then reasons else reasons ++ [reason]) []
  appliesToCount := appliesToCount

section BlastRadius

def emptyBlastRadius : BlastRadius where
  schemaVersion := blastRadiusSchemaVersion

/-- `sortedSet` of `blast_radius.go`. -/
def nonBlankSet (l : List GoString) : List GoString := sortedSet (l.filter fun s => trimSpace s ≠ [])

def serviceKeys : List String := ["service.name", "service", "app.kubernetes.io/name"]

def clusterKeys : List String :=
  ["k8s.cluster.name", "cluster", "k8s.namespace.name", "deployment.environment"]

def workloadValue (wl : BlastRadiusWorkload) (key : String) : GoString :=
  let ok (v : GoString) : Bool := v ≠ [] && !looksSecret env v && !isSecretKey env key
  let label := trimSpace ((lookup wl.labels key).getD [])
  let fingerprint := trimSpace ((lookup wl.fingerprintKeys key).getD [])
  if ok label then label else if ok fingerprint then fingerprint else []

def firstWorkloadValue (wl : BlastRadiusWorkload) (keys : List String) : GoString :=
  ((keys.map (workloadValue env wl)).find? (· ≠ [])).getD []

def workloadInClusters (wl : BlastRadiusWorkload) (clusters : List GoString) : Bool :=
  clusters = [] || clusterKeys.any fun key => workloadValue env wl key ∈ clusters

/-- `strings.EqualFold` with a text whose letters have no other form than the ASCII ones. -/
def equalFold (s : GoString) (text : String) : Bool :=
  (s.map fun | .char c => .char c.toLower | r => r) = ofString text

def isCollectorWorkload (wl : BlastRadiusWorkload) : Bool :=
  equalFold wl.type "collector" || contains (toLower env.caseTable wl.displayName) "collector"

def labelReasons (label : GoString × GoString) : List GoString :=
  let k := toLower env.caseTable label.1
  let v := toLower env.caseTable (trimSpace label.2)
  (if (k = ofString "critical" && v = ofString "true") ||
      (k = ofString "tier" && v = ofString "critical") then [k ++ "_" ++ v] else []) ++
    (if v = ofString "prod" || v = ofString "production" then [ofString "production_label"] else [])

def criticalCollectorReasons (wl : BlastRadiusWorkload) : List GoString :=
  let status := toLower env.caseTable (trimSpace wl.status)
  let isProduction (key : String) : Bool :=
    let v := toLower env.caseTable (workloadValue env wl key)
    v = ofString "prod" || v = ofString "production" || hasPrefix v "prod-"
  dedupeSorted <|
    (if isCollectorWorkload env wl then [ofString "collector_workload"] else []) ++
    (if status = ofString "degraded" || status = ofString "disconnected" then
      ["status_" ++ status] else []) ++
    wl.labels.flatMap (labelReasons env) ++
    (if clusterKeys.any isProduction then [ofString "production_label"] else [])

/-- The workload of the request and its peers in the same clusters. -/
def scopedWorkloads (ctx : BlastRadiusContext) : List BlastRadiusWorkload × List GoString :=
  let wl := ctx.workload
  let target :=
    if wl.id ≠ [] || wl.displayName ≠ [] || wl.labels ≠ [] || wl.fingerprintKeys ≠ [] then [wl]
    else []
  let clusters :=
    (target.flatMap fun wl => clusterKeys.map (workloadValue env wl)).filter (· ≠ [])
  (target ++ ctx.fleetPeers.filter fun wl => clusters ≠ [] && workloadInClusters env wl clusters,
    clusters)

def impactedServices (wls : List BlastRadiusWorkload) : List BlastRadiusService :=
  wls.foldl (fun out wl =>
    let svc := firstWorkloadValue env wl serviceKeys
    let key (id name : GoString) : GoString := id ++ "\x00" ++ name
    if svc = [] || out.any fun s => key s.workloadID s.serviceName = key wl.id svc then out
    else
      out ++ [{ serviceName := svc, workloadID := wl.id, displayName := wl.displayName,
                type := wl.type, status := wl.status }]) []

def criticalCollectors (wls : List BlastRadiusWorkload) : List BlastRadiusCollector :=
  (wls.filter (isCollectorWorkload env)).filterMap fun wl =>
    match criticalCollectorReasons env wl with
    | [] => none
    | reasons =>
      some { workloadID := wl.id, displayName := wl.displayName, status := wl.status, reasons }

def affectedSignals (e : Engine) : List Signal :=
  (e.pipelines.map (·.signal) ++ e.components.flatMap (·.impactedPipelines.map signalOf) ++
    e.riskItems.flatMap (·.affectedPipelines.map signalOf)).filter (· ≠ .unknown)

def touchedExporters (e : Engine) : List GoString :=
  (e.pipelines.flatMap fun pd => (pd.componentRefChanges.filter fun ch =>
      ch.section_ = .exporters && ch.componentID ≠ []).map (·.componentID)) ++
    (e.components.filter (·.component.category = .exporters)).map (·.component.id) ++
    (e.endpoints.filter (·.component.category = .exporters)).map (·.component.id)

def buildBlastRadius (e : Engine) (ctx : BlastRadiusContext) : BlastRadius :=
  let (wls, clusters) := scopedWorkloads env ctx
  { emptyBlastRadius with
    affectedSignals := nonBlankSet ((affectedSignals e).map fun s => ofString s.name)
    touchedExporters := nonBlankSet (touchedExporters e)
    impactedClusters := nonBlankSet clusters
    impactedServices :=
      env.sortSlice.sort (fun a b => less a.serviceName b.serviceName) (impactedServices env wls)
    criticalCollectors :=
      env.sortSlice.sort (fun a b => less a.workloadID b.workloadID) (criticalCollectors env wls) }

end BlastRadius

def hashYAML (b : List UInt8) : String := "sha256:" ++ Sha256.hexEncode (Sha256.sum256 b)

def countComponents (g : Graph) : ℕ := (Category.all.map fun cat => (g.components cat).length).sum

/-- The comparison of two graphs, up to the order of the result. -/
def runEngine (base target : Graph) : Engine :=
  let e : Engine := { base, target }
  let e := e.compareComponents env
  let e := e.comparePipelines env
  let e := e.compareEndpoints env
  (e.compareSecurity env).sorted env

section Frame

def componentDiffs (base target : Graph) : List ComponentDiff :=
  let e : Engine := { base, target }
  e.componentIDs.filterMap fun (cat, id) => e.componentDiff env cat id

def pipelineDiffs (base target : Graph) : List PipelineDiff :=
  let e : Engine := { base, target }
  e.pipelineKeys.filterMap (e.pipelineDiff env)

def endpointDiffs (base target : Graph) : List EndpointDiff :=
  Engine.endpointDiffs env { base, target }

namespace Engine

/-- The two graphs and the diffs, without what is said about their risks. -/
def frame (e : Engine) : Engine := { e with security := [], riskItems := [] }

def Shows (sd : SecurityDiff) (fc : FieldChange) : Prop :=
  sd.before = fc.before ∧ sd.after = fc.after

/-- Risks and entries of `Security` are added, the entries as `R` allows, and nothing else
changes. -/
def Grows (R : SecurityDiff → Prop) (e e' : Engine) : Prop :=
  ∃ items security, e.riskItems ⊆ items ∧ (∀ sd ∈ security, sd ∈ e.security ∨ R sd) ∧
    e' = { e with riskItems := items, security := security }

section Grows

variable {R : SecurityDiff → Prop} {e e' e'' : Engine}

theorem Grows.refl (e : Engine) : Grows R e e :=
  ⟨_, _, List.Subset.refl _, fun _ h => .inl h, rfl⟩

theorem Grows.trans (h : Grows R e e') (h' : Grows R e' e'') : Grows R e e'' := by
  obtain ⟨items, security, hi, hs, rfl⟩ := h
  obtain ⟨items', security', hi', hs', rfl⟩ := h'
  exact ⟨items', security', List.Subset.trans hi hi', fun sd h => (hs' sd h).elim (hs sd) .inr, rfl⟩

theorem Grows.frame (h : Grows R e e') : e'.frame = e.frame := by
  obtain ⟨items, security, -, -, rfl⟩ := h
  rfl

theorem Grows.riskItems (h : Grows R e e') : e.riskItems ⊆ e'.riskItems := by
  obtain ⟨items, security, hi, -, rfl⟩ := h
  exact hi

theorem Grows.security (h : Grows R e e') : ∀ sd ∈ e'.security, sd ∈ e.security ∨ R sd := by
  obtain ⟨items, security, -, hs, rfl⟩ := h
  exact hs

theorem Grows.foldl {α : Type} {f : Engine → α → Engine} {l : List α}
    (h : ∀ e, ∀ x ∈ l, Grows R e (f e x)) (e : Engine) : Grows R e (l.foldl f e) :=
  List.foldlRecOn l f (motive := Grows R e) (.refl e) fun e' he x hx => he.trans (h e' x hx)

theorem Grows.ite (h : Grows R e e') (c : Prop) [Decidable c] :
    Grows R e (if c then e' else e) := by
  split
  · exact h
  · exact .refl e

/-- What does not touch the risks and the entries can be done before them. -/
theorem Grows.map (h : Grows R e e') (g : Engine → Engine)
    (hg : ∀ items security, g { e with riskItems := items, security := security } =
      { g e with riskItems := items, security := security })
    (hi : (g e).riskItems = e.riskItems) (hs : (g e).security = e.security) :
    Grows R (g e) (g e') := by
  obtain ⟨items, security, hitems, hsecurity, rfl⟩ := h
  exact ⟨items, security, hi ▸ hitems, hs ▸ hsecurity, hg items security⟩

theorem grows_addRisk (e : Engine) (item : RiskItem) : Grows R e (e.addRisk item) := by
  unfold addRisk
  split
  · exact .refl e
  · exact ⟨_, e.security, List.subset_append_left _ _, fun _ h => .inl h, rfl⟩

theorem grows_addComponent (e : Engine) (cd : ComponentDiff) :
    Grows (fun _ => False) { e with components := e.components ++ [cd] } (e.addComponent cd) :=
  (Grows.foldl (fun e _ _ => grows_addRisk e _) e).map
    (fun e => { e with components := e.components ++ [cd] }) (fun _ _ => rfl) rfl rfl

theorem grows_addPipeline (e : Engine) (pd : PipelineDiff) :
    Grows (fun _ => False) { e with pipelines := e.pipelines ++ [pd] } (e.addPipeline pd) := by
  refine Grows.map (e := e) ?_ (fun e => { e with pipelines := e.pipelines ++ [pd] })
    (fun _ _ => rfl) rfl rfl
  refine Grows.trans ?_ (.foldl (fun e ch _ => ?_) _)
  · refine (Grows.ite (grows_addRisk e (removedItem pd.pipelineKey)) (pd.kind = .removed)).trans ?_
    generalize (if pd.kind = .removed then e.addRisk (removedItem pd.pipelineKey) else e) = e'
    split
    · next shape _ _ =>
      exact (Grows.ite (grows_addRisk _ _) (shape.exporters = [])).trans
        (.ite (grows_addRisk _ _) (shape.receivers = []))
    · exact .refl _
  · split
    · exact grows_addRisk e _
    · exact .refl e

theorem grows_addEndpoint (e : Engine) (ed : EndpointDiff) :
    Grows (fun _ => False) { e with endpoints := e.endpoints ++ [ed] } (e.addEndpoint ed) :=
  (Grows.foldl (fun e _ _ => grows_addRisk e _) e).map
    (fun e => { e with endpoints := e.endpoints ++ [ed] }) (fun _ _ => rfl) rfl rfl

variable {cd : ComponentDiff} {fc : FieldChange}

theorem grows_addSecurity (hR : ∀ sd, Shows sd fc → R sd) (kind : ChangeKind)
    (field message : String) (rule : Rule) (title description : String) :
    Grows R e (e.addSecurity cd fc kind field message rule title description) := by
  refine Grows.trans ⟨e.riskItems, _, List.Subset.refl _, fun sd h => ?_, rfl⟩ (grows_addRisk _ _)
  rcases List.mem_append.mp h with h | h
  · exact .inl h
  · rw [List.mem_singleton.mp h]
    exact .inr (hR _ ⟨rfl, rfl⟩)

theorem grows_secureComponent (hR : ∀ fc ∈ cd.changedFields, ∀ sd, Shows sd fc → R sd) :
    Grows R e (e.secureComponent env cd) := by
  refine (Grows.foldl (fun e fc hfc => ?_) e).trans (.ite (grows_addRisk _ _) _)
  exact (Grows.ite (grows_addSecurity (hR fc hfc) _ _ _ _ _ _) _).trans
    (.ite (grows_addSecurity (hR fc hfc) _ _ _ _ _ _) _)

theorem grows_compareSecurity (e : Engine) :
    Grows (fun sd => ∃ cd ∈ e.components, ∃ fc ∈ cd.changedFields, Shows sd fc) e
      (e.compareSecurity env) :=
  .foldl (fun _ cd hcd => grows_secureComponent env fun fc hfc _ h => ⟨cd, hcd, fc, hfc, h⟩) e

end Grows

theorem frame_addComponent (e : Engine) (cd : ComponentDiff) :
    (e.addComponent cd).frame = { e.frame with components := e.frame.components ++ [cd] } :=
  (grows_addComponent e cd).frame

theorem frame_addComponents (e : Engine) (l : List ComponentDiff) :
    (l.foldl addComponent e).frame = { e.frame with components := e.frame.components ++ l } := by
  induction l generalizing e with
  | nil => simp
  | cons cd l ih => simp [ih, frame_addComponent]

theorem frame_compareComponents (e : Engine) :
    (e.compareComponents env).frame =
      { e.frame with
        components := e.frame.components ++ componentDiffs env e.frame.base e.frame.target } :=
  frame_addComponents e _

theorem frame_addPipeline (e : Engine) (pd : PipelineDiff) :
    (e.addPipeline pd).frame = { e.frame with pipelines := e.frame.pipelines ++ [pd] } :=
  (grows_addPipeline e pd).frame

theorem frame_addPipelines (e : Engine) (l : List PipelineDiff) :
    (l.foldl addPipeline e).frame = { e.frame with pipelines := e.frame.pipelines ++ l } := by
  induction l generalizing e with
  | nil => simp
  | cons pd l ih => simp [ih, frame_addPipeline]

theorem frame_comparePipelines (e : Engine) :
    (e.comparePipelines env).frame =
      { e.frame with
        pipelines := e.frame.pipelines ++ pipelineDiffs env e.frame.base e.frame.target } :=
  frame_addPipelines e _

theorem frame_addEndpoint (e : Engine) (ed : EndpointDiff) :
    (e.addEndpoint ed).frame = { e.frame with endpoints := e.frame.endpoints ++ [ed] } :=
  (grows_addEndpoint e ed).frame

theorem frame_addEndpoints (e : Engine) (l : List EndpointDiff) :
    (l.foldl addEndpoint e).frame = { e.frame with endpoints := e.frame.endpoints ++ l } := by
  induction l generalizing e with
  | nil => simp
  | cons ed l ih => simp [ih, frame_addEndpoint]

theorem frame_compareEndpoints (e : Engine) :
    (e.compareEndpoints env).frame =
      { e.frame with
        endpoints := e.frame.endpoints ++ Diff.endpointDiffs env e.frame.base e.frame.target } :=
  frame_addEndpoints e _

end Engine

theorem Engine.frame_sorted (e : Engine) :
    (e.sorted env).frame =
      { e.frame with
        components := env.sortSlice.sort (fun a b => less a.id b.id) e.frame.components
        pipelines :=
          env.sortSlice.sort (fun a b => less a.pipelineKey b.pipelineKey) e.frame.pipelines
        endpoints :=
          env.sortSlice.sort (fun a b => less a.fieldPath b.fieldPath) e.frame.endpoints } := rfl

/-- What the comparison leaves in the engine, apart from what is said about risks. -/
theorem frame_runEngine (base target : Graph) :
    (runEngine env base target).frame =
      { base, target
        components :=
          env.sortSlice.sort (fun a b => less a.id b.id) (componentDiffs env base target)
        pipelines := env.sortSlice.sort (fun a b => less a.pipelineKey b.pipelineKey)
          (pipelineDiffs env base target)
        endpoints := env.sortSlice.sort (fun a b => less a.fieldPath b.fieldPath)
          (endpointDiffs env base target) } := by
  simp only [runEngine, Engine.frame_sorted, (Engine.grows_compareSecurity env _).frame,
    Engine.frame_compareEndpoints, Engine.frame_comparePipelines, Engine.frame_compareComponents]
  rfl

section Lists

variable (base target : Graph)

theorem components_eq_sort :
    (runEngine env base target).components =
      env.sortSlice.sort (fun a b => less a.id b.id) (componentDiffs env base target) :=
  congrArg Engine.components (frame_runEngine env base target)

theorem pipelines_eq_sort :
    (runEngine env base target).pipelines =
      env.sortSlice.sort (fun a b => less a.pipelineKey b.pipelineKey)
        (pipelineDiffs env base target) :=
  congrArg Engine.pipelines (frame_runEngine env base target)

theorem endpoints_eq_sort :
    (runEngine env base target).endpoints =
      env.sortSlice.sort (fun a b => less a.fieldPath b.fieldPath)
        (endpointDiffs env base target) :=
  congrArg Engine.endpoints (frame_runEngine env base target)

end Lists

end Frame

def finishedDiff (base target : Graph) (hashes : String × String) (ctx : BlastRadiusContext) :
    ConfigDiff :=
  let e := runEngine env base target
  { schemaVersion := schemaVersion
    valid := true
    summary := { overallRisk := e.overallRisk, counts := e.counts, headline := headline e.overallRisk }
    riskScore := buildRiskScore e.overallRisk e.riskItems 0
    blastRadius := buildBlastRadius env e ctx
    humanSummary := e.buildHumanSummary env
    components := e.components
    pipelines := e.pipelines
    endpoints := e.endpoints
    security := e.security
    riskItems := e.riskItems
    normalized :=
      { baseHash := hashes.1
        targetHash := hashes.2
        baseComponentCount := countComponents base
        targetComponentCount := countComponents target
        basePipelineCount := base.pipelines.length
        targetPipelineCount := target.pipelines.length } }

def invalidDiff (hashes : String × String) (diagnostics : List Diagnostic) : ConfigDiff where
  schemaVersion := schemaVersion
  valid := false
  summary :=
    { overallRisk := .none, counts := {},
      headline := "OTel impact summary unavailable: fix YAML parse errors" }
  riskScore := { severity := .none, reasons := [], appliesToCount := 0 }
  blastRadius := emptyBlastRadius
  diagnostics := diagnostics
  normalized := { baseHash := hashes.1, targetHash := hashes.2 }

def compareWithContext (base target : List UInt8) (ctx : BlastRadiusContext) : ConfigDiff :=
  let (b, baseDiags) := parseConfig env .base base
  let (t, targetDiags) := parseConfig env .target target
  let hashes := (hashYAML base, hashYAML target)
  match baseDiags ++ targetDiags with
  | [] => finishedDiff env b t hashes ctx
  | diagnostics => invalidDiff hashes diagnostics

def compare (base target : List UInt8) : ConfigDiff := compareWithContext env base target {}

section Results

variable {env} {a b : List UInt8} {da db : Option Document} {ctx : BlastRadiusContext}

/-- Every section of components that is there is a mapping. -/
def isReadable (root : Fields) : Bool :=
  Category.all.all fun cat => (parseSection root cat).isSome

theorem isSome_parseSection {root : Fields} (h : isReadable root = true) (cat : Category) :
    (parseSection root cat).isSome = true :=
  List.all_eq_true.mp h cat (by cases cat <;> decide)

theorem diagnostics_eq_nil {side : Side} :
    (parseConfig env side a).2 = [] ↔
      ∃ doc, env.unmarshal a = .ok doc ∧ isReadable (rootOf doc) = true := by
  cases h : env.unmarshal a with
  | error e => simp [parseConfig, h]
  | ok doc => simp [parseConfig, h, isReadable, Option.isSome_iff_ne_none]

theorem parseConfig_graph {side : Side} (h : env.unmarshal a = .ok da) :
    (parseConfig env side a).1 = parseGraph (rootOf da) := by
  simp [parseConfig, h]

theorem compareWithContext_eq (ha : env.unmarshal a = .ok da) (hb : env.unmarshal b = .ok db)
    (hra : isReadable (rootOf da) = true) (hrb : isReadable (rootOf db) = true) :
    compareWithContext env a b ctx =
      finishedDiff env (parseGraph (rootOf da)) (parseGraph (rootOf db)) (hashYAML a, hashYAML b)
        ctx := by
  have hda : (parseConfig env .base a).2 = [] := diagnostics_eq_nil.mpr ⟨da, ha, hra⟩
  have hdb : (parseConfig env .target b).2 = [] := diagnostics_eq_nil.mpr ⟨db, hb, hrb⟩
  simp only [compareWithContext, hda, hdb, List.append_nil, parseConfig_graph ha,
    parseConfig_graph hb]

theorem valid_compareWithContext_iff :
    (compareWithContext env a b ctx).valid = true ↔
      (∃ doc, env.unmarshal a = .ok doc ∧ isReadable (rootOf doc) = true) ∧
        ∃ doc, env.unmarshal b = .ok doc ∧ isReadable (rootOf doc) = true := by
  constructor
  · intro h
    simp only [compareWithContext] at h
    split at h
    · next hnil =>
      obtain ⟨hda, hdb⟩ := List.append_eq_nil_iff.mp hnil
      exact ⟨diagnostics_eq_nil.mp hda, diagnostics_eq_nil.mp hdb⟩
    · cases h
  · rintro ⟨⟨da, ha, hra⟩, db, hb, hrb⟩
    rw [compareWithContext_eq ha hb hra hrb]
    rfl

/-- The diff of two documents that can be decoded, when it is valid. -/
theorem compareWithContext_of_valid (ha : env.unmarshal a = .ok da) (hb : env.unmarshal b = .ok db)
    (hvalid : (compareWithContext env a b ctx).valid = true) :
    compareWithContext env a b ctx =
      finishedDiff env (parseGraph (rootOf da)) (parseGraph (rootOf db)) (hashYAML a, hashYAML b)
        ctx := by
  obtain ⟨⟨_, ha', hra⟩, _, hb', hrb⟩ := valid_compareWithContext_iff.mp hvalid
  cases ha.symm.trans ha'
  cases hb.symm.trans hb'
  exact compareWithContext_eq ha hb hra hrb

theorem compare_knowing {a b : String} {da db : Document} (hne : b ≠ a)
    (hra : isReadable da.root = true) (hrb : isReadable db.root = true) :
    compare (.knowing a b da db) (textBytes a) (textBytes b) =
      finishedDiff (.knowing a b da db) (parseGraph da.root) (parseGraph db.root)
        (hashYAML (textBytes a), hashYAML (textBytes b)) {} := by
  have ha := Environment.unmarshal_knowing_left a b da db
  have hb := Environment.unmarshal_knowing_right hne da db
  rw [compare, compareWithContext_eq ha hb hra hrb, rootOf, rootOf]

end Results

end OtelMagnify.Diff
