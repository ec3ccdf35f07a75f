import OtelMagnify.Diff.Redaction

/-! `labels.go`, `endpoints.go`, `pipeline_refs.go` and the helpers of `util.go`: the names and the
risks of changes of components, endpoints and pipelines. -/
namespace OtelMagnify.Diff
open Yaml GoString

variable (env : Environment)

def componentTypeName (id : GoString) : GoString × GoString :=
  if .char '/' ∈ id then cut '/' id else (id, [])

def componentRef (cat : Category) (id : GoString) : ComponentRef where
  category := cat
  id := id
  type := (componentTypeName id).1
  name := (componentTypeName id).2
  path := cat.name ++ "." ++ id

def singular (cat : Category) : GoString := trimSuffix cat.name "s"

def humanSafeLabel (label : GoString) : GoString :=
  if label = [] then []
  else if isSensitivePath env label || looksSecret env label then maskedValue
  else sanitizeEndpointIfURL env label

def humanComponentName (id : GoString) : GoString :=
  if humanSafeLabel env id = ofString maskedValue then maskedValue
  else
    let (type, name) := componentTypeName id
    let label := if name ≠ [] then name else type
    let l := toLower env.caseTable label
    if l = ofString "loki" then "Loki"
    else if l = ofString "otlp" then "OTLP"
    else if l = ofString "otlphttp" then "OTLP HTTP"
    else if l = ofString "prometheus" then "Prometheus"
    else humanSafeLabel env label

def humanFieldName (path : GoString) : GoString :=
  let field := (split '.' path).getLastD []
  if humanSafeLabel env field = ofString maskedValue then "sensitive setting"
  else replace '_' ' ' field

def humanSafePath (path : GoString) : GoString :=
  join "." ((split '.' path).map (humanSafeLabel env))

def signalOf (key : GoString) : Signal :=
  let sig := (cut '/' key).1
  if sig = ofString "traces" then .traces
  else if sig = ofString "metrics" then .metrics
  else if sig = ofString "logs" then .logs
  else if sig = ofString "profiles" then .profiles
  else .unknown

def removedComponentRisk (cat : Category) (id : GoString) : Risk :=
  let (type, _) := componentTypeName id
  if cat = .exporters || (cat = .processors && (type = ofString "batch" ||
      type = ofString "memory_limiter" || isSamplingID env id)) then .high
  else .medium

def removedComponentRules (cat : Category) (id : GoString) : List Rule :=
  let (type, _) := componentTypeName id
  (if cat = .exporters then [.exporterRemoved] else []) ++
    (if cat = .processors && type = ofString "batch" then
      [.batchProcessorRemovedFromPipeline] else []) ++
    (if cat = .processors && type = ofString "memory_limiter" then
      [.memoryLimiterRemovedFromPipeline] else []) ++
    (if cat = .processors && isSamplingID env id then [.samplingGuardRemoved] else [])

def isAuthOrHeaders (l : GoString) : Bool := isAuthPath l || contains l "headers"

def weakens (f : FieldChange) : Bool :=
  isInsecurePath (toLower env.caseTable f.path) && boolBecameTrue f.before f.after

def componentModifiedRisk (id : GoString) (changes : List FieldChange) : Risk :=
  changes.foldl (fun r f =>
    let l := toLower env.caseTable f.path
    let r := if isAuthOrHeaders l || weakens env f then r.max .high else r
    if isSamplingID env id && contains l "sampling_percentage" then
      r.max (if strongSamplingChange f.before f.after then .high else .medium)
    else r) .low

def componentModifiedRules (id : GoString) (changes : List FieldChange) : List Rule :=
  changes.foldl (fun rules f =>
    let l := toLower env.caseTable f.path
    let rules := if isAuthOrHeaders l then appendRule rules .authHeaderModified else rules
    let rules := if weakens env f then appendRule rules .transportSecurityWeakened else rules
    if isSamplingID env id && contains l "sampling_percentage" then
      appendRule rules (if strongSamplingChange f.before f.after then .samplingRateStronglyChanged
        else .samplingPolicyModified)
    else rules) []

section Endpoints

def isEndpointKey (k : GoString) : Bool :=
  let l := toLower env.caseTable k
  l = ofString "endpoint" || l = ofString "url" || l = ofString "server" ||
    l = ofString "address" || l = ofString "listen_address"

def endpointKind (ref : ComponentRef) : EndpointKind :=
  if hasPrefix ref.type "otlphttp" then .otlpHttp
  else if hasPrefix ref.type "otlp" then .otlpGrpc
  else .generic

/-- An OTLP exporter that sends elsewhere. -/
def otlpTargetChanged (ref : ComponentRef) (b t : EndpointValue) : Bool :=
  hasPrefix ref.type "otlp" && ref.category = .exporters &&
    (b.host ≠ t.host || b.port ≠ t.port || b.scheme ≠ t.scheme)

def schemeWeakened (b t : EndpointValue) : Bool :=
  b.scheme = ofString "https" && t.scheme = ofString "http"

def endpointRisk (ref : ComponentRef) (b t : EndpointValue) : Risk :=
  if otlpTargetChanged ref b t then .high
  else if ref.category = .receivers then .medium
  else if schemeWeakened b t then .high
  else .medium

def endpointRules (ref : ComponentRef) (b t : EndpointValue) : List Rule :=
  (if otlpTargetChanged ref b t then [.otlpEndpointChanged] else []) ++
    (if ref.category = .receivers then [.receiverEndpointExposureChanged] else []) ++
    (if schemeWeakened b t then [.transportSecurityWeakened] else [])

def normalizeURL (u : NetUrl.URL) : GoString :=
  trimRight '/' ({ u with host := toLower env.caseTable u.host, user := none, fragment := {} } :
    NetUrl.URL).string

/-- `strconv.Atoi` of a text of digits, none when it is too large. -/
def portNumber (digits : GoString) : Option ℤ :=
  let n := Nat.ofDigitChars 10 (digits.filterMap fun | .char c => some c | .bad _ => none) 0
  if n < 2 ^ 63 then some n else none

def parseEndpoint (raw : GoString) (ref : ComponentRef) : EndpointValue :=
  let sanitized := sanitizeEndpoint env raw
  let parse :=
    if contains sanitized "://" then sanitized
    else if hasPrefix ref.type "otlphttp" then "http://" ++ sanitized
    else "grpc://" ++ sanitized
  match NetUrl.parse env.literal parse with
  | none => { raw := sanitized, normalized := sanitized }
  | some u =>
    { raw := sanitized
      scheme := u.scheme
      host := toLower env.caseTable u.hostname
      port := if u.port ≠ [] then (portNumber u.port).getD 0 else 0
      path := u.path.escaped .path
      normalized := normalizeURL env u
      insecure := u.scheme = ofString "http" || u.scheme = ofString "grpc"
      tlsEnabled := u.scheme = ofString "https" }

def lastPathPart (path : GoString) : GoString :=
  match cutLast '.' path with
  | some (_, part) => part
  | none => path

def scalarString : Value → Option GoString
  | .str s => some (ofString s)
  | .binary b => some (decode b)
  | .int n => some (ofString (toString n))
  | .float .nan => some (ofString "NaN")
  | .float (.inf neg) => some (ofString (if neg then "-Inf" else "+Inf"))
  | .float (.finite neg m e _) =>
    some (ofString (String.ofList ((if neg then ['-'] else []) ++ Decimal.plain m e)))
  | _ => none

mutual

def walk : Value → GoString → List (GoString × Value)
  | .obj m, path => (path, .obj m) :: walkMembers m path
  | .list l, path => (path, .list l) :: walkElements l path 0
  | v, path => [(path, v)]

def walkMembers : Fields → GoString → List (GoString × Value)
  | .nil, _ => []
  | .cons key v m, path => walk v (child path key) ++ walkMembers m path

def walkElements : Values → GoString → ℕ → List (GoString × Value)
  | .nil, _, _ => []
  | .cons v l, path, i => walk v (element path i) ++ walkElements l path (i + 1)

end

structure Endpoint where
  component : ComponentRef
  value : EndpointValue

def endpointAt (ref : ComponentRef) (entry : GoString × Value) : Option (GoString × Endpoint) :=
  if isEndpointKey env (lastPathPart entry.1) then
    (scalarString entry.2).map fun s =>
      (entry.1, { component := ref, value := parseEndpoint env s ref })
  else none

/-- `out[key] = v` for each of the entries in turn, with the keys in any order. -/
def collect {α : Type} (entries : List (GoString × α)) : List (GoString × α) :=
  entries.foldl (fun m entry => m.filter (·.1 ≠ entry.1) ++ [entry]) []

def extractEndpoints (g : Graph) : List (GoString × Endpoint) :=
  collect <| Category.all.flatMap fun cat => (g.components cat).flatMap fun (_, c) =>
    (walk c.cfg c.ref.path).filterMap (endpointAt env c.ref)

end Endpoints

section Pipelines

def indexMap (l : List GoString) (id : GoString) : Option ℕ :=
  if id ∈ l then some (l.length - 1 - l.reverse.idxOf id) else none

/-- The risk and the rule of a reference that is gone; `empty` when the section has none left. -/
def removedRef (sec : Category) (id : GoString) (empty : Bool) : Risk × Option Rule :=
  let (type, _) := componentTypeName id
  if sec = .exporters then
    if empty then (.high, some .pipelineBroken) else (.medium, some .pipelineExporterSetChanged)
  else if sec = .processors && isSamplingID env id then (.high, some .samplingGuardRemoved)
  else if sec = .processors && type = ofString "memory_limiter" then
    (.high, some .memoryLimiterRemovedFromPipeline)
  else if sec = .processors && type = ofString "batch" then
    (.high, some .batchProcessorRemovedFromPipeline)
  else (.medium, none)

def refChange (sec : Category) (b t : List GoString) (id : GoString) : Option PipelineRefChange :=
  match indexMap b id, indexMap t id with
  | some i, none =>
    let (risk, reason) := removedRef env sec id (t = [])
    some { section_ := sec, componentID := id, kind := .removed, fromIndex := some i, risk, reason }
  | none, some i =>
    some { section_ := sec, componentID := id, kind := .added, toIndex := some i,
           risk := if sec = .receivers then .medium else .low }
  | _, _ => none

def refChanges (sec : Category) (b t : List GoString) : List PipelineRefChange :=
  (sortedSet (b ++ t)).filterMap (refChange env sec b t)

def pipelineRefChanges (b t : PipelineShape) : List PipelineRefChange :=
  refChanges env .receivers b.receivers t.receivers ++
    refChanges env .processors b.processors t.processors ++
    refChanges env .exporters b.exporters t.exporters

def pipelineUses (p : PipelineShape) (cat : Category) (id : GoString) : Bool :=
  match cat with
  | .receivers => id ∈ p.receivers
  | .processors => id ∈ p.processors
  | .exporters => id ∈ p.exporters
  | _ => false

def impactedPipelines (base target : List (GoString × PipelineShape)) (cat : Category)
    (id : GoString) : List GoString :=
  sortedSet (((base ++ target).filter fun (_, p) => pipelineUses p cat id).map Prod.fst)

end Pipelines

def riskCategory (rule : Rule) : RiskCategory :=
  let r := ofString rule.name
  if contains r "auth" || contains r "security" || contains r "tls" || contains r "insecure" then
    .security
  else if contains r "pipeline" || contains r "exporter" then .dataLoss
  else if contains r "sampling" then .cost
  else .routing

def titleForRule (rule : Rule) : GoString := replace '_' ' ' rule.name

end OtelMagnify.Diff
