import OtelMagnify.Diff.Redaction
import OtelMagnify.Lib.GoText
import OtelMagnify.Push.ErrorText

/-! `configpolicy`: the rules that a candidate config is evaluated against. The source goes through
the members of a mapping by their sorted keys, which is their order here. -/
namespace OtelMagnify.Policy
open Yaml GoString
open GoText (equalFold)

inductive Decision where
  | pass | warn | block
  deriving DecidableEq, Repr

inductive Severity where
  | info | warning | critical
  deriving DecidableEq, Repr

structure Target where
  environment : String
  scope : String := ""
  workloadID : String := ""
  tenantID : String := ""
  teamID : String := ""
  deriving DecidableEq, Repr

/-- `SamplingPolicySettings`; zero is the zero value. -/
structure SamplingSettings where
  minPercentage : Double := .finite false 0 0 (by decide)
  maxPercentage : Double := .finite false 0 0 (by decide)
  deriving DecidableEq, Repr

structure Settings where
  allowedOTLPEndpoints : List String := []
  criticalExporters : List String := []
  requiredResourceAttributes : List String := []
  sampling : SamplingSettings := {}
  deriving DecidableEq, Repr

/-- A finding. Its policy id and rule id are its rule code, and its paths are its path. -/
structure Finding where
  ruleCode : String
  policyName : String
  severity : Severity
  decision : Decision
  targetScope : String
  environment : String
  path : String
  message : String
  remediation : String
  deriving DecidableEq, Repr

structure Summary where
  passCount : ℕ := 0
  warnCount : ℕ := 0
  blockCount : ℕ := 0
  deriving DecidableEq, Repr

/-- `EvaluationResult` without its constants. -/
structure Evaluation where
  decision : Decision := .pass
  severity : Severity := .info
  valid : Bool := true
  allowed : Bool := true
  target : Target
  settings : Settings
  findings : List Finding
  summary : Summary := {}
  deriving DecidableEq, Repr

structure Request where
  currentYAML : String := ""
  candidateYAML : String
  target : Target
  settings : Settings := {}
  deriving DecidableEq, Repr

/-- The YAML decoder, what `net/url` makes of a host in brackets, `unicode.ToLower`, and the
conversions of `float64`: from an integer, `strconv.ParseFloat` and the verb `%.4g`. -/
structure Environment where
  decode : Decoder
  literal : GoString → Option GoString
  caseTable : CaseTable
  float64 : ℤ → Double
  parseFloat : GoString → Option Double
  formatG4 : Double → String

variable (env : Environment)

def finding (code name : String) (severity : Severity) (decision : Decision) (target : Target)
    (path message remediation : String) : Finding where
  ruleCode := code
  policyName := name
  severity := severity
  decision := decision
  targetScope := target.scope
  environment := target.environment
  path := path
  message := message
  remediation := remediation

section Documents

def parseConfig (raw : String) : Except String Fields :=
  (env.decode raw).map fun doc => (doc.map Document.root).getD .nil

def isProduction (environment : String) : Bool :=
  let environment := Push.toLower (Push.trimSpace environment)
  environment = "prod" || environment = "production"

/-- A member that is a `map[string]any`; the nil map has no members either. -/
def asMapOrEmpty (v : Option Value) : Fields := (v.bind Value.asMap).getD .nil

def section_ (root : Fields) (name : String) : Fields := asMapOrEmpty (root.get name)

def pipelines (root : Fields) : Fields := asMapOrEmpty ((section_ root "service").get "pipelines")

def componentBase (id : GoString) : GoString := (cut '/' (trimSpace id)).1

def containsComponentType (ids : List GoString) (componentType : String) : Bool :=
  ids.any fun id => componentBase id = ofString componentType

def hasTopLevelComponent (root : Fields) (category componentType : String) : Bool :=
  (section_ root category).keys.any fun id => componentBase id = ofString componentType

def pipelineExporters (root : Fields) : List GoString :=
  (pipelines root).toList.flatMap fun (_, pipeline) =>
    toStringSlice ((asMapOrEmpty pipeline).get "exporters")

end Documents

section InsecureTLS

mutual

def hasInsecureTrue : Value → Bool
  | .obj m => hasInsecureMember m
  | .list l => hasInsecureElement l
  | _ => false

def hasInsecureMember : Fields → Bool
  | .nil => false
  | .cons key child m =>
    (equalFold key "insecure" && child = .bool true) || hasInsecureTrue child ||
      hasInsecureMember m

def hasInsecureElement : Values → Bool
  | .nil => false
  | .cons child l => hasInsecureTrue child || hasInsecureElement l

end

/-- `insecureTLSFindings`; the two sections come in any order. -/
def insecureTLSFindings (root : Fields) (target : Target) : List Finding :=
  ["exporters", "receivers"].flatMap fun category =>
    ((section_ root category).toList.filter fun (_, comp) => hasInsecureTrue comp).map
      fun (id, _) =>
        finding "community.production.insecure_tls" "Forbid insecure TLS in production" .critical
          .block target (category ++ "." ++ id ++ ".tls.insecure")
          "insecure: true is not allowed for production targets"
          "Disable insecure TLS or target a non-production environment."

end InsecureTLS

def memoryLimiterFindings (root : Fields) (target : Target) : List Finding :=
  if hasTopLevelComponent root "processors" "memory_limiter" then []
  else
    [finding "community.processors.memory_limiter.required" "Memory limiter required" .critical
      .block target "processors.memory_limiter"
      "production collector configs must define a memory_limiter processor"
      "Add a memory_limiter processor and include it in every service pipeline."]

def pipelineProcessors (pipeline : Value) : List GoString :=
  toStringSlice ((asMapOrEmpty pipeline).get "processors")

def missingBatchFindings (root : Fields) (target : Target) : List Finding :=
  ((pipelines root).toList.filter fun (_, pipeline) =>
    !containsComponentType (pipelineProcessors pipeline) "batch").map fun (name, _) =>
      finding "community.pipelines.batch.required" "Batch processor required" .critical .block
        target ("service.pipelines." ++ name ++ ".processors")
        "service pipeline must include a batch processor"
        "Add batch to the processor chain for this pipeline."

section Endpoints

def endpointHost (endpoint : GoString) : GoString :=
  let raw := trimSpace endpoint
  if raw = [] then []
  else
    let raw := if contains raw (ofString "://") then raw else ofString "scheme://" ++ raw
    match NetUrl.parse env.literal raw with
    | some u => toLower env.caseTable u.hostname
    | none => []

def endpointAllowed (endpoint : GoString) (allowlist : List String) : Bool :=
  let host := endpointHost env endpoint
  host ≠ [] && allowlist.any fun allowed =>
    let allowed := endpointHost env (ofString allowed)
    allowed ≠ [] && (host = allowed || hasSuffix host (.char '.' :: allowed))

def isOTLP (id : String) : Bool :=
  componentBase (ofString id) = ofString "otlp" || componentBase (ofString id) = ofString "otlphttp"

def endpointOf (comp : Value) : GoString :=
  (((asMapOrEmpty comp).get "endpoint").bind Value.asString).getD []

def otlpEndpointFindings (root : Fields) (target : Target) (allowlist : List String) :
    List Finding :=
  if allowlist = [] then []
  else
    ((section_ root "exporters").toList.filter fun (id, comp) =>
      isOTLP id && trimSpace (endpointOf comp) ≠ [] &&
        !endpointAllowed env (endpointOf comp) allowlist).map fun (id, _) =>
          finding "community.exporters.otlp_endpoint.allowlist" "OTLP endpoint allowlist" .critical
            .block target ("exporters." ++ id ++ ".endpoint")
            "OTLP exporter endpoint is outside the configured allowlist"
            ("Add the endpoint host to server-side policy settings or use an approved " ++
              "collector gateway.")

end Endpoints

section Resource

def resourceAttributes (root : Fields) : List GoString :=
  (section_ root "processors").toList.flatMap fun (id, comp) =>
    if componentBase (ofString id) = ofString "resource" then
      (elements ((asMapOrEmpty comp).get "attributes")).map fun item =>
        (((asMapOrEmpty item).get "key").bind Value.asString).getD []
    else []

def requiredAttributes (requiredAttrs : List String) : List GoString :=
  (requiredAttrs.map fun attr => trimSpace (ofString attr)).filter (· ≠ [])

def resourceIdentityFindings (root : Fields) (target : Target) (requiredAttrs : List String) :
    List Finding :=
  if (requiredAttributes requiredAttrs).all (· ∈ resourceAttributes root) then []
  else
    [finding "community.resource.attributes.required" "Resource attributes required" .critical
      .block target "processors.resource.attributes"
      "resource processor is missing required identity attributes"
      "Add a resource processor that upserts the required attributes."]

end Resource

section Sampling

/-- A finite number over the exponent `e`, which is not greater than its own. -/
def scaled (neg : Bool) (mantissa : ℕ) (exponent e : ℤ) : ℤ :=
  let n : ℤ := mantissa * 10 ^ (exponent - e).toNat
  if neg then -n else n

def doubleLess : Double → Double → Bool
  | .nan, _ | _, .nan => false
  | .inf true, b => b ≠ .inf true
  | _, .inf true => false
  | .inf false, _ => false
  | _, .inf false => true
  | .finite n m e _, .finite n' m' e' _ => scaled n m e (min e e') < scaled n' m' e' (min e e')

def isZero : Double → Bool
  | .finite _ m _ _ => m = 0
  | _ => false

def number : Option Value → Option Double
  | some (.int n) => some (env.float64 n)
  | some (.float f) => some f
  | some v => v.asString.bind env.parseFloat
  | none => none

def outOfRange (v : Option Value) (minPercentage maxPercentage : Double) : Option Double :=
  (number env v).filter fun pct => doubleLess pct minPercentage || doubleLess maxPercentage pct

def samplingFinding (target : Target) (path : String) (minPercentage maxPercentage pct : Double) :
    Finding :=
  finding "community.sampling.percentage.safe_range" "Sampling percentage safe range" .warning
    .block target path
    ("sampling percentage " ++ env.formatG4 pct ++ " is outside the safe range " ++
      env.formatG4 minPercentage ++ "-" ++ env.formatG4 maxPercentage)
    "Set sampling_percentage within the server-side safe range."

def samplingPercentages (id : String) (comp : Value) : List (String × Option Value) :=
  let comp := asMapOrEmpty comp
  if componentBase (ofString id) = ofString "probabilistic_sampler" then
    [("processors." ++ id ++ ".sampling_percentage", comp.get "sampling_percentage")]
  else if componentBase (ofString id) = ofString "tail_sampling" then
    (elements (comp.get "policies")).mapIdx fun i p =>
      ("processors." ++ id ++ ".policies[" ++ toString i ++ "].sampling_percentage",
        (asMapOrEmpty p).get "sampling_percentage")
  else []

def samplingFindings (root : Fields) (target : Target) (minPercentage maxPercentage : Double) :
    List Finding :=
  (section_ root "processors").toList.flatMap fun (id, comp) =>
    (samplingPercentages id comp).filterMap fun (path, v) =>
      (outOfRange env v minPercentage maxPercentage).map
        (samplingFinding env target path minPercentage maxPercentage)

end Sampling

def criticalSet (current : Fields) (critical : List String) : List GoString :=
  if critical = [] then pipelineExporters current
  else critical.map fun id => trimSpace (ofString id)

def criticalExporterRemovalFindings (current candidate : Fields) (target : Target)
    (critical : List String) : List Finding :=
  if (criticalSet current critical).all (· ∈ pipelineExporters candidate) then []
  else
    [finding "community.exporters.critical_removal" "Critical exporter removal" .critical .block
      target "service.pipelines.traces.exporters"
      "candidate config removes an exporter considered critical from the current config"
      ("Keep critical exporters in service pipelines or explicitly change server-side policy " ++
        "settings.")]

section Evaluate

def normalizeSettings (settings : Settings) : Settings :=
  { settings with
    sampling :=
      { minPercentage :=
          if isZero settings.sampling.minPercentage then .finite false 1 (-1) (by decide)
          else settings.sampling.minPercentage
        maxPercentage :=
          if isZero settings.sampling.maxPercentage then .finite false 1 2 (by decide)
          else settings.sampling.maxPercentage } }

def sortFindings (findings : List Finding) : List Finding :=
  findings.mergeSort fun a b =>
    if a.ruleCode = b.ruleCode then a.path ≤ b.path else a.ruleCode ≤ b.ruleCode

def Severity.rank : Severity → ℕ
  | .info => 0
  | .warning => 1
  | .critical => 2

def maxSeverity (current next : Severity) : Severity :=
  if current.rank < next.rank then next else current

def countFinding (result : Evaluation) (f : Finding) : Evaluation :=
  match f.decision with
  | .block =>
    { result with
      summary := { result.summary with blockCount := result.summary.blockCount + 1 }
      decision := .block, valid := false, allowed := false
      severity := maxSeverity result.severity f.severity }
  | .warn =>
    let result := { result with
      summary := { result.summary with warnCount := result.summary.warnCount + 1 } }
    if result.decision = .block then result
    else { result with decision := .warn, severity := maxSeverity result.severity f.severity }
  | .pass =>
    { result with summary := { result.summary with passCount := result.summary.passCount + 1 } }

def finalize (target : Target) (settings : Settings) (findings : List Finding) : Evaluation :=
  findings.foldl countFinding { target, settings, findings }

/-- The comparison with the current config, when there is one that can be parsed. -/
def currentConfigFindings (req : Request) (candidate : Fields) : List Finding :=
  if Push.trimSpace req.currentYAML ≠ "" &&
      (isProduction req.target.environment || req.settings.criticalExporters ≠ []) then
    match parseConfig env req.currentYAML with
    | .ok current =>
      criticalExporterRemovalFindings current candidate req.target req.settings.criticalExporters
    | .error _ => []
  else []

/-- The findings of the rules, in the order in which `Evaluate` applies them. -/
def ruleFindings (req : Request) (candidate : Fields) : List Finding :=
  let settings := normalizeSettings req.settings
  let production := isProduction req.target.environment
  (if production then
    insecureTLSFindings candidate req.target ++ memoryLimiterFindings candidate req.target ++
      missingBatchFindings candidate req.target ++
      otlpEndpointFindings env candidate req.target settings.allowedOTLPEndpoints ++
      resourceIdentityFindings candidate req.target settings.requiredResourceAttributes
  else []) ++
  (if production || !isZero req.settings.sampling.minPercentage ||
      !isZero req.settings.sampling.maxPercentage then
    samplingFindings env candidate req.target settings.sampling.minPercentage
      settings.sampling.maxPercentage
  else []) ++
  currentConfigFindings env req candidate

def evaluate (req : Request) : Evaluation :=
  let settings := normalizeSettings req.settings
  match parseConfig env req.candidateYAML with
  | .error err =>
    finalize req.target settings
      [finding "community.yaml.parse" "YAML parse" .critical .block req.target ""
        ("configuration YAML could not be parsed: " ++ err)
        "Fix YAML syntax before evaluating policy."]
  | .ok candidate => finalize req.target settings (sortFindings (ruleFindings env req candidate))

end Evaluate

end OtelMagnify.Policy
