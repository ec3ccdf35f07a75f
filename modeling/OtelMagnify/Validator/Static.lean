import OtelMagnify.Lib.GoText
import OtelMagnify.Server.Workload
import OtelMagnify.Yaml.Value

/-! The light validation of a collector config. `Validate` makes the static checks of a document;
`ValidateWithRuntime` makes them at the version of a target, against a configured minimum, and lets
a local binary check what they have passed. -/
namespace OtelMagnify.Validator
open Push Server Yaml GoText

inductive CheckID where
  | yamlStatic | collectorStructure | componentAvailability | collectorVersionCompatibility
  | otelcolRuntime
  deriving DecidableEq, Repr

def CheckID.name : CheckID → String
  | .yamlStatic => "yaml_static"
  | .collectorStructure => "collector_structure"
  | .componentAvailability => "component_availability"
  | .collectorVersionCompatibility => "collector_version_compatibility"
  | .otelcolRuntime => "otelcol_runtime"

inductive Severity where
  | error | warning | info
  deriving DecidableEq, Repr

inductive Status where
  | passed | warning | failed | skipped
  deriving DecidableEq, Repr

structure Error where
  code : String
  message : String
  path : String := ""
  checkID : CheckID
  deriving DecidableEq, Repr

structure Message where
  code : String
  severity : Severity
  message : String
  path : String := ""
  checkID : Option CheckID := none
  deriving DecidableEq, Repr

inductive MetadataValue where
  | int (n : ℕ)
  | text (s : String)
  | texts (l : List String)
  | counts (l : List (String × ℕ))
  deriving DecidableEq, Repr

/-- A check without its label and its source. -/
structure Check where
  id : CheckID
  status : Status := .passed
  required : Bool
  messages : List Message := []
  metadata : List (String × MetadataValue) := []
  deriving DecidableEq, Repr

/-- A result without its time. -/
structure Result where
  valid : Bool := true
  overallStatus : Status := .passed
  summary : String := ""
  targetCollectorVersion : String
  errors : List Error := []
  warnings : List Message := []
  checks : List Check := []
  deriving DecidableEq, Repr

structure RuntimeOptions where
  enabled : Bool := false
  targetVersion : String := ""
  targetVersionSource : String := ""
  minimumVersion : String := ""
  deriving DecidableEq, Repr

/-- What the validator is run in: the YAML decoder, the table of printable characters, and the
check that the local binary makes when it is enabled. -/
structure Environment where
  decode : Decoder
  isPrint : Char → Bool
  runtimeCheck : String → RuntimeOptions → Check

def baseCheck (id : CheckID) : Check where
  id := id
  required := match id with
    | .yamlStatic | .collectorStructure | .componentAvailability => true
    | .collectorVersionCompatibility | .otelcolRuntime => false

def appendSkippedDependents (result : Result) (dependsOn : CheckID) (message : String)
    (ids : List CheckID) : Result :=
  { result with
    checks := result.checks ++ ids.map fun id =>
      { baseCheck id with
        status := .skipped
        metadata := [("depends_on_failed_check", .text dependsOn.name)]
        messages := [{ code := "depends_on_failed_check", severity := .info, message
                       checkID := some id }] } }

def Check.errors (check : Check) : List Error :=
  (check.messages.filter (·.severity = .error)).map fun msg =>
    { code := msg.code, message := msg.message, path := msg.path, checkID := check.id }

def Check.warnings (check : Check) : List Message :=
  (check.messages.filter (·.severity = .warning)).map fun msg =>
    { msg with checkID := some check.id }

/-- A check is appended, and `collectCheckMessages`. -/
def Result.collect (result : Result) (check : Check) : Result :=
  { result with
    checks := result.checks ++ [check]
    errors := result.errors ++ check.errors
    warnings := result.warnings ++ check.warnings }

def statusWithWarnings : List Message → Status
  | [] => .passed
  | msg :: messages =>
    match msg.severity with
    | .error => .failed
    | .warning => .warning
    | .info => statusWithWarnings messages

structure ComponentRef where
  category : String
  id : GoString
  path : String
  deriving DecidableEq, Repr

/-- The keys of `extractDefined`. -/
def extractDefined (root : Fields) (section_ : String) : List GoString :=
  ((((root.get section_).bind Value.asMap).map Fields.keys).getD []).map .ofString

def singular (section_ : String) : String := trimSuffix "s" section_

/-- What the structure check meets on its way: a message or a reference that is defined. -/
inductive Visit where
  | message (msg : Message)
  | ref (r : ComponentRef)
  deriving DecidableEq, Repr

def Visit.message? : Visit → Option Message
  | .message msg => some msg
  | .ref _ => none

def Visit.ref? : Visit → Option ComponentRef
  | .message _ => none
  | .ref r => some r

section Structure

variable (isPrint : Char → Bool) (root : Fields)

/-- The references of one list into one section. `undefined` is the text about an id that the
section does not define. -/
def visitRefs (category path : String) (undefined : GoString → String) (ids : List GoString) :
    List Visit :=
  ids.mapIdx fun i id =>
    let path := path ++ "[" ++ toString i ++ "]"
    if id ∈ extractDefined root category then .ref { category, id, path }
    else .message { code := "undefined_component", severity := .error, message := undefined id, path }

def visitSection (name : String) (pipeline : Fields) (section_ : String) : List Visit :=
  visitRefs root section_ ("service.pipelines." ++ name ++ "." ++ section_)
    (fun id => "pipeline " ++ quote isPrint name ++ " references " ++ singular section_ ++ " " ++
      quoteRunes isPrint id ++ " which is not defined under top-level '" ++ section_ ++ "'")
    (toStringSlice (pipeline.get section_))

def visitPipeline (name : String) (pipelineRaw : Value) : List Visit :=
  match pipelineRaw.asMap with
  | none =>
    [.message
      { code := "invalid_pipeline", severity := .error
        message := "pipeline " ++ quote isPrint name ++ " is not an object"
        path := "service.pipelines." ++ name }]
  | some pipeline =>
    ((["receivers", "exporters"].filter fun required => (pipeline.get required).isNone).map
      fun required => .message
        { code := "missing_pipeline_section", severity := .error
          message := "pipeline " ++ quote isPrint name ++ " is missing '" ++ required ++ "'"
          path := "service.pipelines." ++ name ++ "." ++ required }) ++
    ["receivers", "processors", "exporters"].flatMap (visitSection isPrint root name pipeline)

def visitExtensions (service : Fields) : List Visit :=
  visitRefs root "extensions" "service.extensions"
    (fun id => "service.extensions references " ++ quoteRunes isPrint id ++
      " which is not defined under top-level 'extensions'")
    (toStringSlice (service.get "extensions"))

def definedComponentCounts : List (String × ℕ) :=
  ["receivers", "processors", "exporters", "connectors", "extensions"].map fun section_ =>
    (section_, (extractDefined root section_).length)

/-- The structure check that failed before it came to a pipeline. -/
def structureFailed (code message path : String) : Check :=
  { baseCheck .collectorStructure with
    status := .failed
    messages := [{ code, severity := .error, message, path }]
    metadata := [("defined_components", .counts (definedComponentCounts root))] }

/-- `validateCollectorStructure`. The keys of an object are in the order that the source sorts
the pipelines into. -/
def validateCollectorStructure : Check × List ComponentRef :=
  match (root.get "service").bind Value.asMap with
  | none => (structureFailed root "missing_service" "'service' section is required" "service", [])
  | some service =>
    match (service.get "pipelines").bind Value.asMap with
    | none | some .nil =>
      (structureFailed root "missing_pipelines"
        "'service.pipelines' must define at least one pipeline" "service.pipelines", [])
    | some pipelines =>
      let visits := pipelines.toList.flatMap (fun p => visitPipeline isPrint root p.1 p.2) ++
        visitExtensions isPrint root service
      let messages := visits.filterMap Visit.message?
      let refs := visits.filterMap Visit.ref?
      let status := statusWithWarnings messages
      ({ baseCheck .collectorStructure with
          status
          messages :=
            if status = .passed then
              [{ code := "collector_structure_ok", severity := .info
                 message := "Collector service pipelines and component references are " ++
                  "structurally valid." }]
            else messages
          metadata :=
            [("defined_components", .counts (definedComponentCounts root)),
              ("pipelines", .texts pipelines.keys), ("component_refs_checked", .int refs.length)] },
        refs)

end Structure

def componentType (id : GoString) : GoString := (id.cut '/').1

section Availability

variable (isPrint : Char → Bool)

/-- The loop of `validateComponentAvailability`; `warned` are the categories that it has warned
about. -/
def availabilityMessages (components : List (String × List String)) :
    List String → List ComponentRef → List Message
  | _, [] => []
  | warned, ref :: refs =>
    match components.lookup ref.category with
    | none =>
      if ref.category ∈ warned then availabilityMessages components warned refs
      else
        { code := "component_category_unreported", severity := .warning
          message := "AvailableComponents did not report category " ++
            quote isPrint ref.category ++ "; components in that category were not enforced." } ::
          availabilityMessages components (ref.category :: warned) refs
    | some installed =>
      let type := componentType ref.id
      if type ∈ installed.map GoString.ofString then availabilityMessages components warned refs
      else
        { code := "component_not_installed", severity := .error
          message := singular ref.category ++ " type " ++ quoteRunes isPrint type ++
            " is not installed on the target workload (available: " ++
            ", ".intercalate installed ++ ")"
          path := ref.path } :: availabilityMessages components warned refs

def validateComponentAvailability (refs : List ComponentRef)
    (available : Option AvailableComponents) : Check :=
  let check := baseCheck .componentAvailability
  let components := (available.map AvailableComponents.components).getD []
  if components = [] then
    { check with
      status := .warning
      messages :=
        [{ code := "available_components_missing", severity := .warning
           message := "Target workload has not reported AvailableComponents; " ++
            "installed component checks were not enforced." }]
      metadata := [("component_refs_checked", .int refs.length), ("reported_categories", .texts [])] }
  else
    let messages := availabilityMessages isPrint components [] refs
    let status := statusWithWarnings messages
    { check with
      status
      messages :=
        if status = .passed then
          [{ code := "component_availability_ok", severity := .info
             message := "All referenced component types are reported as available on the " ++
              "target workload." }]
        else messages
      metadata :=
        [("component_refs_checked", .int refs.length),
          ("reported_categories", .texts ((components.map Prod.fst).insertionSort (· ≤ ·)))] }

end Availability

def versionParts (v : String) : ℤ × ℤ × ℤ :=
  let part (i : ℕ) : ℤ := ((split '.' (trimPrefix "v" v))[i]?.map atoi).getD 0
  (part 0, part 1, part 2)

def compareVersions (a b : String) : Ordering :=
  let as := versionParts a
  let bs := versionParts b
  (compare as.1 bs.1).then ((compare as.2.1 bs.2.1).then (compare as.2.2 bs.2.2))

def validateVersionCompatibility (targetVersion versionSource minimumVersion : String) : Check :=
  let check := baseCheck .collectorVersionCompatibility
  let targetVersion := trimSpace targetVersion
  let versionSource := trimSpace versionSource
  let minimumVersion := trimSpace minimumVersion
  let versionSource := if versionSource = "" then "unknown" else versionSource
  let minimum :=
    if minimumVersion = "" then [] else [("minimum_supported_version", .text minimumVersion)]
  if targetVersion = "" then
    { check with
      status := .warning
      messages :=
        [{ code := "target_version_unknown", severity := .warning
           message := "No target collector version was provided or reported by the workload." }]
      metadata := ("version_source", .text versionSource) :: minimum }
  else
    let source := if versionSource = "unknown" then "default" else versionSource
    let metadata := [("version_source", .text source)] ++ minimum ++
      [("target_version", .text targetVersion)]
    if minimumVersion ≠ "" ∧ compareVersions targetVersion minimumVersion = .lt then
      { check with
        status := .failed
        messages :=
          [{ code := "target_version_too_old", severity := .error
             message := "Target collector version " ++ targetVersion ++
              " is below the configured minimum " ++ minimumVersion ++ "." }]
        metadata }
    else
      { check with
        status := .passed
        messages :=
          [{ code := "target_version_checked", severity := .info
             message := "Target collector version " ++ targetVersion ++
              " is compatible with the configured validation policy." }]
        metadata }

/-- The end of `validateStatic` on a text that is no config. -/
def notParsed (result : Result) (bytes : ℕ) (code message skipped : String) : Result :=
  let msg : Message := { code, severity := .error, message, checkID := some .yamlStatic }
  let check : Check :=
    { baseCheck .yamlStatic with
      status := .failed, messages := [msg], metadata := [("bytes", .int bytes)] }
  appendSkippedDependents
    { result with
      checks := result.checks ++ [check]
      errors := result.errors ++ [{ code, message, checkID := .yamlStatic }] }
    .yamlStatic skipped
    [.collectorStructure, .componentAvailability, .collectorVersionCompatibility]

def parsedCheck (bytes : ℕ) : Check :=
  { baseCheck .yamlStatic with
    status := .passed
    messages :=
      [{ code := "yaml_parse_ok", severity := .info, message := "YAML parsed successfully."
         checkID := some .yamlStatic }]
    metadata := [("bytes", .int bytes)] }

def validateStatic (env : Environment) (yamlContent : String)
    (available : Option AvailableComponents) (opts : RuntimeOptions) : Result :=
  let result : Result := { targetCollectorVersion := trimSpace opts.targetVersion }
  match env.decode yamlContent with
  | .error text =>
    notParsed result yamlContent.utf8ByteSize "yaml_parse" ("invalid YAML: " ++ text)
      "YAML parsing failed; this check was not executed."
  | .ok none =>
    notParsed result yamlContent.utf8ByteSize "empty_config" "configuration is empty"
      "Configuration is empty; this check was not executed."
  | .ok (some doc) =>
    let result := { result with checks := [parsedCheck yamlContent.utf8ByteSize] }
    let (structureCheck, refs) := validateCollectorStructure env.isPrint doc.root
    let result := result.collect structureCheck
    let result :=
      if structureCheck.status = .failed then
        appendSkippedDependents result .collectorStructure
          "Collector structure failed; component availability was not checked."
          [.componentAvailability]
      else result.collect (validateComponentAvailability env.isPrint refs available)
    result.collect (validateVersionCompatibility opts.targetVersion opts.targetVersionSource
      opts.minimumVersion)

def validationSummary (status : Status) (result : Result) : String :=
  match status with
  | .failed =>
    "Configuration failed " ++ toString result.errors.length ++ " blocking validation error(s)."
  | .warning =>
    "Configuration passed blocking validation with " ++ toString result.warnings.length ++
      " warning(s) or skipped check(s)."
  | _ => "Configuration passed all validation checks."

def finalize (result : Result) : Result :=
  let overallStatus : Status :=
    if result.errors ≠ [] then .failed
    else if result.warnings ≠ [] ∨ result.checks.any (·.status = .skipped) then .warning
    else .passed
  { result with
    valid := result.errors = [], overallStatus, summary := validationSummary overallStatus result }

def validate (env : Environment) (yamlContent : String) (available : Option AvailableComponents) :
    Result :=
  finalize (validateStatic env yamlContent available {})

def firstFailedRequiredCheck (checks : List Check) : String :=
  match checks.find? fun check => check.required && check.status = .failed with
  | some check => check.id.name
  | none => "static_validation"

def runRuntimeCheck (env : Environment) (yamlContent : String) (opts : RuntimeOptions) : Check :=
  if opts.enabled then env.runtimeCheck yamlContent opts
  else
    { baseCheck .otelcolRuntime with
      status := .skipped
      messages :=
        [{ code := "otelcol_runtime_disabled", severity := .info
           message := "Runtime validation is disabled by local server configuration." }]
      metadata :=
        ("command_mode", .text "otelcol validate --config") ::
          if opts.targetVersion = "" then [] else [("target_version", .text opts.targetVersion)] }

def validateWithRuntime (env : Environment) (yamlContent : String)
    (available : Option AvailableComponents) (opts : RuntimeOptions) : Result :=
  let result := validateStatic env yamlContent available opts
  if result.errors ≠ [] then
    let check : Check :=
      { baseCheck .otelcolRuntime with
        status := .skipped
        metadata := [("depends_on_failed_check", .text (firstFailedRequiredCheck result.checks))]
        messages :=
          [{ code := "depends_on_failed_check", severity := .info
             message := "Runtime validation skipped because a required validation check failed."
             checkID := some .otelcolRuntime }] }
    finalize { result with checks := result.checks ++ [check] }
  else finalize (result.collect (runRuntimeCheck env yamlContent opts))

def truthy (s : String) : Bool :=
  toLower (trimSpace s) ∈ ["1", "true", "yes", "y", "on", "enabled"]

def runtimeOptionsFromEnv (getenv : String → String) : RuntimeOptions where
  enabled := truthy (getenv "OTELCOL_RUNTIME_VALIDATION_ENABLED")
  minimumVersion := getenv "OTELCOL_MIN_RUNTIME_VERSION"

def runtimeOptionsFor (getenv : String → String) (version : String) : RuntimeOptions :=
  { runtimeOptionsFromEnv getenv with
    targetVersion := version
    targetVersionSource := if version = "" then "" else "workload" }

@[simp] theorem enabled_runtimeOptionsFor (getenv : String → String) (version : String) :
    (runtimeOptionsFor getenv version).enabled = (runtimeOptionsFromEnv getenv).enabled := by
  rw [runtimeOptionsFor]

@[simp] theorem targetVersion_runtimeOptionsFor (getenv : String → String) (version : String) :
    (runtimeOptionsFor getenv version).targetVersion = version := rfl

@[simp] theorem minimumVersion_runtimeOptionsFor (getenv : String → String) (version : String) :
    (runtimeOptionsFor getenv version).minimumVersion =
      (runtimeOptionsFromEnv getenv).minimumVersion := rfl

/-- The target version is known and below the configured minimum. -/
def isBelowMinimum (targetVersion minimumVersion : String) : Bool :=
  let targetVersion := trimSpace targetVersion
  let minimumVersion := trimSpace minimumVersion
  targetVersion ≠ "" && minimumVersion ≠ "" && compareVersions targetVersion minimumVersion = .lt

section Errors

variable (env : Environment) (content : String) (available : Option AvailableComponents)
  (opts : RuntimeOptions)

theorem validateVersionCompatibility_verdict
    (targetVersion versionSource minimumVersion : String) :
    ((validateVersionCompatibility targetVersion versionSource minimumVersion).errors = [] ↔
      isBelowMinimum targetVersion minimumVersion = false) ∧
    ((validateVersionCompatibility targetVersion versionSource minimumVersion).status = .failed ↔
      isBelowMinimum targetVersion minimumVersion = true) := by
  dsimp only [validateVersionCompatibility, isBelowMinimum]
  by_cases htarget : trimSpace targetVersion = ""
  · rw [if_pos htarget]
    simp [Check.errors, htarget]
  rw [if_neg htarget]
  by_cases hold : trimSpace minimumVersion ≠ "" ∧
    compareVersions (trimSpace targetVersion) (trimSpace minimumVersion) = .lt
  · rw [if_pos hold]
    simp [Check.errors, htarget, hold.1, hold.2]
  · rw [if_neg hold]
    simpa [Check.errors, htarget] using hold

/-- The version is the only option that decides whether the static checks find an error, and it
decides it for a document alone. -/
theorem errors_validateStatic_eq_nil :
    (validateStatic env content available opts).errors = [] ↔
      (validateStatic env content available {}).errors = [] ∧
        isBelowMinimum opts.targetVersion opts.minimumVersion = false := by
  unfold validateStatic
  split
  · simp [notParsed, appendSkippedDependents]
  · simp [notParsed, appendSkippedDependents]
  · have hempty : isBelowMinimum "" "" = false := by decide
    simp only [Result.collect, List.append_eq_nil_iff,
      (validateVersionCompatibility_verdict ..).1, hempty, and_true]
    split_ifs <;> rfl

theorem errors_validate :
    (validate env content available).errors = (validateStatic env content available {}).errors :=
  rfl

/-- What decides for a workload when the runtime check is off. -/
theorem valid_validateWithRuntime {getenv : String → String} (version : String)
    (h : (runtimeOptionsFromEnv getenv).enabled = false) :
    (validateWithRuntime env content available (runtimeOptionsFor getenv version)).valid = true ↔
      (validate env content available).errors = [] ∧
        isBelowMinimum version (runtimeOptionsFromEnv getenv).minimumVersion = false := by
  have hstatic := errors_validateStatic_eq_nil env content available
    (runtimeOptionsFor getenv version)
  rw [targetVersion_runtimeOptionsFor, minimumVersion_runtimeOptionsFor] at hstatic
  rw [errors_validate, ← hstatic]
  unfold validateWithRuntime
  dsimp only
  split_ifs with herrors
  · simp [finalize, herrors]
  · simp [finalize, Result.collect, runRuntimeCheck, h, Check.errors, not_not.mp herrors]

end Errors

section Sample

/-- A config with the exporter `debug`, the receiver `otlp` and one pipeline. -/
def onePipelineText (name exporters : String) : String :=
  "exporters:\n  debug:\nreceivers:\n  otlp:\nservice:\n  pipelines:\n    " ++ name ++
    ":\n      exporters: [" ++ exporters ++ "]\n      receivers: [otlp]\n"

def onePipelineRoot (name : String) (exporters : List Value) : Fields :=
  .ofList
    [("exporters", .obj (.ofList [("debug", .null)])),
      ("receivers", .obj (.ofList [("otlp", .null)])),
      ("service", .obj (.ofList
        [("pipelines", .obj (.ofList
          [(name, .obj (.ofList
            [("exporters", .list (.ofList exporters)),
              ("receivers", .list (.ofList [.str "otlp"]))]))]))]))]

def pipelineText : String := onePipelineText "traces" "debug"

def pipelineDocument : Document := ⟨onePipelineRoot "traces" [.str "debug"], by decide +kernel⟩

def pipelineEnvironment : Environment where
  decode := fun s =>
    if s = pipelineText then .ok (some pipelineDocument) else .error "did not find expected key"
  isPrint := fun c => ' ' ≤ c && c ≤ '~'
  runtimeCheck := fun _ _ => baseCheck .otelcolRuntime

def minimumVersionEnv (minimum key : String) : String :=
  if key = "OTELCOL_MIN_RUNTIME_VERSION" then minimum else ""

end Sample

end OtelMagnify.Validator
