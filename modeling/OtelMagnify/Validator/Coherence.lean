import OtelMagnify.Validator.Structure

/-! Whether the parts of a result agree: the status of a check with its messages, the verdict with
the statuses, and the check that the runtime check was skipped for with one that failed. -/
namespace OtelMagnify.Validator
open Push Server Yaml

structure Result.IsCoherent (result : Result) : Prop where
  status : ∀ check ∈ result.checks, check.IsCoherent
  valid : result.valid = false ↔ ∃ check ∈ result.checks, check.status = .failed
  dependsOn : ∀ check ∈ result.checks, check.id = .otelcolRuntime → ∀ name,
    ("depends_on_failed_check", .text name) ∈ check.metadata →
      ∃ failed ∈ result.checks, failed.status = .failed ∧ failed.id.name = name

/-- What the static checks hand to `ValidateWithRuntime`: the errors are those of the checks, none
of which is the runtime check. -/
structure Result.IsStatic (result : Result) : Prop where
  errors : result.errors = result.checks.flatMap Check.errors
  id : ∀ check ∈ result.checks, check.id ≠ .otelcolRuntime

variable {check : Check}

section Static

variable {result : Result}

theorem Result.IsStatic.collect (h : result.IsStatic)
    (hid : check.id ≠ .otelcolRuntime) : (result.collect check).IsStatic := by
  refine ⟨?_, fun c hc => ?_⟩
  · simp [Result.collect, h.errors]
  · rcases List.mem_append.mp hc with hc | hc
    · exact h.id c hc
    · cases List.mem_singleton.mp hc
      exact hid

theorem Result.IsStatic.appendSkippedDependents (h : result.IsStatic) (dependsOn : CheckID)
    (message : String) {ids : List CheckID} (hids : .otelcolRuntime ∉ ids) :
    (appendSkippedDependents result dependsOn message ids).IsStatic := by
  refine ⟨?_, fun c hc => ?_⟩
  · simp [Validator.appendSkippedDependents, h.errors, Check.errors, List.flatMap_map]
  · rcases List.mem_append.mp hc with hc | hc
    · exact h.id c hc
    · obtain ⟨id, hid, rfl⟩ := List.mem_map.mp hc
      rintro rfl
      exact hids hid

theorem Result.IsStatic.errors_ne_nil (h : result.IsStatic) :
    result.errors ≠ [] ↔
      ∃ check ∈ result.checks, ∃ msg ∈ check.messages, msg.severity = .error := by
  rw [h.errors, ne_eq, List.flatMap_eq_nil_iff]
  simp only [Check.errors_eq_nil]
  push Not
  rfl

theorem id_validateVersionCompatibility (targetVersion versionSource minimumVersion : String) :
    (validateVersionCompatibility targetVersion versionSource minimumVersion).id =
      .collectorVersionCompatibility := by
  dsimp only [validateVersionCompatibility]
  split_ifs <;> rfl

def notParsedCheck (bytes : ℕ) (code message : String) : Check :=
  { baseCheck .yamlStatic with
    status := .failed
    messages := [{ code, severity := .error, message, checkID := some .yamlStatic }]
    metadata := [("bytes", .int bytes)] }

theorem notParsed_eq (result : Result) (bytes : ℕ) (code message skipped : String) :
    notParsed result bytes code message skipped =
      appendSkippedDependents (result.collect (notParsedCheck bytes code message)) .yamlStatic
        skipped [.collectorStructure, .componentAvailability, .collectorVersionCompatibility] := by
  simp [notParsed, notParsedCheck, Result.collect, Check.errors, Check.warnings, baseCheck]

def structureResult (content : String) (opts : RuntimeOptions) (check : Check) : Result :=
  (Result.collect { targetCollectorVersion := trimSpace opts.targetVersion }
    (parsedCheck content.utf8ByteSize)).collect check

theorem validateStatic_eq {env : Environment} {content : String} {doc : Document}
    (hdecode : env.decode content = .ok (some doc)) {refs : List ComponentRef}
    (hstructure : validateCollectorStructure env.isPrint doc.root = (check, refs))
    (available : Option AvailableComponents) (opts : RuntimeOptions) :
    validateStatic env content available opts =
      (if check.status = .failed then
        appendSkippedDependents (structureResult content opts check) .collectorStructure
          "Collector structure failed; component availability was not checked."
          [.componentAvailability]
      else (structureResult content opts check).collect
        (validateComponentAvailability env.isPrint refs available)).collect
      (validateVersionCompatibility opts.targetVersion opts.targetVersionSource
        opts.minimumVersion) := by
  simp only [validateStatic, hdecode, hstructure]
  rfl

theorem required_validateVersionCompatibility
    (targetVersion versionSource minimumVersion : String) :
    (validateVersionCompatibility targetVersion versionSource minimumVersion).required = false := by
  dsimp only [validateVersionCompatibility]
  split_ifs <;> rfl

theorem isStatic_validateStatic (env : Environment) (content : String)
    (available : Option AvailableComponents) (opts : RuntimeOptions) :
    (validateStatic env content available opts).IsStatic := by
  have hempty (version : String) : Result.IsStatic { targetCollectorVersion := version } :=
    ⟨rfl, by simp⟩
  have hnot (version : String) (bytes : ℕ) (code message skipped : String) :
      (notParsed { targetCollectorVersion := version } bytes code message skipped).IsStatic := by
    rw [notParsed_eq]
    exact ((hempty _).collect (by simp [notParsedCheck, baseCheck])).appendSkippedDependents _ _
      (by decide)
  cases hdecode : env.decode content with
  | error text =>
    rw [validateStatic, hdecode]
    exact hnot _ _ _ _ _
  | ok decoded =>
    cases decoded with
    | none =>
      rw [validateStatic, hdecode]
      exact hnot _ _ _ _ _
    | some doc =>
      obtain ⟨check, refs, heq, hid, -⟩ := validateCollectorStructure_spec env.isPrint doc.root
      obtain ⟨availability, havailability, hid', -⟩ :=
        validateComponentAvailability_spec env.isPrint refs available
      have hstructure : (structureResult content opts check).IsStatic :=
        ((hempty _).collect (by simp [parsedCheck, baseCheck])).collect (by rw [hid]; decide)
      rw [validateStatic_eq hdecode heq, havailability]
      refine Result.IsStatic.collect ?_ (by rw [id_validateVersionCompatibility]; decide)
      split
      · exact hstructure.appendSkippedDependents _ _ (by decide)
      · exact hstructure.collect (by rw [hid']; decide)

theorem isCoherent_of_skipped (hstatus : check.status = .skipped)
    (hinfo : ∀ msg ∈ check.messages, msg.severity = .info) : check.IsCoherent := by
  refine ⟨fun hfailed => ?_, fun ⟨msg, hmsg, herror⟩ => ?_⟩
  · rw [hstatus] at hfailed
    cases hfailed
  · rw [hinfo msg hmsg] at herror
    cases herror

def Result.ChecksCoherent (result : Result) : Prop := ∀ check ∈ result.checks, check.IsCoherent

def Result.FailsRequired (result : Result) : Prop :=
  ∃ check ∈ result.checks, check.required = true ∧ check.status = .failed

theorem isCoherent_appendSkippedDependents {dependsOn : CheckID} {message : String}
    {ids : List CheckID} (h : result.ChecksCoherent) :
    (appendSkippedDependents result dependsOn message ids).ChecksCoherent := by
  refine List.forall_mem_append.mpr ⟨h, fun check hcheck => ?_⟩
  obtain ⟨id, -, rfl⟩ := List.mem_map.mp hcheck
  exact isCoherent_of_skipped rfl (List.forall_mem_singleton.mpr rfl)

theorem isCoherent_collect (h : result.ChecksCoherent) (hcheck : check.IsCoherent) :
    (result.collect check).ChecksCoherent :=
  List.forall_mem_append.mpr ⟨h, List.forall_mem_singleton.mpr hcheck⟩

theorem exists_failed_of_name {checks : List Check} {id : CheckID}
    (h : id.name = firstFailedRequiredCheck checks) :
    ∃ check ∈ checks, check.required = true ∧ check.status = .failed := by
  unfold firstFailedRequiredCheck at h
  split at h
  next check hfind =>
    have hcheck := List.find?_some hfind
    rw [Bool.and_eq_true, decide_eq_true_eq] at hcheck
    exact ⟨check, List.mem_of_find?_eq_some hfind, hcheck⟩
  next =>
    have hne : ∀ id : CheckID, id.name ≠ "static_validation" := by
      intro id
      cases id <;> decide
    exact absurd h (hne id)

theorem name_firstFailedRequiredCheck {checks : List Check}
    (h : ∃ check ∈ checks, check.required = true ∧ check.status = .failed) :
    ∃ check ∈ checks, check.status = .failed ∧ check.id.name = firstFailedRequiredCheck checks := by
  unfold firstFailedRequiredCheck
  split
  next check hfind =>
    have hcheck := List.find?_some hfind
    rw [Bool.and_eq_true, decide_eq_true_eq] at hcheck
    exact ⟨check, List.mem_of_find?_eq_some hfind, hcheck.2, rfl⟩
  next hnone =>
    obtain ⟨check, hmem, hrequired, hfailed⟩ := h
    exact absurd (List.find?_eq_none.mp hnone check hmem) (by simp [hrequired, hfailed])

/-- The result is coherent if every static check is and, when one has an error, a required one has
failed. -/
theorem isCoherent_validateWithRuntime {env : Environment} {content : String}
    {available : Option AvailableComponents} {opts : RuntimeOptions} (h : opts.enabled = false) :
    (validateWithRuntime env content available opts).IsCoherent ↔
      (validateStatic env content available opts).ChecksCoherent ∧
        ((validateStatic env content available opts).errors ≠ [] →
          (validateStatic env content available opts).FailsRequired) := by
  have hstatic := isStatic_validateStatic env content available opts
  unfold validateWithRuntime
  generalize validateStatic env content available opts = result at hstatic ⊢
  dsimp only
  split
  next herrors =>
    obtain ⟨check, hmem, herror⟩ := hstatic.errors_ne_nil.mp herrors
    constructor
    · intro hcoherent
      refine ⟨fun c hc => hcoherent.status c (List.mem_append_left _ hc), fun _ => ?_⟩
      obtain ⟨failed, -, -, hname⟩ := hcoherent.dependsOn _
        (List.mem_append_right _ (List.mem_singleton.mpr rfl)) rfl _ (List.mem_singleton.mpr rfl)
      exact exists_failed_of_name hname
    · rintro ⟨hcoherent, hrequired⟩
      refine ⟨?_, ?_, ?_⟩
      · refine List.forall_mem_append.mpr ⟨hcoherent, List.forall_mem_singleton.mpr ?_⟩
        exact isCoherent_of_skipped rfl (List.forall_mem_singleton.mpr rfl)
      · refine ⟨fun _ => ?_, fun _ => decide_eq_false herrors⟩
        exact ⟨check, List.mem_append_left _ hmem, (hcoherent check hmem).mpr herror⟩
      · intro c hc hid name hname
        rcases List.mem_append.mp hc with hc | hc
        · exact absurd hid (hstatic.id c hc)
        · cases List.mem_singleton.mp hc
          cases List.mem_singleton.mp hname
          obtain ⟨failed, hfailed, hstatus⟩ := name_firstFailedRequiredCheck (hrequired herrors)
          exact ⟨failed, List.mem_append_left _ hfailed, hstatus⟩
  next hnone =>
    have hno : ¬∃ check ∈ result.checks, ∃ msg ∈ check.messages, msg.severity = .error :=
      fun hex => hnone (hstatic.errors_ne_nil.mpr hex)
    have hruntime : (runRuntimeCheck env content opts).IsCoherent ∧
        (runRuntimeCheck env content opts).status ≠ .failed ∧
        (runRuntimeCheck env content opts).errors = [] ∧
        ∀ name, ("depends_on_failed_check", .text name) ∉
          (runRuntimeCheck env content opts).metadata := by
      rw [runRuntimeCheck, h, if_neg (by decide)]
      refine ⟨isCoherent_of_skipped rfl (List.forall_mem_singleton.mpr rfl), ?_, rfl, ?_⟩
      · intro hfailed
        cases hfailed
      · intro name hname
        dsimp only at hname
        split_ifs at hname <;> simp at hname
    obtain ⟨hruntime, hnotFailed, hnoErrors, hmetadata⟩ := hruntime
    generalize runRuntimeCheck env content opts = runtime at *
    constructor
    · intro hcoherent
      exact ⟨fun c hc => hcoherent.status c (List.mem_append_left _ hc), fun herrors =>
        absurd herrors hnone⟩
    · rintro ⟨hcoherent, -⟩
      refine ⟨?_, ?_, ?_⟩
      · exact List.forall_mem_append.mpr ⟨hcoherent, List.forall_mem_singleton.mpr hruntime⟩
      · have hvalid : (finalize (result.collect runtime)).valid = true := by
          simp [finalize, Result.collect, hnoErrors, not_not.mp hnone]
        rw [hvalid]
        constructor
        · intro hfalse
          cases hfalse
        · rintro ⟨c, hc, hfailed⟩
          rcases List.mem_append.mp hc with hc | hc
          · exact absurd ⟨c, hc, (hcoherent c hc).mp hfailed⟩ hno
          · cases List.mem_singleton.mp hc
            exact absurd hfailed hnotFailed
      · intro c hc hid name hname
        rcases List.mem_append.mp hc with hc | hc
        · exact absurd hid (hstatic.id c hc)
        · cases List.mem_singleton.mp hc
          exact absurd hname (hmetadata name)

end Static

def HasMissing (components : List (String × List String)) (root : Fields) : Prop :=
  ∃ r ∈ references root, IsMissing components r.place.category r.id

/-- When the statuses tell the errors of a document with a good structure: no unreported category
comes before all the references to types that are not installed, and the version is not the only
one to be at fault. -/
def ErrorsComeFirst (components : List (String × List String)) (root : Fields)
    (opts : RuntimeOptions) : Prop :=
  (HasMissing components root →
    MissingFirst components ((references root).map Reference.toComponentRef)) ∧
  (isBelowMinimum opts.targetVersion opts.minimumVersion = true → HasMissing components root)

theorem hasMissing_iff {components : List (String × List String)} {root : Fields} :
    (∃ ref ∈ (references root).map Reference.toComponentRef,
      IsMissing components ref.category ref.id) ↔ HasMissing components root := by
  simp [HasMissing, Reference.toComponentRef]

theorem MissingFirst.exists {components : List (String × List String)} {refs : List ComponentRef}
    (h : MissingFirst components refs) : ∃ ref ∈ refs, IsMissing components ref.category ref.id := by
  obtain ⟨before, ref, after, rfl, hmissing, -⟩ := h
  exact ⟨ref, List.mem_append_right _ List.mem_cons_self, hmissing⟩

section Parsed

variable {env : Environment} {content : String} {doc : Document}
  {available : Option AvailableComponents} {opts : RuntimeOptions}

theorem isCoherent_parsedCheck (bytes : ℕ) : (parsedCheck bytes).IsCoherent := by
  simp [Check.IsCoherent, parsedCheck]

theorem isCoherent_version (targetVersion versionSource minimumVersion : String) :
    (validateVersionCompatibility targetVersion versionSource minimumVersion).IsCoherent := by
  obtain ⟨herrors, hstatus⟩ := validateVersionCompatibility_verdict targetVersion versionSource
    minimumVersion
  rw [Check.IsCoherent, hstatus, ← not_iff_not, ← Check.errors_eq_nil, herrors, Bool.not_eq_true]

theorem isCoherent_structureResult (h : check.IsCoherent) :
    (structureResult content opts check).ChecksCoherent :=
  isCoherent_collect (isCoherent_collect (by simp [Result.ChecksCoherent])
    (isCoherent_parsedCheck _)) h

/-- A text that is no config, and a document without the structure, fail a required check. -/
theorem coherent_of_not_structured (h : ¬Structured (env.root content)) :
    (validateStatic env content available opts).ChecksCoherent ∧
      (validateStatic env content available opts).FailsRequired := by
  have hnot (result : Result) (hresult : result.checks = []) (bytes : ℕ)
      (code message skipped : String) :
      (notParsed result bytes code message skipped).ChecksCoherent ∧
        (notParsed result bytes code message skipped).FailsRequired := by
    have hnil : result.ChecksCoherent := by simp [Result.ChecksCoherent, hresult]
    rw [notParsed_eq]
    refine ⟨isCoherent_appendSkippedDependents (isCoherent_collect hnil ?_), ?_⟩
    · simp [Check.IsCoherent, notParsedCheck]
    · exact ⟨notParsedCheck bytes code message, by simp [appendSkippedDependents, Result.collect],
        rfl, rfl⟩
  cases hdecode : env.decode content with
  | error text =>
    rw [validateStatic, hdecode]
    exact hnot _ rfl _ _ _ _
  | ok decoded =>
    cases decoded with
    | none =>
      rw [validateStatic, hdecode]
      exact hnot _ rfl _ _ _ _
    | some doc =>
      have hroot : env.root content = doc.root := by rw [Environment.root, hdecode]
      rw [hroot] at h
      obtain ⟨check, refs, heq, hid, hrequired, hcoherent, hspec⟩ :=
        validateCollectorStructure_spec env.isPrint doc.root
      obtain ⟨-, hfailed⟩ := hspec.resolve_left fun hs => h hs.1
      rw [validateStatic_eq hdecode heq, if_pos hfailed]
      refine ⟨isCoherent_collect (isCoherent_appendSkippedDependents
        (isCoherent_structureResult hcoherent)) (isCoherent_version _ _ _), check, ?_, hrequired,
        hfailed⟩
      simp [Result.collect, appendSkippedDependents, structureResult]

theorem coherent_iff_of_structured (h : Structured (env.root content)) :
    ((validateStatic env content available opts).ChecksCoherent ∧
      ((validateStatic env content available opts).errors ≠ [] →
        (validateStatic env content available opts).FailsRequired)) ↔
      ErrorsComeFirst (reported available) (env.root content) opts := by
  have herrors : (validateStatic env content available opts).errors = [] ↔
      ¬HasMissing (reported available) (env.root content) ∧
        isBelowMinimum opts.targetVersion opts.minimumVersion = false := by
    rw [errors_validateStatic_eq_nil, errors_validateStatic_iff, and_iff_right h]
    simp [HasMissing]
  obtain ⟨doc, hdecode, hroot⟩ := exists_decode_of_structured h
  obtain ⟨check, refs, heq, -, -, hcoherent, hspec⟩ :=
    validateCollectorStructure_spec env.isPrint doc.root
  rw [hroot] at h herrors ⊢
  obtain ⟨-, hpassed, rfl⟩ := hspec.resolve_right fun hs => hs.1 h
  obtain ⟨availability, havailability, -, hrequired, hmissing, hfailed⟩ :=
    validateComponentAvailability_spec env.isPrint
      ((references doc.root).map Reference.toComponentRef) available
  have hne : check.status ≠ .failed := by rw [hpassed]; decide
  rw [hasMissing_iff] at hmissing
  have hchecks : (validateStatic env content available opts).checks =
      [parsedCheck content.utf8ByteSize, check, availability,
        validateVersionCompatibility opts.targetVersion opts.targetVersionSource
          opts.minimumVersion] := by
    rw [validateStatic_eq hdecode heq, if_neg hne, havailability]
    rfl
  have hall : (validateStatic env content available opts).ChecksCoherent ↔
      availability.IsCoherent := by
    simp [Result.ChecksCoherent, hchecks, hcoherent, isCoherent_parsedCheck, isCoherent_version]
  have hexists : (validateStatic env content available opts).FailsRequired ↔
      availability.status = .failed := by
    have hversion := required_validateVersionCompatibility opts.targetVersion
      opts.targetVersionSource opts.minimumVersion
    simp [Result.FailsRequired, hchecks, hne, hrequired, hversion, parsedCheck]
  rw [hall, hexists, Check.IsCoherent, hmissing, hfailed, ne_eq, herrors, ErrorsComeFirst]
  have hfirst (hm : MissingFirst (reported available)
      ((references doc.root).map Reference.toComponentRef)) :
      HasMissing (reported available) doc.root := hasMissing_iff.mp hm.exists
  constructor
  · rintro ⟨hiff, hsome⟩
    refine ⟨hiff.mpr, fun hbelow => hfirst (hsome fun hnone => ?_)⟩
    rw [hnone.2] at hbelow
    cases hbelow
  · rintro ⟨hmf, hbelow⟩
    refine ⟨⟨hfirst, hmf⟩, fun hsome => ?_⟩
    by_contra hnot
    exact hsome ⟨fun hm => hnot (hmf hm),
      Bool.eq_false_iff.mpr fun hb => hnot (hmf (hbelow hb))⟩

/-- With the local binary disabled the result is coherent for any text without a good structure,
and for one with it exactly if its errors come first. -/
theorem statuses_coherent_iff (h : opts.enabled = false) :
    (validateWithRuntime env content available opts).IsCoherent ↔
      (Structured (env.root content) →
        ErrorsComeFirst (reported available) (env.root content) opts) := by
  rw [isCoherent_validateWithRuntime h]
  by_cases hstructured : Structured (env.root content)
  · rw [coherent_iff_of_structured hstructured]
    exact ⟨fun hfirst _ => hfirst, fun hfirst => hfirst hstructured⟩
  · obtain ⟨hcoherent, hfailed⟩ := coherent_of_not_structured hstructured
    exact ⟨fun _ hs => absurd hs hstructured, fun _ => ⟨hcoherent, fun _ => hfailed⟩⟩

end Parsed

section Sample

/-- A target without the exporter of the sample, which has reported its exporters and the other
categories given. -/
def withoutDebug (others : List (String × List String)) : AvailableComponents where
  components := ("exporters", ["otlp"]) :: others
  hash := ""

theorem missing_exporter_coherent :
    (validateWithRuntime pipelineEnvironment pipelineText
      (some (withoutDebug [("receivers", ["otlp"])])) {}).IsCoherent ∧
    (validateWithRuntime pipelineEnvironment pipelineText
      (some (withoutDebug [("receivers", ["otlp"])])) {}).valid = false := by
  have hrefs : (references (pipelineEnvironment.root pipelineText)).map Reference.toComponentRef =
      [⟨"receivers", .ofString "otlp", "service.pipelines.traces.receivers[0]"⟩,
        ⟨"exporters", .ofString "debug", "service.pipelines.traces.exporters[0]"⟩] := by
    decide +kernel
  refine ⟨(statuses_coherent_iff rfl).mpr fun _ => ⟨fun _ => ?_, fun hbelow => ?_⟩, ?_⟩
  · rw [hrefs]
    exact ⟨[_], _, [], rfl, by decide +kernel, by decide +kernel⟩
  · exact absurd hbelow (by decide)
  · decide +kernel

/-- The warning about the receivers hides the error about the exporter from the status. -/
theorem warning_before_error :
    ¬(validateWithRuntime pipelineEnvironment pipelineText (some (withoutDebug [])) {}).IsCoherent := by
  intro h
  have hvalid : (validateWithRuntime pipelineEnvironment pipelineText (some (withoutDebug []))
      {}).valid = false := by decide +kernel
  have hnone : ∀ check ∈ (validateWithRuntime pipelineEnvironment pipelineText
      (some (withoutDebug [])) {}).checks, check.status ≠ .failed := by decide +kernel
  obtain ⟨check, hmem, hfailed⟩ := h.valid.mp hvalid
  exact hnone check hmem hfailed

def oldTarget : RuntimeOptions := { targetVersion := "0.80.0", minimumVersion := "0.95.0" }

theorem version_alone :
    ¬(validateWithRuntime pipelineEnvironment pipelineText none oldTarget).IsCoherent := by
  intro h
  have hskipped : ∃ check ∈ (validateWithRuntime pipelineEnvironment pipelineText none
      oldTarget).checks, check.id = .otelcolRuntime ∧
        ("depends_on_failed_check", .text "static_validation") ∈ check.metadata := by
    decide +kernel
  obtain ⟨check, hmem, hid, hmetadata⟩ := hskipped
  obtain ⟨failed, -, -, hname⟩ := h.dependsOn check hmem hid _ hmetadata
  cases hfailed : failed.id <;> rw [hfailed] at hname <;> revert hname <;> decide

theorem statuses_incoherent :
    ¬(validateWithRuntime pipelineEnvironment pipelineText (some (withoutDebug [])) {}).IsCoherent ∧
      ¬(validateWithRuntime pipelineEnvironment pipelineText none oldTarget).IsCoherent :=
  ⟨warning_before_error, version_alone⟩

end Sample

end OtelMagnify.Validator
