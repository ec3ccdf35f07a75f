import OtelMagnify.Policy.Engine

/-! What the rules of the policy find in a document, and what `Evaluate` decides. Every finding of a
rule blocks, so that a config is blocked exactly when some rule finds something. -/
namespace OtelMagnify.Policy
open Yaml GoString
open GoText (equalFold)

section Insecure

/-- `insecure: true` occurs in the value. With `tables` the search goes through every mapping,
without through those alone that have string keys only. -/
inductive Insecure (tables : Bool) : Value → Prop
  | here {m : Fields} {key : String} (hkey : equalFold key "insecure" = true)
      (h : (key, .bool true) ∈ m.toList) : Insecure tables (.obj m)
  | member {m : Fields} {key : String} {v : Value} (h : (key, v) ∈ m.toList)
      (hv : Insecure tables v) : Insecure tables (.obj m)
  | element {l : Values} {v : Value} (h : v ∈ l.toList) (hv : Insecure tables v) :
      Insecure tables (.list l)
  | tableHere {m : Pairs} {key : String} (htables : tables = true)
      (hkey : equalFold key "insecure" = true) (h : (.str key, .bool true) ∈ m.toList) :
      Insecure tables (.table m)
  | tableMember {m : Pairs} {key v : Value} (htables : tables = true) (h : (key, v) ∈ m.toList)
      (hv : Insecure tables v) : Insecure tables (.table m)

mutual

/-- The search is complete but for the mappings with other keys. -/
theorem hasInsecureTrue_iff : ∀ v, hasInsecureTrue v = true ↔ Insecure false v
  | .obj m => by
    rw [hasInsecureTrue, hasInsecureMember_iff m]
    constructor
    · rintro ⟨key, v, hmem, ⟨hkey, rfl⟩ | hv⟩
      · exact .here hkey hmem
      · exact .member hmem hv
    · intro h
      cases h with
      | here hkey hmem => exact ⟨_, _, hmem, .inl ⟨hkey, rfl⟩⟩
      | member hmem hv => exact ⟨_, _, hmem, .inr hv⟩
  | .list l => by
    rw [hasInsecureTrue, hasInsecureElement_iff l]
    constructor
    · rintro ⟨v, hmem, hv⟩
      exact .element hmem hv
    · intro h
      cases h with
      | element hmem hv => exact ⟨_, hmem, hv⟩
  | .table m => by
    simp only [hasInsecureTrue, Bool.false_eq_true, false_iff]
    intro h
    cases h with
    | tableHere htables | tableMember htables => cases htables
  | .null | .bool _ | .int _ | .uint _ | .float _ | .str _ | .binary _ | .time _ => by
    simp only [hasInsecureTrue, Bool.false_eq_true, false_iff]
    intro h
    cases h

theorem hasInsecureMember_iff : ∀ m : Fields, hasInsecureMember m = true ↔
    ∃ key v, (key, v) ∈ m.toList ∧
      (equalFold key "insecure" = true ∧ v = .bool true ∨ Insecure false v)
  | .nil => by simp [hasInsecureMember, Fields.toList]
  | .cons key v m => by
    rw [hasInsecureMember, Bool.or_eq_true, Bool.or_eq_true, Bool.and_eq_true, decide_eq_true_eq,
      hasInsecureTrue_iff v, hasInsecureMember_iff m]
    simp only [Fields.toList, List.mem_cons, Prod.mk.injEq]
    constructor
    · rintro (h | ⟨key', v', hmem, h⟩)
      · exact ⟨key, v, .inl ⟨rfl, rfl⟩, h⟩
      · exact ⟨key', v', .inr hmem, h⟩
    · rintro ⟨key', v', ⟨rfl, rfl⟩ | hmem, h⟩
      · exact .inl h
      · exact .inr ⟨key', v', hmem, h⟩

theorem hasInsecureElement_iff : ∀ l : Values, hasInsecureElement l = true ↔
    ∃ v ∈ l.toList, Insecure false v
  | .nil => by simp [hasInsecureElement, Values.toList]
  | .cons v l => by
    rw [hasInsecureElement, Bool.or_eq_true, hasInsecureTrue_iff v, hasInsecureElement_iff l]
    simp only [Values.toList, List.mem_cons, exists_eq_or_imp]

end

def configurations (tables : Bool) (root : Fields) (category : String) : List Value :=
  match root.get category with
  | some (.obj m) => m.toList.map Prod.snd
  | some (.table m) => if tables then m.toList.map Prod.snd else []
  | _ => []

/-- `insecure: true` occurs in an exporter or a receiver. -/
def InsecureTransport (tables : Bool) (root : Fields) : Prop :=
  ∃ category ∈ ["exporters", "receivers"], ∃ v ∈ configurations tables root category,
    Insecure tables v

theorem configurations_false (root : Fields) (category : String) :
    configurations false root category = (section_ root category).toList.map Prod.snd := by
  unfold configurations section_ asMapOrEmpty
  cases root.get category with
  | none => rfl
  | some v => cases v <;> rfl

theorem insecureTLSFindings_ne_nil_iff (root : Fields) (target : Target) :
    insecureTLSFindings root target ≠ [] ↔ InsecureTransport false root := by
  simp only [insecureTLSFindings, InsecureTransport, configurations_false, ne_eq,
    List.flatMap_eq_nil_iff, List.map_eq_nil_iff, List.filter_eq_nil_iff, hasInsecureTrue_iff]
  push Not
  simp only [List.mem_map, exists_exists_and_eq_and]

end Insecure

variable (env : Environment)

section Rules

inductive BreaksOtherRule (req : Request) (candidate : Fields) : Prop
  | memoryLimiter (h : hasTopLevelComponent candidate "processors" "memory_limiter" = false)
  | batch {name : String} {pipeline : Value} (hmem : (name, pipeline) ∈ (pipelines candidate).toList)
      (h : containsComponentType (pipelineProcessors pipeline) "batch" = false)
  | endpoint {id : String} {comp : Value}
      (hmem : (id, comp) ∈ (section_ candidate "exporters").toList) (hid : isOTLP id = true)
      (hset : trimSpace (endpointOf comp) ≠ [])
      (hallowlist : req.settings.allowedOTLPEndpoints ≠ [])
      (h : endpointAllowed env (endpointOf comp) req.settings.allowedOTLPEndpoints = false)
  | resource {attr : GoString}
      (hmem : attr ∈ requiredAttributes req.settings.requiredResourceAttributes)
      (h : attr ∉ resourceAttributes candidate)
  | sampling {id path : String} {comp : Value} {pct : Option Value}
      (hmem : (id, comp) ∈ (section_ candidate "processors").toList)
      (hpct : (path, pct) ∈ samplingPercentages id comp)
      (h : (outOfRange env pct (normalizeSettings req.settings).sampling.minPercentage
        (normalizeSettings req.settings).sampling.maxPercentage).isSome = true)
  | critical {current : Fields} {id : GoString} (hcurrent : Push.trimSpace req.currentYAML ≠ "")
      (hparse : parseConfig env req.currentYAML = .ok current)
      (hmem : id ∈ criticalSet current req.settings.criticalExporters)
      (h : id ∉ pipelineExporters candidate)

theorem memoryLimiterFindings_ne_nil_iff (root : Fields) (target : Target) :
    memoryLimiterFindings root target ≠ [] ↔
      hasTopLevelComponent root "processors" "memory_limiter" = false := by
  unfold memoryLimiterFindings
  cases hasTopLevelComponent root "processors" "memory_limiter" <;> simp

theorem missingBatchFindings_ne_nil_iff (root : Fields) (target : Target) :
    missingBatchFindings root target ≠ [] ↔
      ∃ name pipeline, (name, pipeline) ∈ (pipelines root).toList ∧
        containsComponentType (pipelineProcessors pipeline) "batch" = false := by
  simp only [missingBatchFindings, ne_eq, List.map_eq_nil_iff, List.filter_eq_nil_iff, Prod.forall,
    Bool.not_eq_true', not_forall, not_not, exists_prop]

theorem otlpEndpointFindings_ne_nil_iff (root : Fields) (target : Target)
    (allowlist : List String) :
    otlpEndpointFindings env root target allowlist ≠ [] ↔
      allowlist ≠ [] ∧ ∃ id comp, (id, comp) ∈ (section_ root "exporters").toList ∧
        isOTLP id = true ∧ trimSpace (endpointOf comp) ≠ [] ∧
        endpointAllowed env (endpointOf comp) allowlist = false := by
  unfold otlpEndpointFindings
  split
  · next hnil => simp [hnil]
  · next hne =>
    simp only [ne_eq, hne, not_false_eq_true, true_and, List.map_eq_nil_iff,
      List.filter_eq_nil_iff, Prod.forall, Bool.and_eq_true, decide_eq_true_eq, Bool.not_eq_true',
      not_forall, not_not, exists_prop, and_assoc]

theorem resourceIdentityFindings_ne_nil_iff (root : Fields) (target : Target)
    (requiredAttrs : List String) :
    resourceIdentityFindings root target requiredAttrs ≠ [] ↔
      ∃ attr ∈ requiredAttributes requiredAttrs, attr ∉ resourceAttributes root := by
  unfold resourceIdentityFindings
  split
  · next hall => simpa using hall
  · next hall => simpa using hall

theorem samplingFindings_ne_nil_iff (root : Fields) (target : Target)
    (minPercentage maxPercentage : Double) :
    samplingFindings env root target minPercentage maxPercentage ≠ [] ↔
      ∃ id comp, (id, comp) ∈ (section_ root "processors").toList ∧
        ∃ path pct, (path, pct) ∈ samplingPercentages id comp ∧
          (outOfRange env pct minPercentage maxPercentage).isSome = true := by
  simp only [samplingFindings, ne_eq, List.flatMap_eq_nil_iff, List.filterMap_eq_nil_iff,
    Prod.forall, Option.map_eq_none_iff, not_forall, exists_prop, ← Option.isSome_iff_ne_none]

theorem criticalExporterRemovalFindings_ne_nil_iff (current candidate : Fields) (target : Target)
    (critical : List String) :
    criticalExporterRemovalFindings current candidate target critical ≠ [] ↔
      ∃ id ∈ criticalSet current critical, id ∉ pipelineExporters candidate := by
  unfold criticalExporterRemovalFindings
  split
  · next hall => simpa using hall
  · next hall => simpa using hall

variable {env} {req : Request}

theorem currentConfigFindings_ne_nil_iff
    (hprod : isProduction req.target.environment = true) (candidate : Fields) :
    currentConfigFindings env req candidate ≠ [] ↔
      Push.trimSpace req.currentYAML ≠ "" ∧
        ∃ current, parseConfig env req.currentYAML = .ok current ∧
          ∃ id ∈ criticalSet current req.settings.criticalExporters,
            id ∉ pipelineExporters candidate := by
  unfold currentConfigFindings
  by_cases hblank : Push.trimSpace req.currentYAML = ""
  · simp [hblank]
  cases hparse : parseConfig env req.currentYAML with
  | error err => simp
  | ok current =>
    simp only [hprod, ne_eq, hblank, not_false_eq_true, decide_true, Bool.true_or, Bool.and_self,
      if_true, true_and, Except.ok.injEq, exists_eq_left']
    exact criticalExporterRemovalFindings_ne_nil_iff ..

/-- The findings about a production target. -/
theorem ruleFindings_ne_nil_iff (hprod : isProduction req.target.environment = true)
    (candidate : Fields) :
    ruleFindings env req candidate ≠ [] ↔
      InsecureTransport false candidate ∨ BreaksOtherRule env req candidate := by
  simp only [ruleFindings, hprod, if_true, Bool.true_or, ne_eq, List.append_eq_nil_iff, not_and_or]
  simp only [← ne_eq, insecureTLSFindings_ne_nil_iff, memoryLimiterFindings_ne_nil_iff,
    missingBatchFindings_ne_nil_iff, otlpEndpointFindings_ne_nil_iff,
    resourceIdentityFindings_ne_nil_iff, samplingFindings_ne_nil_iff,
    currentConfigFindings_ne_nil_iff hprod]
  constructor
  · rintro ((((((hinsecure | hlimiter) | ⟨name, pipeline, hmem, h⟩) |
      ⟨hallowlist, id, comp, hmem, hid, hset, h⟩) | ⟨attr, hmem, h⟩) |
      ⟨id, comp, hmem, path, pct, hpct, h⟩) | ⟨hcurrent, current, hparse, id, hmem, h⟩)
    · exact .inl hinsecure
    · exact .inr (.memoryLimiter hlimiter)
    · exact .inr (.batch hmem h)
    · exact .inr (.endpoint hmem hid hset hallowlist h)
    · exact .inr (.resource hmem h)
    · exact .inr (.sampling hmem hpct h)
    · exact .inr (.critical hcurrent hparse hmem h)
  · rintro (hinsecure | hother)
    · exact .inl (.inl (.inl (.inl (.inl (.inl hinsecure)))))
    · cases hother with
      | memoryLimiter h => exact .inl (.inl (.inl (.inl (.inl (.inr h)))))
      | batch hmem h => exact .inl (.inl (.inl (.inl (.inr ⟨_, _, hmem, h⟩))))
      | endpoint hmem hid hset hallowlist h =>
        exact .inl (.inl (.inl (.inr ⟨hallowlist, _, _, hmem, hid, hset, h⟩)))
      | resource hmem h => exact .inl (.inl (.inr ⟨_, hmem, h⟩))
      | sampling hmem hpct h => exact .inl (.inr ⟨_, _, hmem, _, _, hpct, h⟩)
      | critical hcurrent hparse hmem h => exact .inr ⟨hcurrent, _, hparse, _, hmem, h⟩

end Rules

section Decision

variable {env} {req : Request}

theorem decision_finalize (target : Target) (settings : Settings) {findings : List Finding}
    (h : ∀ f ∈ findings, f.decision = .block) :
    (finalize target settings findings).decision = .block ↔ findings ≠ [] := by
  have hfold (l : List Finding) (hl : ∀ f ∈ l, f.decision = .block) (result : Evaluation) :
      (l.foldl countFinding result).decision = .block ↔ l ≠ [] ∨ result.decision = .block := by
    induction l generalizing result with
    | nil => simp
    | cons f l ih =>
      have hf := hl f List.mem_cons_self
      rw [List.foldl_cons, ih fun g hg => hl g (List.mem_cons_of_mem _ hg)]
      simp [countFinding, hf]
  rw [finalize, hfold findings h]
  simp

/-- The finding blocks, and is one of the rule with the code. -/
def Finding.BlocksAs (f : Finding) (code : String) : Prop := f.decision = .block ∧ f.ruleCode = code

variable {f : Finding} {root candidate : Fields} {target : Target}

theorem blocksAs_insecureTLS
    (h : f ∈ insecureTLSFindings root target) : f.BlocksAs "community.production.insecure_tls" := by
  obtain ⟨category, -, hf⟩ := List.mem_flatMap.1 h
  obtain ⟨entry, -, rfl⟩ := List.mem_map.1 hf
  exact ⟨rfl, rfl⟩

theorem blocksAs_memoryLimiter (h : f ∈ memoryLimiterFindings root target) :
    f.BlocksAs "community.processors.memory_limiter.required" := by
  unfold memoryLimiterFindings at h
  split at h
  · cases h
  · rw [List.mem_singleton.1 h]
    exact ⟨rfl, rfl⟩

theorem blocksAs_missingBatch (h : f ∈ missingBatchFindings root target) :
    f.BlocksAs "community.pipelines.batch.required" := by
  obtain ⟨entry, -, rfl⟩ := List.mem_map.1 h
  exact ⟨rfl, rfl⟩

theorem blocksAs_otlpEndpoint {allowlist : List String}
    (h : f ∈ otlpEndpointFindings env root target allowlist) :
    f.BlocksAs "community.exporters.otlp_endpoint.allowlist" := by
  unfold otlpEndpointFindings at h
  split at h
  · cases h
  · obtain ⟨entry, -, rfl⟩ := List.mem_map.1 h
    exact ⟨rfl, rfl⟩

theorem blocksAs_resourceIdentity {requiredAttrs : List String}
    (h : f ∈ resourceIdentityFindings root target requiredAttrs) :
    f.BlocksAs "community.resource.attributes.required" := by
  unfold resourceIdentityFindings at h
  split at h
  · cases h
  · rw [List.mem_singleton.1 h]
    exact ⟨rfl, rfl⟩

theorem blocksAs_sampling {minPercentage maxPercentage : Double}
    (h : f ∈ samplingFindings env root target minPercentage maxPercentage) :
    f.BlocksAs "community.sampling.percentage.safe_range" := by
  obtain ⟨entry, -, hf⟩ := List.mem_flatMap.1 h
  obtain ⟨percentage, -, hf⟩ := List.mem_filterMap.1 hf
  obtain ⟨pct, -, rfl⟩ := Option.map_eq_some_iff.1 hf
  exact ⟨rfl, rfl⟩

theorem blocksAs_currentConfig (h : f ∈ currentConfigFindings env req candidate) :
    f.BlocksAs "community.exporters.critical_removal" := by
  unfold currentConfigFindings at h
  split at h
  · split at h
    · unfold criticalExporterRemovalFindings at h
      split at h
      · cases h
      · rw [List.mem_singleton.1 h]
        exact ⟨rfl, rfl⟩
    · cases h
  · cases h

/-- Every finding blocks, and the findings about critical exporters come from the comparison with
the current config. -/
theorem blocks_ruleFindings (h : f ∈ ruleFindings env req candidate) :
    f.decision = .block ∧ (f.ruleCode = "community.exporters.critical_removal" →
      f ∈ currentConfigFindings env req candidate) := by
  have hother {code : String} (hf : f.BlocksAs code)
      (hcode : code ≠ "community.exporters.critical_removal") :
      f.decision = .block ∧ (f.ruleCode = "community.exporters.critical_removal" →
        f ∈ currentConfigFindings env req candidate) :=
    ⟨hf.1, fun hcritical => absurd (hf.2.symm.trans hcritical) hcode⟩
  simp only [ruleFindings, List.mem_append] at h
  rcases h with (hproduction | hsampling) | hcurrent
  · split at hproduction
    · simp only [List.mem_append] at hproduction
      rcases hproduction with (((hf | hf) | hf) | hf) | hf
      · exact hother (blocksAs_insecureTLS hf) (by decide)
      · exact hother (blocksAs_memoryLimiter hf) (by decide)
      · exact hother (blocksAs_missingBatch hf) (by decide)
      · exact hother (blocksAs_otlpEndpoint hf) (by decide)
      · exact hother (blocksAs_resourceIdentity hf) (by decide)
    · cases hproduction
  · split at hsampling
    · exact hother (blocksAs_sampling hsampling) (by decide)
    · cases hsampling
  · exact ⟨(blocksAs_currentConfig hcurrent).1, fun _ => hcurrent⟩

theorem evaluate_of_parse (hparse : parseConfig env req.candidateYAML = .ok candidate) :
    evaluate env req = finalize req.target (normalizeSettings req.settings)
      (sortFindings (ruleFindings env req candidate)) := by
  rw [evaluate, hparse]

theorem decision_evaluate (hprod : isProduction req.target.environment = true)
    (hparse : parseConfig env req.candidateYAML = .ok candidate) :
    (evaluate env req).decision = .block ↔
      InsecureTransport false candidate ∨ BreaksOtherRule env req candidate := by
  have hblocks : ∀ f ∈ sortFindings (ruleFindings env req candidate), f.decision = .block :=
    fun f hf => (blocks_ruleFindings (List.mem_mergeSort.1 hf)).1
  have hnil : sortFindings (ruleFindings env req candidate) ≠ [] ↔
      ruleFindings env req candidate ≠ [] := by
    rw [← List.length_pos_iff, sortFindings, List.length_mergeSort, List.length_pos_iff]
  rw [evaluate_of_parse hparse, decision_finalize _ _ hblocks, hnil, ruleFindings_ne_nil_iff hprod]

end Decision

end OtelMagnify.Policy
