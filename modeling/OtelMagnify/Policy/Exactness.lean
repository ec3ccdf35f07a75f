import OtelMagnify.Policy.Rules

/-! How far the rules of the policy do what they are named after: the one on insecure transport, the
allowlist of OTLP endpoints and the one on critical exporters. -/
namespace OtelMagnify.Policy
open Yaml GoString

variable {env : Environment} {req : Request}

section Insecure

/-- `insecure: true` in an exporter or receiver blocks a production target if the search reaches it,
through mappings with string keys and lists alone, or if another rule is broken. -/
theorem insecure_transport_blocked_iff (hprod : isProduction req.target.environment = true)
    {candidate : Fields} (hparse : parseConfig env req.candidateYAML = .ok candidate) :
    (InsecureTransport true candidate → (evaluate env req).decision = .block) ↔
      (InsecureTransport true candidate →
        InsecureTransport false candidate ∨ BreaksOtherRule env req candidate) := by
  rw [decision_evaluate hprod hparse]

def rootWith (id : String) (exporter : Fields) : Fields :=
  .ofList
    [("exporters", .obj (.cons id (.obj exporter) .nil)),
      ("processors", .obj (.ofList [("batch", .null), ("memory_limiter", .null)])),
      ("service", .obj (.ofList [("pipelines", .obj (.ofList [("traces", .obj (.ofList
        [("exporters", .list (.ofList [.str id])),
          ("processors", .list (.ofList [.str "memory_limiter", .str "batch"]))]))]))]))]

def environmentWith (doc : Document) : Environment where
  decode := fun _ => .ok (some doc)
  literal := fun _ => none
  caseTable := .asciiOnly
  float64 := fun _ => .nan
  parseFloat := fun _ => none
  formatG4 := fun _ => ""

def productionRequest (settings : Settings) : Request where
  candidateYAML := "exporters:"
  target := { environment := "production" }
  settings := settings

/-- An exporter whose `tls` has a key that is a number beside `insecure: true`. -/
def insecureTable : Document where
  root := rootWith "otlp" (.cons "tls"
    (.table (.cons (.int 1) .null (.cons (.str "insecure") (.bool true) .nil))) .nil)
  ordered := by decide

theorem insecure_table_passes :
    InsecureTransport true insecureTable.root ∧
      (evaluate (environmentWith insecureTable) (productionRequest {})).decision = .pass := by
  refine ⟨⟨"exporters", by decide, _, List.mem_singleton_self _, ?_⟩, by decide +kernel⟩
  exact .member List.mem_cons_self
    (.tableHere rfl (by decide) (List.mem_cons_of_mem _ List.mem_cons_self))

/-- An exporter with `insecure: true` in a mapping with string keys. -/
def insecureExporter : Document where
  root := rootWith "otlp" (.cons "tls" (.obj (.cons "insecure" (.bool true) .nil)) .nil)
  ordered := by decide

theorem insecure_exporter_blocked :
    InsecureTransport false insecureExporter.root ∧
      (InsecureTransport true insecureExporter.root →
        (evaluate (environmentWith insecureExporter) (productionRequest {})).decision =
          .block) := by
  have hplain : InsecureTransport false insecureExporter.root :=
    ⟨"exporters", by decide, _, List.mem_singleton_self _,
      .member List.mem_cons_self (.here (by decide) List.mem_cons_self)⟩
  exact ⟨hplain, (insecure_transport_blocked_iff (by decide) rfl).2 fun _ => .inl hplain⟩

end Insecure

section Allowlist

/-- The host is one of the allowlist or a subdomain of one. -/
def HostAllowed (env : Environment) (allowlist : List String) (host : GoString) : Prop :=
  ∃ allowed ∈ allowlist, endpointHost env (ofString allowed) ≠ [] ∧
    (host = endpointHost env (ofString allowed) ∨
      .char '.' :: endpointHost env (ofString allowed) <:+ host)

theorem hostAllowed_of_endpointAllowed {endpoint : GoString} {allowlist : List String}
    (h : endpointAllowed env endpoint allowlist = true) :
    HostAllowed env allowlist (endpointHost env endpoint) := by
  obtain ⟨-, hany⟩ := Bool.and_eq_true_iff.1 h
  obtain ⟨allowed, hmem, hallowed⟩ := List.any_eq_true.1 hany
  rw [Bool.and_eq_true, Bool.or_eq_true, decide_eq_true_eq, decide_eq_true_eq] at hallowed
  obtain ⟨hne, heq | hsuffix⟩ := hallowed
  · exact ⟨allowed, hmem, hne, .inl heq⟩
  · exact ⟨allowed, hmem, hne, .inr (List.isSuffixOf_iff_suffix.1 hsuffix)⟩

/-- A config that is not blocked for a production target sends to allowed hosts with the `endpoint`
of every OTLP exporter, as far as the exporters are mappings with string keys. -/
theorem otlp_endpoints_allowed (hprod : isProduction req.target.environment = true)
    (hallowlist : req.settings.allowedOTLPEndpoints ≠ [])
    (hdecision : (evaluate env req).decision ≠ .block) :
    ∃ candidate, parseConfig env req.candidateYAML = .ok candidate ∧
      ∀ exporters, candidate.get "exporters" = some (.obj exporters) →
        ∀ id comp, (id, .obj comp) ∈ exporters.toList →
          (componentBase (ofString id) = ofString "otlp" ∨
            componentBase (ofString id) = ofString "otlphttp") →
          ∀ v endpoint, comp.get "endpoint" = some v → v.asString = some endpoint →
            trimSpace endpoint ≠ [] →
              HostAllowed env req.settings.allowedOTLPEndpoints (endpointHost env endpoint) := by
  cases hparse : parseConfig env req.candidateYAML with
  | error err =>
    rw [evaluate, hparse] at hdecision
    exact absurd rfl hdecision
  | ok candidate =>
    refine ⟨candidate, rfl, fun exporters hexporters id comp hmem hid v endpoint hv htext => ?_⟩
    have hsection : section_ candidate "exporters" = exporters := by
      simp [section_, asMapOrEmpty, hexporters, Value.asMap]
    obtain rfl : endpointOf (.obj comp) = endpoint := by
      simp [endpointOf, asMapOrEmpty, Value.asMap, hv, htext]
    intro hset
    cases hallowed : endpointAllowed env (endpointOf (.obj comp))
      req.settings.allowedOTLPEndpoints with
    | true => exact hostAllowed_of_endpointAllowed hallowed
    | false =>
      have hbroken := BreaksOtherRule.endpoint (hsection.symm ▸ hmem) (by simpa [isOTLP] using hid)
        hset hallowlist hallowed
      exact absurd ((decision_evaluate hprod hparse).2 (.inr hbroken)) hdecision

/-- An exporter with an endpoint of its own for traces. -/
def tracesElsewhere : Document where
  root := rootWith "otlphttp" (.cons "endpoint" (.str "https://allowed.example")
    (.cons "traces_endpoint" (.str "https://evil.example/v1/traces") .nil))
  ordered := by decide

def allowlisted : Settings where
  allowedOTLPEndpoints := ["allowed.example"]

theorem traces_endpoint_not_checked :
    (evaluate (environmentWith tracesElsewhere) (productionRequest allowlisted)).decision = .pass ∧
      endpointHost (environmentWith tracesElsewhere)
        (ofString "https://evil.example/v1/traces") = ofString "evil.example" ∧
      ¬ HostAllowed (environmentWith tracesElsewhere) ["allowed.example"]
        (ofString "evil.example") := by
  refine ⟨by decide +kernel, by decide +kernel, ?_⟩
  rintro ⟨allowed, hmem, -, h⟩
  rw [List.mem_singleton] at hmem
  subst hmem
  revert h
  decide +kernel

theorem endpoint_of_exporter_allowed :
    (evaluate (environmentWith tracesElsewhere) (productionRequest allowlisted)).decision ≠
        .block ∧
      HostAllowed (environmentWith tracesElsewhere) ["allowed.example"]
        (endpointHost (environmentWith tracesElsewhere) (ofString "https://allowed.example")) := by
  have hdecision : (evaluate (environmentWith tracesElsewhere)
      (productionRequest allowlisted)).decision ≠ .block := by decide +kernel
  obtain ⟨candidate, hparse, hallowed⟩ := otlp_endpoints_allowed (by decide)
    (List.cons_ne_nil _ _) hdecision
  cases hparse
  exact ⟨hdecision, hallowed _ rfl "otlphttp" _ List.mem_cons_self (by decide) _ _ rfl rfl
    (by decide)⟩

end Allowlist

section Critical

variable (current candidate : Fields) (critical : List String)

/-- The exporters that are listed as critical. -/
def listedExporters : List GoString :=
  (critical.map fun id => trimSpace (ofString id)).filter (· ≠ [])

/-- An exporter of the current config that is critical is not used any more. -/
def RemovesCritical : Prop :=
  ∃ id ∈ pipelineExporters current, (id ∈ listedExporters critical ∨ listedExporters critical = []) ∧
    id ∉ pipelineExporters candidate

/-- With a list of blanks, a candidate that uses an exporter without a name keeps all exporters and
any other one drops some. With a list that names exporters, the candidate uses every entry that is
blank or not used by the current config, or it drops a listed exporter of the current config. -/
def ListFits : Prop :=
  if listedExporters critical = [] then
    if [] ∈ pipelineExporters candidate then
      ∀ id ∈ pipelineExporters current, id ∈ pipelineExporters candidate
    else ∃ id ∈ pipelineExporters current, id ∉ pipelineExporters candidate
  else
    (∀ id ∈ critical.map fun id => trimSpace (ofString id),
        id = [] ∨ id ∉ pipelineExporters current → id ∈ pipelineExporters candidate) ∨
      ∃ id ∈ listedExporters critical, id ∈ pipelineExporters current ∧
        id ∉ pipelineExporters candidate

variable {current candidate critical}

theorem trimSpace_of_listedExporters_eq_nil (h : listedExporters critical = []) {id : String}
    (hid : id ∈ critical) : trimSpace (ofString id) = [] := by
  have hall := List.filter_eq_nil_iff.1 h _ (List.mem_map.2 ⟨id, hid, rfl⟩)
  simpa using hall

/-- The two conditions on a removal agree when the list fits. -/
theorem criticalSet_iff_removesCritical (hne : critical ≠ []) :
    ((∃ id ∈ criticalSet current critical, id ∉ pipelineExporters candidate) ↔
      RemovesCritical current candidate critical) ↔ ListFits current candidate critical := by
  rw [criticalSet, if_neg hne, ListFits]
  split
  · next hblank =>
    -- every entry is blank once it is trimmed
    have hentries : (∃ id ∈ critical.map fun id => trimSpace (ofString id),
        id ∉ pipelineExporters candidate) ↔ [] ∉ pipelineExporters candidate := by
      simp only [List.mem_map, exists_exists_and_eq_and]
      obtain ⟨entry, hentry⟩ := List.exists_mem_of_ne_nil critical hne
      constructor
      · rintro ⟨id, hid, h⟩
        rwa [trimSpace_of_listedExporters_eq_nil hblank hid] at h
      · intro h
        refine ⟨entry, hentry, ?_⟩
        rwa [trimSpace_of_listedExporters_eq_nil hblank hentry]
    rw [hentries, RemovesCritical]
    simp only [hblank, or_true, true_and]
    split
    · next hunnamed => simp [hunnamed]
    · next hnamed => simp [hnamed]
  · next hlisted =>
    rw [RemovesCritical]
    simp only [hlisted, or_false]
    constructor
    · intro h
      by_cases hremoved : ∃ id ∈ critical.map fun id => trimSpace (ofString id),
          id ∉ pipelineExporters candidate
      · obtain ⟨id, hcurrent, hid, hnot⟩ := h.1 hremoved
        exact .inr ⟨id, hid, hcurrent, hnot⟩
      · push Not at hremoved
        exact .inl fun id hid _ => hremoved id hid
    · intro h
      constructor
      · rintro ⟨id, hid, hnot⟩
        rcases h with hkept | ⟨id, hid, hcurrent, hnot⟩
        · have hused : ¬ (id = [] ∨ id ∉ pipelineExporters current) :=
            fun hunused => hnot (hkept id hid hunused)
          push Not at hused
          exact ⟨id, hused.2, List.mem_filter.2 ⟨hid, by simpa using hused.1⟩, hnot⟩
        · exact ⟨id, hcurrent, hid, hnot⟩
      · rintro ⟨id, -, hid, hnot⟩
        exact ⟨id, List.mem_of_mem_filter hid, hnot⟩

theorem findings_finalize (target : Target) (settings : Settings) (findings : List Finding) :
    (finalize target settings findings).findings = findings := by
  have hcount (result : Evaluation) (f : Finding) :
      (countFinding result f).findings = result.findings := by
    unfold countFinding
    split
    · rfl
    · dsimp only
      split <;> rfl
    · rfl
  have hfold (l : List Finding) (result : Evaluation) :
      (l.foldl countFinding result).findings = result.findings := by
    induction l generalizing result with
    | nil => rfl
    | cons f l ih => rw [List.foldl_cons, ih, hcount]
  exact hfold findings _

theorem critical_finding_iff (hprod : isProduction req.target.environment = true)
    (hcandidate : parseConfig env req.candidateYAML = .ok candidate)
    (hcurrent : parseConfig env req.currentYAML = .ok current) :
    (∃ f ∈ (evaluate env req).findings, f.ruleCode = "community.exporters.critical_removal") ↔
      Push.trimSpace req.currentYAML ≠ "" ∧
        ∃ id ∈ criticalSet current req.settings.criticalExporters,
          id ∉ pipelineExporters candidate := by
  have hfindings : (∃ f ∈ (evaluate env req).findings,
      f.ruleCode = "community.exporters.critical_removal") ↔
        currentConfigFindings env req candidate ≠ [] := by
    rw [evaluate_of_parse hcandidate, findings_finalize]
    constructor
    · rintro ⟨f, hf, hcode⟩
      exact List.ne_nil_of_mem ((blocks_ruleFindings (List.mem_mergeSort.1 hf)).2 hcode)
    · intro hne
      obtain ⟨f, hf⟩ := List.exists_mem_of_ne_nil _ hne
      refine ⟨f, List.mem_mergeSort.2 ?_, (blocksAs_currentConfig hf).2⟩
      rw [ruleFindings]
      exact List.mem_append_right _ hf
  rw [hfindings, currentConfigFindings_ne_nil_iff hprod]
  simp only [hcurrent, Except.ok.injEq, exists_eq_left']

/-- The finding about critical exporters is exact when there is no list of them or the list fits. A
text of white space holds no config. -/
theorem critical_removal_exact_iff (hprod : isProduction req.target.environment = true)
    (hcandidate : parseConfig env req.candidateYAML = .ok candidate)
    (hcurrent : parseConfig env req.currentYAML = .ok current)
    (hblank : Push.trimSpace req.currentYAML = "" → current = .nil) :
    ((∃ f ∈ (evaluate env req).findings, f.ruleCode = "community.exporters.critical_removal") ↔
        RemovesCritical current candidate req.settings.criticalExporters) ↔
      (Push.trimSpace req.currentYAML = "" ∨ req.settings.criticalExporters = [] ∨
        ListFits current candidate req.settings.criticalExporters) := by
  rw [critical_finding_iff hprod hcandidate hcurrent]
  by_cases htext : Push.trimSpace req.currentYAML = ""
  · have hnone : ¬ RemovesCritical current candidate req.settings.criticalExporters := by
      rw [hblank htext]
      rintro ⟨id, hid, -⟩
      exact absurd hid List.not_mem_nil
    simp only [htext, ne_eq, not_true_eq_false, false_and, hnone, true_or]
  by_cases hlist : req.settings.criticalExporters = []
  · have hall : (∃ id ∈ criticalSet current [], id ∉ pipelineExporters candidate) ↔
        RemovesCritical current candidate [] := by
      simp [criticalSet, RemovesCritical, listedExporters]
    rw [hlist]
    simp only [ne_eq, htext, not_false_eq_true, true_and, hall, or_true, true_or]
  · simp only [ne_eq, htext, not_false_eq_true, true_and, false_or, hlist]
    exact criticalSet_iff_removesCritical hlist

instance (current candidate : Fields) (critical : List String) :
    Decidable (RemovesCritical current candidate critical) :=
  inferInstanceAs (Decidable (∃ id ∈ pipelineExporters current, _ ∧ _))

/-- A push that changes nothing, with the exporter `otlp`. -/
def unchanged : Document where
  root := rootWith "otlp" .nil
  ordered := by decide

def unchangedRequest (critical : List String) : Request :=
  { productionRequest { criticalExporters := critical } with currentYAML := "exporters:" }

/-- A listed exporter that neither config uses, and a blank entry, are taken for a removal. -/
theorem unused_exporter_reported_removed :
    ((∃ f ∈ (evaluate (environmentWith unchanged) (unchangedRequest ["kafka"])).findings,
        f.ruleCode = "community.exporters.critical_removal") ∧
      ¬ RemovesCritical unchanged.root unchanged.root ["kafka"]) ∧
    (∃ f ∈ (evaluate (environmentWith unchanged) (unchangedRequest [" "])).findings,
        f.ruleCode = "community.exporters.critical_removal") ∧
      ¬ RemovesCritical unchanged.root unchanged.root [" "] := by
  decide +kernel

theorem unchanged_config_exact :
    isProduction (unchangedRequest ["otlp"]).target.environment = true ∧
      ((∃ f ∈ (evaluate (environmentWith unchanged) (unchangedRequest ["otlp"])).findings,
          f.ruleCode = "community.exporters.critical_removal") ↔
        RemovesCritical unchanged.root unchanged.root ["otlp"]) := by
  have hparse : parseConfig (environmentWith unchanged) "exporters:" = .ok unchanged.root := rfl
  refine ⟨by decide, (critical_removal_exact_iff (by decide) hparse hparse
    (fun h => absurd h (by decide))).2 (.inr (.inr (.inl ?_)))⟩
  decide

end Critical

end OtelMagnify.Policy
