import OtelMagnify.Lib.Checks
import OtelMagnify.Reports.Service

/-! What an evidence pack keeps of the facts that its sections gather, and whether they lie in the
scope of the request. -/
namespace OtelMagnify.Reports
open Push (Time redactedMessage keptTexts)

variable {env : Environment} {s : Store} {now : Time} {req : ReportExportRequest}
  {pack : EvidencePack}

/-- The request as it is served, and the workloads of its scope. -/
structure Resolves (env : Environment) (s : Store) (req served : ReportExportRequest)
    (workloads : List Workload) : Prop where
  normalized : normalizeRequest req = .ok served
  resolved : resolveWorkloads env s served.scope = .ok workloads

theorem Resolves.eq {served served' : ReportExportRequest} {workloads workloads' : List Workload}
    (h : Resolves env s req served workloads) (h' : Resolves env s req served' workloads') :
    served = served' ∧ workloads = workloads' := by
  cases Except.ok.inj (h.normalized.symm.trans h'.normalized)
  exact ⟨rfl, Except.ok.inj (h.resolved.symm.trans h'.resolved)⟩

def evidence (env : Environment) (s : Store) (served : ReportExportRequest)
    (workloads : List Workload) : List Evidence :=
  (findings env s served workloads).flatMap (·.items)

def EvidencePack.items (pack : EvidencePack) : List EvidenceItem := pack.sections.flatMap (·.items)

/-- A pack holds the items of what was gathered, for the workloads of the scope. -/
theorem buildEvidencePack_ok (h : buildEvidencePack env s now req = .ok pack) :
    ∃ served workloads, Resolves env s req served workloads ∧
      pack.workloadIDs = workloads.map (·.id) ∧ pack.scope = served.scope ∧
      ∀ i, i ∈ pack.items ↔ ∃ e ∈ evidence env s served workloads, item e = i := by
  obtain ⟨served, hserved, h⟩ := Checks.bind_eq_ok.mp h
  obtain ⟨workloads, hworkloads, h⟩ := Checks.bind_eq_ok.mp h
  cases h
  refine ⟨served, workloads, ⟨hserved, hworkloads⟩, rfl, rfl, fun i => ?_⟩
  simp only [EvidencePack.items, evidence, List.mem_flatMap, (env.sortSlice.perm _ _).mem_iff,
    List.mem_map]
  constructor
  · rintro ⟨_, ⟨f, hf, rfl⟩, hi⟩
    obtain ⟨e, he, rfl⟩ := List.mem_map.1 hi
    exact ⟨e, ⟨f, hf, he⟩, rfl⟩
  · rintro ⟨e, ⟨f, hf, he⟩, rfl⟩
    exact ⟨_, ⟨f, hf, rfl⟩, List.mem_map_of_mem he⟩

section Preservation

/-- A fact of the evidence is a text that looks like no secret, under a key that does not
either. -/
def HoldsPlain (e : Evidence) (k v : String) : Prop :=
  e.facts.lookup k = some (.text v) ∧ isSecretFactKey k = false ∧ isPlain v = true

instance (e : Evidence) (k v : String) : Decidable (HoldsPlain e k v) :=
  inferInstanceAs (Decidable (_ ∧ _ ∧ _))

theorem lookup_redactFacts (facts : Facts) (k : String) :
    (redactFacts facts).lookup k = (facts.lookup k).map (redactFact k) := by
  induction facts with
  | nil => rfl
  | cons f facts ih =>
    rw [redactFacts, List.map_cons, List.lookup_cons, List.lookup_cons]
    cases hk : k == f.1 with
    | true => rw [eq_of_beq hk, Option.map_some]
    | false => exact ih

theorem HoldsPlain.lookup_item {e : Evidence} {k v : String} (h : HoldsPlain e k v) :
    (item e).facts.lookup k = some (.text (redactString v)) := by
  rw [item, lookup_redactFacts, h.1, Option.map_some, redactFact_text h.2.1]

/-- A plain text is in the pack as it was gathered exactly when it is one that the sanitiser
knows, and such texts still tell items apart. -/
theorem plain_fact_preserved_iff (hpack : buildEvidencePack env s now req = .ok pack) :
    ∃ served workloads, Resolves env s req served workloads ∧
      ∀ e ∈ evidence env s served workloads, ∀ k v, HoldsPlain e k v →
        item e ∈ pack.items ∧
        ((item e).facts.lookup k = some (.text v) ↔ v ∈ keptTexts) ∧
        ∀ e' ∈ evidence env s served workloads, ∀ v', HoldsPlain e' k v' → v ≠ v' →
          v ∈ keptTexts → v' ∈ keptTexts → item e ≠ item e' := by
  obtain ⟨served, workloads, hres, -, -, hitems⟩ := buildEvidencePack_ok hpack
  refine ⟨served, workloads, hres, fun e he k v h => ⟨(hitems _).2 ⟨e, he, rfl⟩, ?_, ?_⟩⟩
  · rw [h.lookup_item, Option.some.injEq, FactValue.text.injEq]
    exact redactString_eq_self_iff v
  · intro e' _ v' h' hne hv hv' heq
    have hlookup := h.lookup_item
    rw [heq, h'.lookup_item, (redactString_eq_self_iff v).2 hv,
      (redactString_eq_self_iff v').2 hv', Option.some.injEq, FactValue.text.injEq] at hlookup
    exact hne hlookup.symm

def collector (version : String) : Workload where
  id := "w"
  displayName := "gateway"
  type := "collector"
  version := version
  status := "connected"
  lastSeenAt := 1
  labels := []
  fingerprintKeys := []
  activeConfigHash := ""
  remoteConfigHash := none
  acceptsRemoteConfig := true
  archivedAt := none

def stableEnvironment : Environment := ⟨.stable, .stable, .asciiOnly⟩

/-- A request for the versions of that collector, and the same as it is served. -/
def versionRequest : ReportExportRequest :=
  { scope := { workloadIDs := ["w"] }, include_ := { versionIntelligence := true } }

def servedVersionRequest : ReportExportRequest :=
  { versionRequest with
    schemaVersion := "report_export_request.v1", reportType := "evidence_pack",
    redaction := "strict" }

/-- The version item of the collector, before and after redaction. -/
def versionEvidence (version : String) : Evidence where
  kind := "version"
  id := "w"
  resource := "workload"
  resourceID := "w"
  summary := "collector version " ++ version
  facts := [("version", .text version), ("type", .text "collector")]

def redactedVersion : EvidenceItem where
  id := "version:w"
  resource := "workload"
  resourceID := "w"
  observedAt := none
  severity := ""
  summary := redactedMessage
  facts := [("version", .text redactedMessage), ("type", .text redactedMessage)]
  contentHash := ""
  redacted := true

def versionPack : EvidencePack where
  generatedAt := 2
  workloadIDs := ["w"]
  scope := versionRequest.scope
  sections := [⟨"version_intelligence", "Version intelligence", 40, [redactedVersion]⟩]
  warnings := []

/-- The version is gathered as a plain fact, and the pack does not hold it. -/
def IsCollapsed (version : String) : Prop :=
  let s : Store := { workloads := [collector version] }
  Resolves stableEnvironment s versionRequest servedVersionRequest [collector version] ∧
    versionEvidence version ∈ evidence stableEnvironment s servedVersionRequest
      [collector version] ∧
    HoldsPlain (versionEvidence version) "version" version ∧
    buildEvidencePack stableEnvironment s 2 versionRequest = .ok versionPack

/-- The packs about two versions of a collector are the same. -/
theorem collector_versions_collapse : IsCollapsed "0.99.0" ∧ IsCollapsed "0.100.0" := by
  have collapsed {version : String} (hversion : version ∈ ["0.99.0", "0.100.0"]) :
      IsCollapsed version := by
    refine ⟨⟨by decide +kernel, ?_⟩, ?_⟩
    · revert version
      decide +kernel
    · revert version
      decide +kernel
  exact ⟨collapsed (by simp), collapsed (by simp)⟩

/-- A version that is one of the sanitiser's texts is reported as such. -/
theorem kept_version_preserved :
    let version := "No OpAMP status after 30s"
    let s : Store := { workloads := [collector version] }
    ∃ pack e, buildEvidencePack stableEnvironment s 2 versionRequest = .ok pack ∧
      HoldsPlain e "version" version ∧ item e ∈ pack.items ∧
      (item e).facts.lookup "version" = some (.text version) := by
  intro version s
  obtain ⟨pack, hpack⟩ : ∃ pack,
    buildEvidencePack stableEnvironment s 2 versionRequest = .ok pack := ⟨_, rfl⟩
  obtain ⟨served, workloads, hres, h⟩ := plain_fact_preserved_iff hpack
  obtain ⟨rfl, rfl⟩ := hres.eq
    (⟨by decide +kernel, by decide +kernel⟩ :
      Resolves _ _ _ servedVersionRequest [collector version])
  have hplain : HoldsPlain (versionEvidence version) "version" version := by decide +kernel
  obtain ⟨hmem, hkept, -⟩ := h _ (by decide +kernel) "version" version hplain
  exact ⟨pack, _, hpack, hplain, hmem, hkept.2 (by decide +kernel)⟩

end Preservation

section Scope

def Evidence.workloadID (e : Evidence) : Option String :=
  match e.facts.lookup "workload_id" with
  | some (.text id) => some id
  | _ => if e.resource = "workload" then some e.resourceID else none

/-- The evidence that a time range is about: alerts, events and the config history. -/
def Evidence.isTimed (e : Evidence) : Bool :=
  e.kind = "alert" || e.kind = "event" || e.kind = "config"

def ReportScope.InRange (scope : ReportScope) (t : Time) : Prop :=
  (∀ since ∈ scope.since, since ≤ t) ∧ ∀ u ∈ scope.until_, t ≤ u

/-- The evidence is about a workload of the scope, and from its time range. -/
def Evidence.InScope (scope : ReportScope) (ids : List String) (e : Evidence) : Prop :=
  (∀ id ∈ e.workloadID, id ∈ ids) ∧ (e.isTimed = true → ∀ t ∈ e.observedAt, scope.InRange t)

def Findings.InScope (scope : ReportScope) (ids : List String) (f : Findings) : Prop :=
  ∀ e ∈ f.items, e.InScope scope ids

variable {scope : ReportScope} {workloads : List Workload}
  {wl : Workload} {e : WorkloadEvent} {since : Option Time}

/-- Evidence about a workload of the scope that no time range is about. -/
theorem Evidence.inScope_of_mem {e : Evidence} (hwl : wl ∈ workloads)
    (hid : e.workloadID = some wl.id) (htimed : e.isTimed = false) :
    e.InScope scope (workloads.map (·.id)) := by
  refine ⟨fun id h => ?_, fun h => ?_⟩
  · rw [hid] at h
    cases h
    exact List.mem_map_of_mem hwl
  · rw [htimed] at h
    cases h

theorem Evidence.inScope_iff {ids : List String} {e : Evidence} {id : String} {t : Time}
    (hid : e.workloadID = some id) (htimed : e.isTimed = true) (htime : e.observedAt = some t) :
    e.InScope scope ids ↔ id ∈ ids ∧ scope.InRange t := by
  rw [InScope, hid, htimed, htime]
  simp only [Option.mem_some_iff, forall_eq', true_imp_iff]

theorem Findings.inScope_map {f : Findings} {g : Workload → Evidence}
    (hitems : f.items = workloads.map g) (hid : ∀ wl, (g wl).workloadID = some wl.id)
    (htimed : ∀ wl, (g wl).isTimed = false) : f.InScope scope (workloads.map (·.id)) := by
  intro e he
  rw [hitems] at he
  obtain ⟨wl, hwl, rfl⟩ := List.mem_map.1 he
  exact Evidence.inScope_of_mem hwl (hid wl) (htimed wl)

theorem workloadSection_inScope :
    (workloadSection workloads).InScope scope (workloads.map (·.id)) :=
  Findings.inScope_map rfl (fun _ => rfl) fun _ => rfl

theorem driftSection_inScope : (driftSection workloads).InScope scope (workloads.map (·.id)) :=
  Findings.inScope_map rfl (fun _ => rfl) fun _ => rfl

theorem versionSection_inScope :
    (versionSection workloads).InScope scope (workloads.map (·.id)) :=
  Findings.inScope_map rfl (fun _ => rfl) fun _ => rfl

theorem rollbackReadinessSection_inScope :
    (rollbackReadinessSection env s workloads).InScope scope (workloads.map (·.id)) := by
  refine Findings.inScope_map rfl (fun wl => ?_) fun wl => ?_
  · unfold rollbackEvidence
    dsimp only
    split <;> rfl
  · unfold rollbackEvidence
    dsimp only
    split <;> rfl

theorem currentConfigSection_inScope :
    (currentConfigSection env s workloads).InScope scope (workloads.map (·.id)) := by
  intro e he
  obtain ⟨wl, hwl, he⟩ := List.mem_flatMap.1 he
  obtain ⟨cfg, -, rfl⟩ := List.mem_map.1 he
  exact Evidence.inScope_of_mem hwl rfl rfl

theorem auditVerificationSection_inScope (ids : List String) :
    auditVerificationSection.InScope scope ids := by
  intro e he
  obtain rfl := List.mem_singleton.1 he
  exact ⟨fun _ h => (nomatch h), fun h => (nomatch h)⟩

theorem Store.mem_query_getD {α : Type} {q : Query} {l : List α} {a : α} :
    a ∈ (s.query q l).getD [] ↔ s.fails q = false ∧ a ∈ l := by
  unfold query
  cases s.fails q <;> simp

theorem mem_reportedHistory {c : WorkloadConfig} :
    c ∈ reportedHistory env s wl ↔ s.fails (.getWorkloadConfigHistory wl.id) = false ∧
      ∃ row ∈ s.history, row.workloadID = wl.id ∧
        { row with content := "", contentAvailable := row.content ≠ "" } = c := by
  simp only [reportedHistory, Store.mem_query_getD, Store.getWorkloadConfigHistory,
    Store.ofWorkload, List.mem_map, (env.orderBy.perm _ _).mem_iff, List.mem_filter,
    decide_eq_true_eq, and_assoc]

theorem alertSection_inScope_iff (ids : List String) :
    (alertSection env s).InScope scope ids ↔
      (s.fails .listAlerts = false → ∀ a ∈ s.alerts, a.resolvedAt = none →
        a.workloadID ∈ ids ∧ scope.InRange a.firedAt) := by
  have hin (a : Alert) : (alertEvidence a).InScope scope ids ↔
      a.workloadID ∈ ids ∧ scope.InRange a.firedAt := Evidence.inScope_iff rfl rfl rfl
  simp only [Findings.InScope, alertSection, List.forall_mem_map, (env.sortSlice.perm _ _).mem_iff,
    Store.mem_query_getD, Store.listAlerts, (env.orderBy.perm _ _).mem_iff, List.mem_filter,
    Option.isNone_iff_eq_none, hin]
  constructor
  · intro h hok a ha hopen
    exact h a ⟨hok, ha, hopen⟩
  · rintro h a ⟨hok, ha, hopen⟩
    exact h hok a ha hopen

theorem configHistorySection_inScope_iff :
    (configHistorySection env s workloads).InScope scope (workloads.map (·.id)) ↔
      ∀ wl ∈ workloads, s.fails (.getWorkloadConfigHistory wl.id) = false →
        ∀ row ∈ s.history, row.workloadID = wl.id → scope.InRange row.appliedAt := by
  simp only [Findings.InScope, configHistorySection, List.mem_flatMap, List.mem_map,
    (env.sortSlice.perm _ _).mem_iff, mem_reportedHistory]
  constructor
  · intro h wl hwl hok row hrow hid
    exact (h _ ⟨wl, hwl, _, ⟨hok, row, hrow, hid, rfl⟩, rfl⟩).2 rfl _ rfl
  · rintro h _ ⟨wl, hwl, _, ⟨hok, row, hrow, hid, rfl⟩, rfl⟩
    exact (Evidence.inScope_iff rfl rfl rfl).2
      ⟨List.mem_map_of_mem hwl, h wl hwl hok row hrow hid⟩

def Eligible (since : Option Time) (wl : Workload) (e : WorkloadEvent) : Prop :=
  e.workloadID = wl.id ∧ ∀ t ∈ since, t = 0 ∨ t < e.occurredAt

theorem eligible_iff : (decide (e.workloadID = wl.id) &&
      (decide (since.getD 0 = 0) || decide (since.getD 0 < e.occurredAt))) = true ↔
      Eligible since wl e := by
  cases since <;> simp [Eligible]

theorem eligible_of_listed (h : e ∈ s.listWorkloadEvents env wl.id 500 (since.getD 0)) :
    e ∈ s.events ∧ Eligible since wl e := by
  have hmem := (env.orderBy.perm _ _).mem_iff.1 (List.mem_of_mem_take h)
  rw [List.mem_filter, eligible_iff] at hmem
  exact hmem

/-- The limit cuts older events off: some listed event is no older than any given one. -/
theorem exists_listed_of_eligible (he : e ∈ s.events) (heligible : Eligible since wl e) :
    ∃ newest ∈ s.listWorkloadEvents env wl.id 500 (since.getD 0),
      e.occurredAt ≤ newest.occurredAt := by
  let less (a b : WorkloadEvent) : Bool :=
    b.occurredAt < a.occurredAt || (a.occurredAt = b.occurredAt && b.id < a.id)
  let rows := s.events.filter fun e =>
    e.workloadID = wl.id && (since.getD 0 = 0 || since.getD 0 < e.occurredAt)
  have hmem : e ∈ env.orderBy.sort less rows :=
    (env.orderBy.perm _ _).mem_iff.2 (List.mem_filter.2 ⟨he, eligible_iff.2 heligible⟩)
  have hsorted := env.orderBy.sorted less rows
    (by intro a b; simp only [less]; grind) (by intro a b c; simp only [less]; grind)
  have hlisted : s.listWorkloadEvents env wl.id 500 (since.getD 0) =
      (env.orderBy.sort less rows).take 500 := rfl
  rw [hlisted]
  generalize env.orderBy.sort less rows = l at hmem hsorted
  cases l with
  | nil => cases hmem
  | cons newest l =>
    refine ⟨newest, List.mem_cons_self, ?_⟩
    rcases List.mem_cons.1 hmem with rfl | hmem
    · exact le_rfl
    · have hnot := (List.pairwise_cons.1 hsorted).1 e hmem
      simp only [less, Bool.or_eq_false_iff, decide_eq_false_iff_not] at hnot
      exact not_lt.1 hnot.1

/-- The events are in scope exactly when no event that the query ranges over is later than the
upper bound. A lower bound of Go's zero time is none to the query. -/
theorem eventsSection_inScope_iff :
    (eventsSection env s workloads scope.since).InScope scope (workloads.map (·.id)) ↔
      ∀ wl ∈ workloads, s.fails (.listWorkloadEvents wl.id) = false →
        (∀ e ∈ s.events, Eligible scope.since wl e → ∀ u ∈ scope.until_, e.occurredAt ≤ u) ∧
        (scope.since = some 0 →
          ∀ e ∈ s.listWorkloadEvents env wl.id 500 0, 0 ≤ e.occurredAt) := by
  simp only [Findings.InScope, eventsSection, List.mem_flatMap, List.mem_map,
    (env.sortSlice.perm _ _).mem_iff, reportedEvents, Store.mem_query_getD]
  constructor
  · intro h wl hwl hok
    have hrange {e : WorkloadEvent}
        (he : e ∈ s.listWorkloadEvents env wl.id 500 (scope.since.getD 0)) :
        scope.InRange e.occurredAt := (h _ ⟨wl, hwl, e, ⟨hok, he⟩, rfl⟩).2 rfl _ rfl
    refine ⟨fun e he heligible u hu => ?_, fun hsince e he => ?_⟩
    · obtain ⟨newest, hnewest, hle⟩ := exists_listed_of_eligible he heligible
      exact hle.trans ((hrange hnewest).2 u hu)
    · rw [hsince] at hrange
      exact (hrange he).1 0 hsince
  · rintro h _ ⟨wl, hwl, e, ⟨hok, he⟩, rfl⟩
    obtain ⟨huntil, hzero⟩ := h wl hwl hok
    obtain ⟨hrow, heligible⟩ := eligible_of_listed he
    refine (Evidence.inScope_iff rfl rfl rfl).2
      ⟨heligible.1 ▸ List.mem_map_of_mem hwl, fun t ht => ?_, huntil e hrow heligible⟩
    rcases heligible.2 t ht with rfl | hlt
    · rw [Option.mem_def] at ht
      rw [ht] at he
      exact hzero ht e he
    · exact hlt.le

/-- The rows that the included sections read beyond the scope are in it all the same. -/
structure RowsInScope (env : Environment) (s : Store) (served : ReportExportRequest)
    (workloads : List Workload) : Prop where
  alerts : served.include_.alerts = true → s.fails .listAlerts = false →
    ∀ a ∈ s.alerts, a.resolvedAt = none →
      a.workloadID ∈ workloads.map (·.id) ∧ served.scope.InRange a.firedAt
  history : served.include_.configHistory = true →
    ∀ wl ∈ workloads, s.fails (.getWorkloadConfigHistory wl.id) = false →
      ∀ row ∈ s.history, row.workloadID = wl.id → served.scope.InRange row.appliedAt
  events : served.include_.workloadEvents = true →
    ∀ wl ∈ workloads, s.fails (.listWorkloadEvents wl.id) = false →
      (∀ e ∈ s.events, Eligible served.scope.since wl e →
        ∀ u ∈ served.scope.until_, e.occurredAt ≤ u) ∧
      (served.scope.since = some 0 →
        ∀ e ∈ s.listWorkloadEvents env wl.id 500 0, 0 ≤ e.occurredAt)

theorem findings_inScope_iff {served : ReportExportRequest} :
    (∀ f ∈ findings env s served workloads, f.InScope served.scope (workloads.map (·.id))) ↔
      RowsInScope env s served workloads := by
  have hopt {b : Bool} {f : Findings} {P : Findings → Prop} :
      (∀ g ∈ if b = true then [f] else [], P g) ↔ (b = true → P f) := by
    cases b <;> simp
  simp only [findings, List.forall_mem_append, hopt, alertSection_inScope_iff,
    configHistorySection_inScope_iff, eventsSection_inScope_iff]
  constructor
  · rintro ⟨⟨⟨⟨⟨⟨⟨⟨-, history⟩, -⟩, -⟩, -⟩, alerts⟩, events⟩, -⟩, -⟩
    exact ⟨alerts, history, events⟩
  · rintro ⟨alerts, history, events⟩
    exact ⟨⟨⟨⟨⟨⟨⟨⟨fun _ => workloadSection_inScope, history⟩,
      fun _ => currentConfigSection_inScope⟩, fun _ => driftSection_inScope⟩,
      fun _ => versionSection_inScope⟩, alerts⟩, events⟩,
      fun _ => rollbackReadinessSection_inScope⟩, fun _ => auditVerificationSection_inScope _⟩

/-- A pack is in scope exactly when no row that the alerts, the history and the events read beyond
the scope is outside it. -/
theorem pack_in_scope_iff (hpack : buildEvidencePack env s now req = .ok pack) :
    ∃ served workloads, Resolves env s req served workloads ∧
      pack.workloadIDs = workloads.map (·.id) ∧ pack.scope = served.scope ∧
      (∀ i, i ∈ pack.items ↔ ∃ e ∈ evidence env s served workloads, item e = i) ∧
      ((∀ e ∈ evidence env s served workloads, e.InScope pack.scope pack.workloadIDs) ↔
        RowsInScope env s served workloads) := by
  obtain ⟨served, workloads, hres, hids, hscope, hitems⟩ := buildEvidencePack_ok hpack
  refine ⟨served, workloads, hres, hids, hscope, hitems, ?_⟩
  rw [← findings_inScope_iff, hids, hscope]
  simp only [evidence, List.mem_flatMap, Findings.InScope]
  constructor
  · intro h f hf e he
    exact h e ⟨f, hf, he⟩
  · rintro h e ⟨f, hf, he⟩
    exact h f hf e he

/-- A request for the alerts, the history and the events of one workload between two times. -/
def rangeRequest : ReportExportRequest where
  schemaVersion := "report_export_request.v1"
  reportType := "evidence_pack"
  redaction := "strict"
  scope := { workloadIDs := ["w"], since := some 10, until_ := some 20 }
  include_ := { alerts := true, configHistory := true, workloadEvents := true }

def alertOn (workloadID : String) (firedAt : Time) : Alert where
  id := "a"
  workloadID := workloadID
  rule := "workload_down"
  severity := "critical"
  message := ""
  firedAt := firedAt
  resolvedAt := none

def pushAt (appliedAt : Time) : WorkloadConfig where
  workloadID := "w"
  configID := "c"
  configHash := "c"
  appliedAt := appliedAt
  storedStatus := "applied"
  status := "applied"
  errorMessage := ""
  pushedBy := ""
  content := ""
  label := none
  pushID := "p"
  rollbackOfPushID := ""
  instanceStatusCount := 0
  targetCount := 0
  appliedCount := 0
  failedCount := 0
  pendingCount := 0
  timedOutCount := 0
  noStatusCount := 0

def eventAt (occurredAt : Time) : WorkloadEvent where
  id := 1
  workloadID := "w"
  instanceUID := "i"
  podName := ""
  eventType := "connected"
  version := ""
  prevVersion := ""
  occurredAt := occurredAt

/-- The pack about `w` holds an alert of another workload, a push from before the range and an
event from after it. -/
theorem pack_out_of_scope :
    let s : Store :=
      { workloads := [collector ""], alerts := [alertOn "x" 30], history := [pushAt 5]
        events := [eventAt 25] }
    ∃ pack, buildEvidencePack stableEnvironment s 40 rangeRequest = .ok pack ∧
      pack.workloadIDs = ["w"] ∧ pack.scope = rangeRequest.scope ∧
      item (alertEvidence (alertOn "x" 30)) ∈ pack.items ∧
      (alertEvidence (alertOn "x" 30)).workloadID = some "x" ∧
      item (configEvidence (collector "") (pushAt 5)) ∈ pack.items ∧
      (configEvidence (collector "") (pushAt 5)).observedAt = some 5 ∧
      item (eventEvidence (eventAt 25)) ∈ pack.items ∧
      (eventEvidence (eventAt 25)).observedAt = some 25 := by
  intro s
  obtain ⟨pack, hpack⟩ : ∃ pack,
    buildEvidencePack stableEnvironment s 40 rangeRequest = .ok pack := ⟨_, rfl⟩
  refine ⟨pack, hpack, ?_⟩
  obtain ⟨served, workloads, hres, hids, hscope, hitems⟩ := buildEvidencePack_ok hpack
  obtain ⟨rfl, rfl⟩ := hres.eq
    (⟨by decide +kernel, by decide +kernel⟩ : Resolves _ _ _ rangeRequest [collector ""])
  exact ⟨hids, hscope, (hitems _).2 ⟨_, by decide +kernel, rfl⟩, rfl,
    (hitems _).2 ⟨_, by decide +kernel, rfl⟩, rfl, (hitems _).2 ⟨_, by decide +kernel, rfl⟩, rfl⟩

/-- With rows of `w` from the range alone the pack is in scope. -/
theorem pack_in_scope :
    let s : Store :=
      { workloads := [collector ""], alerts := [alertOn "w" 15], history := [pushAt 12]
        events := [eventAt 18] }
    ∃ pack, buildEvidencePack stableEnvironment s 40 rangeRequest = .ok pack ∧
      evidence stableEnvironment s rangeRequest [collector ""] ≠ [] ∧
      ∀ e ∈ evidence stableEnvironment s rangeRequest [collector ""],
        e.InScope pack.scope pack.workloadIDs := by
  intro s
  obtain ⟨pack, hpack⟩ : ∃ pack,
    buildEvidencePack stableEnvironment s 40 rangeRequest = .ok pack := ⟨_, rfl⟩
  obtain ⟨served, workloads, hres, -, -, -, h⟩ := pack_in_scope_iff hpack
  obtain ⟨rfl, rfl⟩ := hres.eq
    (⟨by decide +kernel, by decide +kernel⟩ : Resolves _ _ _ rangeRequest [collector ""])
  refine ⟨pack, hpack, by decide +kernel, h.2 ⟨?_, ?_, ?_⟩⟩
  · simp [s, alertOn, collector, rangeRequest, ReportScope.InRange]
  · simp [s, pushAt, collector, rangeRequest, ReportScope.InRange]
  · simp [s, eventAt, collector, rangeRequest, Eligible]

end Scope

end OtelMagnify.Reports
