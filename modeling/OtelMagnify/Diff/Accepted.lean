import OtelMagnify.Diff.Engine
import OtelMagnify.Validator.Static

/-! The diff of two configs that the light validation accepts. The validation reads a section of
components that is no mapping as an empty one; the diff gives up on it. -/
namespace OtelMagnify.Diff
open Yaml GoString

variable {env : Environment} {validator : Validator.Environment} {a b : String}

def SameDecoder (validator : Validator.Environment) (env : Environment) : Prop :=
  ∀ text, env.unmarshal (textBytes text) = validator.decode text

/-- Each section of components that the document has is a mapping. -/
def SectionsAreMappings (decode : Decoder) (text : String) : Prop :=
  ∀ doc, decode text = .ok (some doc) → ∀ (cat : Category) (v : Value),
    doc.root.get cat.name = some v → ∃ m, v = .obj m

/-- The risk score that `buildConfigApplicationPlan` gives a push. -/
def planRiskScore (env : Environment) (active body : String) (targets : ℕ) : ConfigRiskScore :=
  let diff := compare env (textBytes active) (textBytes body)
  buildRiskScore diff.summary.overallRisk diff.riskItems targets

/-- The validation accepts no text but that of a document. -/
theorem exists_document (h : (Validator.validate validator a none).valid = true) :
    ∃ doc, validator.decode a = .ok (some doc) := by
  have herrors : (Validator.validateStatic validator a none {}).errors = [] := by
    simpa [Validator.validate, Validator.finalize] using h
  unfold Validator.validateStatic at herrors
  split at herrors
  · simp [Validator.notParsed, Validator.appendSkippedDependents] at herrors
  · simp [Validator.notParsed, Validator.appendSkippedDependents] at herrors
  · next doc hdoc => exact ⟨doc, hdoc⟩

theorem isReadable_iff {root : Fields} :
    isReadable root = true ↔
      ∀ (cat : Category) (v : Value), root.get cat.name = some v → ∃ m, v = .obj m := by
  constructor
  · intro h cat v hv
    have hsome := isSome_parseSection h cat
    rw [parseSection, hv] at hsome
    cases v <;> simp only [Value.asMap, Option.isSome_none, Bool.false_eq_true] at hsome
    exact ⟨_, rfl⟩
  · intro h
    rw [isReadable, List.all_eq_true]
    intro cat _
    rw [parseSection]
    cases hv : root.get cat.name with
    | none => rfl
    | some v =>
      obtain ⟨m, rfl⟩ := h cat v hv
      rfl

theorem readable_iff_sectionsAreMappings (hdecode : SameDecoder validator env) {doc : Document}
    (hdoc : validator.decode a = .ok (some doc)) :
    (∃ d, env.unmarshal (textBytes a) = .ok d ∧ isReadable (rootOf d) = true) ↔
      SectionsAreMappings validator.decode a := by
  have huniq : ∀ d, env.unmarshal (textBytes a) = .ok d ↔ d = some doc := by
    intro d
    rw [hdecode a, hdoc, Except.ok.injEq, eq_comm]
  simp only [huniq, exists_eq_left, rootOf, isReadable_iff, SectionsAreMappings, hdoc,
    Except.ok.injEq, Option.some.injEq, forall_eq']

/-- Two accepted configs have a diff exactly when each section of components they have is a mapping.
Then the risk score of a push is that of the comparison. -/
theorem accepted_configs_diffed (hdecode : SameDecoder validator env)
    (ha : (Validator.validate validator a none).valid = true)
    (hb : (Validator.validate validator b none).valid = true) :
    ((compare env (textBytes a) (textBytes b)).valid = true ↔
        SectionsAreMappings validator.decode a ∧ SectionsAreMappings validator.decode b) ∧
      ((compare env (textBytes a) (textBytes b)).valid = true →
        ∃ da db, validator.decode a = .ok (some da) ∧ validator.decode b = .ok (some db) ∧
          ∀ targets, planRiskScore env a b targets =
            buildRiskScore (runEngine env (parseGraph da.root) (parseGraph db.root)).overallRisk
              (runEngine env (parseGraph da.root) (parseGraph db.root)).riskItems targets) := by
  obtain ⟨da, hda⟩ := exists_document ha
  obtain ⟨db, hdb⟩ := exists_document hb
  refine ⟨?_, fun hvalid => ⟨da, db, hda, hdb, fun targets => ?_⟩⟩
  · rw [compare, valid_compareWithContext_iff, readable_iff_sectionsAreMappings hdecode hda,
      readable_iff_sectionsAreMappings hdecode hdb]
  · rw [planRiskScore, compare, compareWithContext_of_valid ((hdecode a).trans hda)
      ((hdecode b).trans hdb) hvalid]
    rfl

section Sample

/-- A pipeline with one exporter, or with two; no processor is defined. -/
def sectionRoot (processors : Option Value) (exporters : List String) : Fields :=
  .ofList ([("exporters", .obj (.ofList (exporters.map fun id => (id, .null))))] ++
    (processors.map fun v => ("processors", v)).toList ++
    [("receivers", .obj (.ofList [("otlp", .null)])),
      ("service", .obj (.ofList [("pipelines", .obj (.ofList [("traces", .obj (.ofList
        [("exporters", .list (.ofList (exporters.map .str))),
          ("receivers", .list (.ofList [.str "otlp"]))]))]))]))])

def sectionText (processors : String) (exporters : String) (names : String) : String :=
  "exporters:\n" ++ exporters ++ processors ++ "receivers:\n  otlp:\nservice:\n  pipelines:\n" ++
    "    traces:\n      receivers: [otlp]\n      exporters: [" ++ names ++ "]\n"

def twoExportersText : String :=
  sectionText "processors:\n" "  debug:\n  otlp:\n" "debug, otlp"

def oneExporterText : String := sectionText "processors:\n" "  debug:\n" "debug"

def twoExporters : Document := ⟨sectionRoot (some .null) ["debug", "otlp"], by decide +kernel⟩

def oneExporter : Document := ⟨sectionRoot (some .null) ["debug"], by decide +kernel⟩

def sectionEnvironment : Environment :=
  .knowing twoExportersText oneExporterText twoExporters oneExporter

def sectionValidator : Validator.Environment where
  decode text := sectionEnvironment.unmarshal (textBytes text)
  isPrint := fun c => ' ' ≤ c && c ≤ '~'
  runtimeCheck := fun _ _ => Validator.baseCheck .otelcolRuntime

/-- An empty `processors` section passes the validation, and a push that removes an exporter is
shown without a risk. -/
theorem empty_section_not_diffed :
    SameDecoder sectionValidator sectionEnvironment ∧
      (Validator.validate sectionValidator twoExportersText none).valid = true ∧
      (Validator.validate sectionValidator oneExporterText none).valid = true ∧
      (compare sectionEnvironment (textBytes twoExportersText) (textBytes oneExporterText)).valid =
        false ∧
      (planRiskScore sectionEnvironment twoExportersText oneExporterText 1).severity = .none := by
  refine ⟨fun _ => rfl, ?_⟩
  decide +kernel

def twoPlainText : String := sectionText "" "  debug:\n  otlp:\n" "debug, otlp"

def onePlainText : String := sectionText "" "  debug:\n" "debug"

def twoPlain : Document := ⟨sectionRoot none ["debug", "otlp"], by decide +kernel⟩

def onePlain : Document := ⟨sectionRoot none ["debug"], by decide +kernel⟩

def plainSectionEnvironment : Environment := .knowing twoPlainText onePlainText twoPlain onePlain

def plainSectionValidator : Validator.Environment where
  decode text := plainSectionEnvironment.unmarshal (textBytes text)
  isPrint := fun c => ' ' ≤ c && c ≤ '~'
  runtimeCheck := fun _ _ => Validator.baseCheck .otelcolRuntime

theorem accepted_configs_diffed_plain :
    (compare plainSectionEnvironment (textBytes twoPlainText) (textBytes onePlainText)).valid =
        true ↔
      SectionsAreMappings plainSectionValidator.decode twoPlainText ∧
        SectionsAreMappings plainSectionValidator.decode onePlainText :=
  (accepted_configs_diffed (fun _ => rfl) (by decide +kernel) (by decide +kernel)).1

end Sample

end OtelMagnify.Diff
