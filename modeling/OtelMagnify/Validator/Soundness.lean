import OtelMagnify.Validator.Structure

/-! What a valid config is good for. A pipeline is meant to have receivers and exporters, and an
entry of a pipeline is meant to name a component of the config that the target has; a component
may be a connector, which ends one pipeline and begins another. -/
namespace OtelMagnify.Validator
open Push Server Yaml

/-- Every pipeline has receivers and exporters, and every entry names a defined component whose
type is installed if its category is reported. -/
structure Sound (components : List (String × List String)) (root : Fields) : Prop where
  nonempty : ∀ p ∈ (pipelines root).toList, ∀ section_ ∈ requiredSections,
    ∃ l, p.2.member section_ = some (.list l) ∧ l ≠ .nil
  entry : ∀ list ∈ lists root, ∀ v ∈ elements list.2, ∃ id, v.asString = some id ∧
    id ∈ extractDefined root list.1.category ∧
    ∀ installed ∈ components.lookup list.1.category,
      componentType id ∈ installed.map GoString.ofString

/-- The shape that the checks take for granted: the two sections of a pipeline are lists that are
not empty, and no list of references holds anything but strings. -/
structure WellShaped (root : Fields) : Prop where
  nonempty : ∀ p ∈ (pipelines root).toList, ∀ section_ ∈ requiredSections,
    elements (p.2.member section_) ≠ []
  strings : ∀ list ∈ lists root, ∀ v ∈ elements list.2, v.asString.isSome = true

theorem elements_ne_nil {v : Option Value} :
    elements v ≠ [] ↔ ∃ l, v = some (.list l) ∧ l ≠ .nil := by
  constructor
  · intro h
    unfold elements at h
    split at h
    next l =>
      refine ⟨l, rfl, ?_⟩
      rintro rfl
      exact h rfl
    next => exact absurd rfl h
  · rintro ⟨l, rfl, hne⟩
    cases l with
    | nil => exact absurd rfl hne
    | cons v l => exact List.cons_ne_nil _ _

theorem mem_toStringSlice {v : Value} {list : Option Value} {id : GoString}
    (hv : v ∈ elements list) (hid : v.asString = some id) : id ∈ toStringSlice list :=
  List.mem_filterMap.mpr ⟨v, hv, hid⟩

section Accepted

variable {env : Environment} {content : String} {available : Option AvailableComponents}

/-- A config that is valid is sound exactly if it has the shape that the checks take for
granted. -/
theorem validate_sound_iff (h : (validate env content available).valid = true) :
    Sound (reported available) (env.root content) ↔ WellShaped (env.root content) := by
  obtain ⟨hstructured, hinstalled⟩ := valid_validate_iff.mp h
  constructor
  · intro hsound
    refine ⟨fun p hp section_ hsection => ?_, fun list hlist v hv => ?_⟩
    · exact elements_ne_nil.mpr (hsound.nonempty p hp section_ hsection)
    · obtain ⟨id, hid, -⟩ := hsound.entry list hlist v hv
      rw [hid, Option.isSome_some]
  · intro hshape
    refine ⟨fun p hp section_ hsection => ?_, fun list hlist v hv => ?_⟩
    · exact elements_ne_nil.mp (hshape.nonempty p hp section_ hsection)
    · obtain ⟨id, hid⟩ := Option.isSome_iff_exists.mp (hshape.strings list hlist v hv)
      obtain ⟨r, hr, hplace, rfl⟩ := exists_reference hlist (mem_toStringSlice hv hid)
      rw [← hplace]
      refine ⟨_, hid, hstructured.defined r hr, fun installed hlookup => ?_⟩
      by_contra hmissing
      exact hinstalled r hr ⟨installed, hlookup, hmissing⟩

end Accepted

section Empty

/-- A pipeline whose sections are there and hold nothing. -/
def emptyText : String :=
  "service:\n  pipelines:\n    traces:\n      exporters: []\n      receivers:\n"

def emptyDocument : Document where
  root := .ofList
    [("service", .obj (.ofList
      [("pipelines", .obj (.ofList
        [("traces", .obj (.ofList
          [("exporters", .list .nil), ("receivers", .null)]))]))]))]
  ordered := by decide +kernel

/-- A target that has what the pipeline of the sample needs. -/
def pipelineComponents : AvailableComponents where
  components := [("exporters", ["debug", "otlp"]), ("receivers", ["otlp"])]
  hash := ""

theorem validate_pipeline_sound :
    (validate pipelineEnvironment pipelineText (some pipelineComponents)).valid = true ∧
      Sound (reported (some pipelineComponents)) (pipelineEnvironment.root pipelineText) := by
  have hvalid : (validate pipelineEnvironment pipelineText (some pipelineComponents)).valid =
      true := by decide +kernel
  refine ⟨hvalid, (validate_sound_iff hvalid).mpr ⟨?_, ?_⟩⟩
  · decide +kernel
  · decide +kernel

theorem validate_empty_pipeline :
    (validate (decodesOnly emptyText emptyDocument) emptyText none).valid = true ∧
      ¬Sound (reported none) ((decodesOnly emptyText emptyDocument).root emptyText) := by
  refine ⟨valid_validate_iff.mpr ?_, fun hsound => ?_⟩
  · rw [root_decodesOnly]
    refine ⟨⟨by decide, by decide +kernel, by decide +kernel⟩, fun r _ => not_isMissing_nil⟩
  · rw [root_decodesOnly] at hsound
    obtain ⟨l, hl, -⟩ := hsound.nonempty ("traces", _) (List.mem_singleton.mpr rfl) "receivers"
      (by decide)
    cases hl

end Empty

section Connectors

/-- The entry is defined in its own section or is a connector. -/
def DefinedOrConnector (root : Fields) (section_ : String) (id : GoString) : Prop :=
  id ∈ extractDefined root section_ ∨ id ∈ extractDefined root "connectors"

instance (root : Fields) (section_ : String) (id : GoString) :
    Decidable (DefinedOrConnector root section_ id) :=
  inferInstanceAs (Decidable (_ ∨ _))

/-- A config as a Collector takes it: the receivers and exporters of each pipeline are lists of
strings that are not empty, each of them is defined in its own section or is a connector, and each
processor and extension is defined in its own section. -/
structure UsesConnectors (root : Fields) : Prop where
  nonempty : ∀ p ∈ (pipelines root).toList, ∀ section_ ∈ requiredSections,
    elements (p.2.member section_) ≠ [] ∧
      ∀ v ∈ elements (p.2.member section_), v.asString.isSome = true
  endpoint : ∀ p ∈ (pipelines root).toList, ∀ section_ ∈ requiredSections,
    ∀ id ∈ toStringSlice (p.2.member section_), DefinedOrConnector root section_ id
  processor : ∀ p ∈ (pipelines root).toList, ∀ id ∈ toStringSlice (p.2.member "processors"),
    id ∈ extractDefined root "processors"
  extension : ∀ id ∈ toStringSlice ((root.get "service").bind (Value.member · "extensions")),
    id ∈ extractDefined root "extensions"

/-- Each receiver and each exporter of a pipeline is defined in its own section. -/
def OwnSections (root : Fields) : Prop :=
  ∀ p ∈ (pipelines root).toList, ∀ section_ ∈ requiredSections,
    ∀ id ∈ toStringSlice (p.2.member section_), id ∈ extractDefined root section_

theorem mem_pipelineSections {section_ : String} :
    section_ ∈ pipelineSections ↔ section_ ∈ requiredSections ∨ section_ = "processors" := by
  simp only [pipelineSections, requiredSections, List.mem_cons, List.not_mem_nil, or_false]
  tauto

theorem UsesConnectors.structured_iff {root : Fields} (h : UsesConnectors root) :
    Structured root ↔ pipelines root ≠ .nil ∧ OwnSections root := by
  constructor
  · intro hstructured
    refine ⟨hstructured.nonempty, fun p hp section_ hsection => ?_⟩
    exact defined_iff.mp hstructured.defined _
      (mem_lists_pipeline hp (mem_pipelineSections.mpr (.inl hsection)))
  · rintro ⟨hne, hown⟩
    refine ⟨hne, fun p hp section_ hsection => ?_, defined_iff.mpr fun list hlist => ?_⟩
    · obtain ⟨l, hl, -⟩ := elements_ne_nil.mp (h.nonempty p hp section_ hsection).1
      rw [hl, Option.isSome_some]
    · rcases List.mem_append.mp hlist with hlist | hlist
      · obtain ⟨p, hp, hlist⟩ := List.mem_flatMap.mp hlist
        obtain ⟨section_, hsection, rfl⟩ := List.mem_map.mp hlist
        rcases mem_pipelineSections.mp hsection with hsection | rfl
        · exact hown p hp section_ hsection
        · exact h.processor p hp
      · cases List.mem_singleton.mp hlist
        exact h.extension

/-- Without a report such a config is valid exactly if it has a pipeline and none of its pipelines
names a connector. -/
theorem validate_connectors_iff {env : Environment} {content : String}
    (h : UsesConnectors (env.root content)) :
    (validate env content none).valid = true ↔
      pipelines (env.root content) ≠ .nil ∧ OwnSections (env.root content) := by
  rw [← h.structured_iff, valid_validate_iff, and_iff_left]
  exact fun r _ => not_isMissing_nil

theorem validate_own_sections :
    UsesConnectors (pipelineEnvironment.root pipelineText) ∧
      (validate pipelineEnvironment pipelineText none).valid = true := by
  have h : UsesConnectors (pipelineEnvironment.root pipelineText) := by
    refine ⟨?_, ?_, ?_, ?_⟩ <;> decide +kernel
  refine ⟨h, (validate_connectors_iff h).mpr ⟨?_, ?_⟩⟩
  · decide +kernel
  · unfold OwnSections
    decide +kernel

def forwardText : String :=
  "connectors:\n  forward:\nexporters:\n  debug:\nreceivers:\n  otlp:\nservice:\n  pipelines:\n" ++
    "    traces/in:\n      exporters: [forward]\n      receivers: [otlp]\n" ++
    "    traces/out:\n      exporters: [debug]\n      receivers: [forward]\n"

/-- The `forward` connector between two pipelines. -/
def forwardDocument : Document where
  root := .ofList
    [("connectors", .obj (.ofList [("forward", .null)])),
      ("exporters", .obj (.ofList [("debug", .null)])),
      ("receivers", .obj (.ofList [("otlp", .null)])),
      ("service", .obj (.ofList
        [("pipelines", .obj (.ofList
          [("traces/in", .obj (.ofList
            [("exporters", .list (.ofList [.str "forward"])),
              ("receivers", .list (.ofList [.str "otlp"]))])),
            ("traces/out", .obj (.ofList
              [("exporters", .list (.ofList [.str "debug"])),
                ("receivers", .list (.ofList [.str "forward"]))]))]))]))]
  ordered := by decide +kernel

theorem validate_forward_connector :
    UsesConnectors ((decodesOnly forwardText forwardDocument).root forwardText) ∧
      (validate (decodesOnly forwardText forwardDocument) forwardText none).valid = false := by
  refine ⟨?_, Bool.eq_false_iff.mpr fun hvalid => ?_⟩
  · rw [root_decodesOnly]
    refine ⟨?_, ?_, ?_, ?_⟩ <;> decide +kernel
  · have hdefined := (valid_validate_iff.mp hvalid).1.defined
    rw [root_decodesOnly] at hdefined
    revert hdefined
    decide +kernel

end Connectors

end OtelMagnify.Validator
