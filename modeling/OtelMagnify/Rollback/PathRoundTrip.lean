import OtelMagnify.Rollback.ValidationPath
import OtelMagnify.Validator.Coherence

/-! When the path of a validation error leads back to the component that the error is about. The
validator numbers the strings of a list and puts the name of the pipeline into the path as it is;
the guided rollback takes the number for a place in the whole list and reads dots and brackets in
the name as steps. -/
namespace OtelMagnify.Validator
open Push Server Yaml GoText

variable {i : ℕ} {list : Place × Option Value}

section Gaps

variable {α β : Type} {f : α → Option β} {l : List α}

theorem getElem?_filterMap_of_no_gap (h : ∀ k ≤ i, (l[k]?.bind f).isSome = true) :
    (l.filterMap f)[i]? = l[i]?.bind f := by
  induction l generalizing i with
  | nil => simp
  | cons a l ih =>
    obtain ⟨b, hb⟩ := Option.isSome_iff_exists.mp (h 0 (Nat.zero_le i))
    have hb : f a = some b := by simpa using hb
    rw [List.filterMap_cons_some hb]
    cases i with
    | zero => simp [hb]
    | succ i => exact ih fun k hk => by simpa using h (k + 1) (Nat.succ_le_succ hk)

theorem length_filterMap_of_no_gap {k : ℕ} (hk : k ≤ l.length)
    (h : ∀ m < k, (l[m]?.bind f).isSome = true) : ((l.take k).filterMap f).length = k := by
  have hlength : (l.take k).length = k := List.length_take_of_le hk
  refine le_antisymm ((List.length_filterMap_le _ _).trans hlength.le) (not_lt.mp fun hlt => ?_)
  obtain ⟨x, hx, hnone⟩ := List.length_filterMap_lt_length_iff_exists.mp (hlt.trans_eq hlength.symm)
  obtain ⟨m, hm, rfl⟩ := List.getElem_of_mem hx
  rw [hlength] at hm
  have hsome := h m hm
  rw [List.getElem?_eq_getElem (hm.trans_le hk), Option.bind_some] at hsome
  rw [List.getElem_take] at hnone
  rw [hnone] at hsome
  cases hsome

/-- An element that stands at an index behind a gap is in the filtered list further to the front,
but not before the gap. -/
theorem exists_earlier_of_gap {k : ℕ} {b : β} (hi : l[i]?.bind f = some b) (hki : k ≤ i)
    (hk : (l[k]?.bind f).isSome ≠ true) (hmin : ∀ m < k, (l[m]?.bind f).isSome = true) :
    ∃ j < i, k ≤ j ∧ (l.filterMap f)[j]? = some b := by
  obtain ⟨a, ha, hfa⟩ := Option.bind_eq_some_iff.mp hi
  obtain ⟨hlt, rfl⟩ := List.getElem?_eq_some_iff.mp ha
  have hklt : k < i := by
    refine lt_of_le_of_ne hki fun heq => hk ?_
    rw [heq, hi, Option.isSome_some]
  have hlength : (l.take i).length = i := List.length_take_of_le hlt.le
  refine ⟨((l.take i).filterMap f).length, ?_, ?_, ?_⟩
  · have hgap : ∃ x ∈ l.take i, f x = none := by
      have hk' : k < l.length := hklt.trans hlt
      refine ⟨l[k], List.mem_take_iff_getElem.mpr ⟨k, by omega, rfl⟩, ?_⟩
      rw [List.getElem?_eq_getElem hk', Option.bind_some] at hk
      simpa using hk
    calc ((l.take i).filterMap f).length < (l.take i).length :=
          List.length_filterMap_lt_length_iff_exists.mpr (by simpa using hgap)
      _ = i := hlength
  · have hprefix : (l.take k).filterMap f <+: (l.take i).filterMap f :=
      (List.take_prefix_take_left hki).filterMap f
    calc k = ((l.take k).filterMap f).length :=
          (length_filterMap_of_no_gap (hklt.trans hlt).le hmin).symm
      _ ≤ ((l.take i).filterMap f).length := hprefix.length_le
  · have hsplit : l = l.take i ++ l[i] :: l.drop (i + 1) := by
      rw [List.getElem_cons_drop, List.take_append_drop]
    have hfilter : l.filterMap f =
        (l.take i).filterMap f ++ b :: (l.drop (i + 1)).filterMap f := by
      conv_lhs => rw [hsplit]
      rw [List.filterMap_append, List.filterMap_cons_some hfa]
    rw [hfilter, List.getElem?_append_right le_rfl]
    simp

theorem filterMap_in_place_iff {P : β → Prop} :
    (∀ (i : ℕ) b, (l.filterMap f)[i]? = some b → P b → l[i]?.bind f = some b) ↔
      ∀ (i : ℕ) b, (l.filterMap f)[i]? = some b → P b → ∀ k ≤ i, (l[k]?.bind f).isSome = true := by
  classical
  constructor
  · intro h i
    induction i using Nat.strong_induction_on with
    | _ i ih =>
      intro b hb hP
      by_contra hgap
      push Not at hgap
      obtain ⟨hki, hk⟩ := Nat.find_spec hgap
      have hmin (m : ℕ) (hm : m < Nat.find hgap) : (l[m]?.bind f).isSome = true := by
        have hnot := Nat.find_min hgap hm
        push Not at hnot
        exact hnot (hm.le.trans hki)
      obtain ⟨j, hj, hkj, hb'⟩ := exists_earlier_of_gap (h i b hb hP) hki hk hmin
      exact hk (ih j hj b hb' hP _ hkj)
  · intro h i b hb hP
    rw [← getElem?_filterMap_of_no_gap (h i b hb hP), hb]

end Gaps

section Reading

variable {env : Environment} {content : String}

theorem foldlM_singleton (v : Value) (part : String) :
    [part].foldlM walkPart v = walkPart v part := by
  rw [List.foldlM_cons]
  exact bind_pure _

theorem componentID_pipeline (h : Structured (env.root content)) {section_ : String}
    (hsection : section_ ∈ pipelineSections) (name : String) (i : ℕ) :
    componentIDFromValidationPath env content (indexed (Place.pipeline name section_).path i) =
      entryID (elements ((reached (env.root content) name).bind (Value.member · section_))) i := by
  obtain ⟨doc, hdecode, -⟩ := exists_decode_of_structured h
  rw [componentIDFromValidationPath, hdecode]
  dsimp only
  rw [split_path_pipeline hsection, foldlM_service h.nonempty, List.foldlM_append, ← reached]
  cases reached (env.root content) name with
  | none => rfl
  | some v =>
    rw [Option.bind_eq_bind, Option.bind_some, foldlM_singleton,
      walkPart_indexed (dot_bracket_not_mem_section hsection).2]
    rfl

theorem componentID_extensions (h : Structured (env.root content)) (i : ℕ) :
    componentIDFromValidationPath env content (indexed Place.extensions.path i) =
      entryID (elements (((env.root content).get "service").bind
        (Value.member · "extensions"))) i := by
  obtain ⟨doc, hdecode, -⟩ := exists_decode_of_structured h
  rw [componentIDFromValidationPath, hdecode]
  dsimp only
  have hservice : walkPart (.obj (env.root content)) "service" =
      some (((env.root content).get "service").getD .null) := walkPart_plain (by decide) _
  rw [split_path_extensions, List.foldlM_cons, hservice, Option.bind_eq_bind, Option.bind_some,
    foldlM_singleton, walkPart_indexed (by decide)]
  cases (env.root content).get "service" <;> rfl

/-- The name is one part, without an index. -/
def IsPlain (name : String) : Prop := '.' ∉ name.toList ∧ isIndexed name = false

instance (name : String) : Decidable (IsPlain name) := inferInstanceAs (Decidable (_ ∧ _))

theorem reached_of_plain {name : String} (h : IsPlain name) (root : Fields) :
    reached root name = some (((pipelines root).get name).getD .null) := by
  rw [reached, split_eq_singleton h.1, List.foldlM_cons, walkPart_plain h.2]
  rfl

theorem isOrdered_pipelines (h : Structured (env.root content)) :
    (pipelines (env.root content)).isOrdered = true := by
  obtain ⟨doc, hdecode, hroot⟩ := exists_decode_of_structured h
  rw [hroot, pipelines]
  have hordered := doc.ordered
  cases hget : doc.root.get "service" with
  | none => rfl
  | some service =>
    have hservice := Fields.isOrdered_of_get hordered hget
    rw [Option.bind_some, Value.member]
    cases hmap : service.asMap with
    | none => rfl
    | some m =>
      cases Value.eq_obj hmap
      rw [Option.bind_some]
      cases hmember : m.get "pipelines" with
      | none => rfl
      | some v =>
        have hv := Fields.isOrdered_of_get hservice hmember
        rw [Option.bind_some]
        cases hps : v.asMap with
        | none => rfl
        | some ps =>
          cases Value.eq_obj hps
          exact hv

/-- On a place whose path is one step for each of its names, the entry of the list is read. -/
theorem componentID_of_plain (h : Structured (env.root content))
    (hlist : list ∈ lists (env.root content))
    (hplain : ∀ name section_, list.1 = .pipeline name section_ → IsPlain name) (i : ℕ) :
    componentIDFromValidationPath env content (indexed list.1.path i) =
      entryID (elements list.2) i := by
  rcases List.mem_append.mp hlist with hlist | hlist
  · obtain ⟨p, hp, hlist⟩ := List.mem_flatMap.mp hlist
    obtain ⟨section_, hsection, rfl⟩ := List.mem_map.mp hlist
    have hget : (pipelines (env.root content)).get p.1 = some p.2 :=
      (Fields.get_eq_some_iff (isOrdered_pipelines h)).mpr hp
    rw [componentID_pipeline h hsection, reached_of_plain (hplain _ _ rfl), hget]
    rfl
  · cases List.mem_singleton.mp hlist
    exact componentID_extensions h i

end Reading

section Errors

variable {env : Environment} {content : String} {available : Option AvailableComponents}

/-- The error says that the type of the reference is not installed. -/
def IsAbout (isPrint : Char → Bool) (components : List (String × List String)) (e : Error)
    (r : Reference) : Prop :=
  ∃ installed ∈ components.lookup r.place.category,
    componentType r.id ∉ installed.map GoString.ofString ∧
      e = { code := "component_not_installed"
            message := (notInstalled isPrint installed r.toComponentRef).message
            path := indexed r.place.path r.index
            checkID := .componentAvailability }

theorem mem_errors_iff {check : Check} {e : Error} :
    e ∈ check.errors ↔ ∃ msg ∈ check.messages, msg.severity = .error ∧
      e = { code := msg.code, message := msg.message, path := msg.path, checkID := check.id } := by
  simp only [Check.errors, List.mem_map, List.mem_filter, decide_eq_true_eq]
  constructor
  · rintro ⟨msg, ⟨hmsg, herror⟩, rfl⟩
    exact ⟨msg, hmsg, herror, rfl⟩
  · rintro ⟨msg, hmsg, herror, rfl⟩
    exact ⟨msg, ⟨hmsg, herror⟩, rfl⟩

/-- The check carries the messages of its loop as far as they are errors. -/
theorem mem_messages_availability {isPrint : Char → Bool} {refs : List ComponentRef} {msg : Message}
    (herror : msg.severity = .error) :
    msg ∈ (validateComponentAvailability isPrint refs available).messages ↔
      msg ∈ availabilityMessages isPrint (reported available) [] refs := by
  unfold validateComponentAvailability
  dsimp only
  rw [← reported]
  split
  next hnil =>
    rw [hnil, mem_availabilityMessages_iff herror]
    constructor
    · intro hmem
      cases List.mem_singleton.mp hmem
      cases herror
    · rintro ⟨ref, -, installed, hinstalled, -⟩
      cases hinstalled
  next =>
    dsimp only
    split
    next hpassed =>
      constructor
      · intro hmem
        cases List.mem_singleton.mp hmem
        cases herror
      · intro hmem
        rw [severity_of_statusWithWarnings hpassed msg hmem] at herror
        cases herror
    next => exact Iff.rfl

theorem errors_structureResult (content : String) (opts : RuntimeOptions) (check : Check) :
    (structureResult content opts check).errors = check.errors := by
  simp [structureResult, Result.collect, parsedCheck, Check.errors]

/-- The errors of a document with a good structure are those about references. -/
theorem mem_errors_validate (h : Structured (env.root content)) {e : Error} :
    e ∈ (validate env content available).errors ↔
      ∃ r ∈ references (env.root content), IsAbout env.isPrint (reported available) e r := by
  obtain ⟨doc, hdecode, hroot⟩ := exists_decode_of_structured h
  rw [hroot] at h ⊢
  obtain ⟨check, refs, heq, -, -, hcoherent, hspec⟩ :=
    validateCollectorStructure_spec env.isPrint doc.root
  obtain ⟨-, hpassed, rfl⟩ := hspec.resolve_right fun hs => hs.1 h
  have hne : check.status ≠ .failed := by rw [hpassed]; decide
  have hnone : check.errors = [] := Check.errors_eq_nil.mpr fun herror => hne (hcoherent.mpr herror)
  have herrors : (validate env content available).errors =
      (validateComponentAvailability env.isPrint
        ((references doc.root).map Reference.toComponentRef) available).errors := by
    rw [errors_validate, validateStatic_eq hdecode heq, if_neg hne]
    simp only [Result.collect, errors_structureResult, hnone, errors_version_empty,
      List.nil_append, List.append_nil]
  obtain ⟨availability, havailability, hid, -⟩ := validateComponentAvailability_spec env.isPrint
    ((references doc.root).map Reference.toComponentRef) available
  rw [herrors, mem_errors_iff, havailability, hid, ← havailability]
  constructor
  · rintro ⟨msg, hmsg, herror, rfl⟩
    rw [mem_messages_availability herror, mem_availabilityMessages_iff herror] at hmsg
    obtain ⟨ref, href, installed, hinstalled, hmissing, rfl⟩ := hmsg
    obtain ⟨r, hr, rfl⟩ := List.mem_map.mp href
    exact ⟨r, hr, installed, hinstalled, hmissing, rfl⟩
  · rintro ⟨r, hr, installed, hinstalled, hmissing, rfl⟩
    refine ⟨notInstalled env.isPrint installed r.toComponentRef, ?_, rfl, rfl⟩
    rw [mem_messages_availability rfl, mem_availabilityMessages_iff rfl]
    exact ⟨_, List.mem_map_of_mem hr, installed, hinstalled, hmissing, rfl⟩

theorem checkID_of_not_structured (h : ¬Structured (env.root content)) :
    ∀ e ∈ (validate env content available).errors, e.checkID ≠ .componentAvailability := by
  rw [errors_validate]
  cases hdecode : env.decode content with
  | error text => simp [validateStatic, hdecode, notParsed, appendSkippedDependents]
  | ok decoded =>
    cases decoded with
    | none => simp [validateStatic, hdecode, notParsed, appendSkippedDependents]
    | some doc =>
      have hroot : env.root content = doc.root := by rw [Environment.root, hdecode]
      rw [hroot] at h
      obtain ⟨check, refs, heq, hid, -, -, hspec⟩ :=
        validateCollectorStructure_spec env.isPrint doc.root
      obtain ⟨-, hfailed⟩ := hspec.resolve_left fun hs => h hs.1
      rw [validateStatic_eq hdecode heq, if_pos hfailed]
      simp only [Result.collect, appendSkippedDependents, errors_structureResult,
        errors_version_empty, List.append_nil]
      intro e he
      obtain ⟨msg, -, -, rfl⟩ := mem_errors_iff.mp he
      intro heq
      cases hid.symm.trans heq

end Errors

section RoundTrip

/-- Up to the number of the reference the list holds strings only. An empty id is read from
whatever holds no other. -/
def InPlace (l : List Value) (r : Reference) : Prop :=
  if r.id = [] then entryID l r.index = []
  else ∀ k ≤ r.index, (l[k]?.bind Value.asString).isSome = true

/-- The reference can be read back from its path. The name of its pipeline does not spell a
category that is looked for first; if the name is one part, the list has no gap before the
reference, and if it is not, what its parts lead to has the same id at the same number. -/
def Legible (root : Fields) (list : Place × Option Value) (r : Reference) : Prop :=
  match list.1 with
  | .pipeline name section_ =>
    (∀ k ∈ earlierCategories section_, ¬SpellsCategory name k) ∧
      if IsPlain name then InPlace (elements list.2) r
      else entryID (elements ((reached root name).bind (Value.member · section_))) r.index = r.id
  | .extensions => InPlace (elements list.2) r

instance (l : List Value) (r : Reference) : Decidable (InPlace l r) :=
  inferInstanceAs (Decidable (if r.id = [] then _ else _))

instance (root : Fields) (list : Place × Option Value) (r : Reference) :
    Decidable (Legible root list r) :=
  match list with
  | (.pipeline name section_, v) => inferInstanceAs (Decidable
    ((∀ k ∈ earlierCategories section_, ¬SpellsCategory name k) ∧
      if IsPlain name then InPlace (elements v) r
      else entryID (elements ((reached root name).bind (Value.member · section_))) r.index = r.id))
  | (.extensions, _) => inferInstanceAs (Decidable (InPlace _ _))

theorem entryID_eq_iff {l : List Value} {id : GoString} (hne : id ≠ []) :
    entryID l i = id ↔ l[i]?.bind Value.asString = some id := by
  rw [entryID]
  cases l[i]?.bind Value.asString with
  | none => simpa using hne.symm
  | some s => simp

/-- In a list whose entries are read by their numbers, the ones of interest are all read as
themselves exactly if they are all in place. -/
theorem forall_inPlace_iff {P : GoString → Prop} :
    (∀ r ∈ referencesAt list, P r.id → entryID (elements list.2) r.index = r.id) ↔
      ∀ r ∈ referencesAt list, P r.id → InPlace (elements list.2) r := by
  have hmem {i : ℕ} {id : GoString} (h : (toStringSlice list.2)[i]? = some id) :
      ⟨list.1, i, id⟩ ∈ referencesAt list := by
    obtain ⟨hi, rfl⟩ := List.getElem?_eq_some_iff.mp h
    exact List.mem_mapIdx.mpr ⟨i, hi, rfl⟩
  have hgaps := @filterMap_in_place_iff _ _ Value.asString (elements list.2)
    fun id => P id ∧ id ≠ []
  constructor
  · intro h r hr hP
    rw [InPlace]
    split
    next hempty => rw [h r hr hP, hempty]
    next hne =>
      refine hgaps.mp (fun i id hid ⟨hPid, hidne⟩ => ?_) r.index r.id (mem_referencesAt hr).2
        ⟨hP, hne⟩
      exact (entryID_eq_iff hidne).mp (h _ (hmem hid) hPid)
  · intro h r hr hP
    by_cases hempty : r.id = []
    · have hplace := h r hr hP
      rw [InPlace, if_pos hempty] at hplace
      rw [hplace, hempty]
    · rw [entryID_eq_iff hempty]
      refine hgaps.mpr (fun i id hid ⟨hPid, hidne⟩ => ?_) r.index r.id (mem_referencesAt hr).2
        ⟨hP, hempty⟩
      have hplace := h _ (hmem hid) hPid
      rwa [InPlace, if_neg hidne] at hplace

variable {env : Environment} {content : String} {available : Option AvailableComponents}

/-- The references of one list. -/
theorem forall_legible_iff (h : Structured (env.root content))
    (hlist : list ∈ lists (env.root content)) {P : GoString → Prop} :
    (∀ r ∈ referencesAt list, P r.id →
      componentIDFromValidationPath env content (indexed list.1.path r.index) = r.id ∧
        categoryFromValidationPath (indexed list.1.path r.index) = list.1.category) ↔
      ∀ r ∈ referencesAt list, P r.id → Legible (env.root content) list r := by
  rcases List.mem_append.mp hlist with hpipeline | hextensions
  · obtain ⟨⟨name, v⟩, hp, hmem⟩ := List.mem_flatMap.mp hpipeline
    obtain ⟨section_, hsection, rfl⟩ := List.mem_map.mp hmem
    dsimp only at hlist ⊢
    have hcategory (i : ℕ) := category_pipeline_iff hsection name i
    by_cases hplain : IsPlain name
    · have hread := componentID_of_plain h hlist (by
        rintro _ _ ⟨⟩
        exact hplain)
      simp only [Legible, hplain, if_true, Place.category, hcategory, hread]
      constructor
      · intro hall
        have hplace := forall_inPlace_iff.mp fun r hr hP => (hall r hr hP).1
        exact fun r hr hP => ⟨(hall r hr hP).2, hplace r hr hP⟩
      · intro hall
        have hread := forall_inPlace_iff.mpr fun r hr hP => (hall r hr hP).2
        exact fun r hr hP => ⟨hread r hr hP, (hall r hr hP).1⟩
    · simp only [Legible, hplain, if_false, Place.category, hcategory,
        componentID_pipeline h hsection]
      exact forall₃_congr fun r hr hP => and_comm
  · cases List.mem_singleton.mp hextensions
    have hread := componentID_of_plain h hlist (by rintro _ _ ⟨⟩)
    simp only [Legible, Place.category, category_extensions, and_true, hread]
    exact forall_inPlace_iff

/-- Every error about a component that is not installed is read back as that component, exactly if
in a document with a good structure each reference to such a component is legible. -/
theorem paths_round_trip_iff :
    (∀ e ∈ (validate env content available).errors, ∀ r ∈ references (env.root content),
      IsAbout env.isPrint (reported available) e r →
        componentIDFromValidationPath env content e.path = r.id ∧
          categoryFromValidationPath e.path = r.place.category) ↔
      (Structured (env.root content) →
        ∀ list ∈ lists (env.root content), ∀ r ∈ referencesAt list,
          IsMissing (reported available) list.1.category r.id →
            Legible (env.root content) list r) := by
  constructor
  · intro hall hstructured list hlist
    refine (forall_legible_iff hstructured hlist).mp fun r hr hmissing => ?_
    have hplace := (mem_referencesAt hr).1
    have hmem : r ∈ references (env.root content) := List.mem_flatMap.mpr ⟨list, hlist, hr⟩
    rw [← hplace] at hmissing ⊢
    obtain ⟨installed, hinstalled, hnot⟩ := hmissing
    have habout : IsAbout env.isPrint (reported available) _ r :=
      ⟨installed, hinstalled, hnot, rfl⟩
    exact hall _ ((mem_errors_validate hstructured).mpr ⟨r, hmem, habout⟩) r hmem habout
  · intro hlegible e he r hr habout
    have hstructured : Structured (env.root content) := by
      by_contra hnot
      obtain ⟨_, _, _, rfl⟩ := habout
      exact checkID_of_not_structured hnot _ he rfl
    obtain ⟨installed, hinstalled, hnot, rfl⟩ := habout
    obtain ⟨list, hlist, hr⟩ := List.mem_flatMap.mp hr
    have hplace := (mem_referencesAt hr).1
    rw [hplace] at hinstalled ⊢
    exact (forall_legible_iff hstructured hlist).mpr (hlegible hstructured list hlist) r hr
      ⟨installed, hinstalled, hnot⟩

end RoundTrip

section Sample

theorem debug_read_back :
    componentIDFromValidationPath pipelineEnvironment pipelineText
        "service.pipelines.traces.exporters[0]" = .ofString "debug" ∧
      categoryFromValidationPath "service.pipelines.traces.exporters[0]" = "exporters" := by
  have hlegible : ∀ list ∈ lists (pipelineEnvironment.root pipelineText), ∀ r ∈ referencesAt list,
      IsMissing (reported (some (withoutDebug [("receivers", ["otlp"])]))) list.1.category r.id →
        Legible (pipelineEnvironment.root pipelineText) list r := by decide +kernel
  have hr : ⟨.pipeline "traces" "exporters", 0, .ofString "debug"⟩ ∈
      references (pipelineEnvironment.root pipelineText) := by decide +kernel
  have he : { code := "component_not_installed"
              message := "exporter type \"debug\" is not installed on the target workload " ++
                "(available: otlp)"
              path := "service.pipelines.traces.exporters[0]"
              checkID := .componentAvailability } ∈
      (validate pipelineEnvironment pipelineText
        (some (withoutDebug [("receivers", ["otlp"])]))).errors := by decide +kernel
  exact paths_round_trip_iff.mpr (fun _ => hlegible) _ he _ hr
    ⟨["otlp"], by decide +kernel, by decide +kernel, by decide +kernel⟩

def gapText : String := onePipelineText "traces" "1, debug"

/-- A list of exporters that begins with a number. -/
def gapDocument : Document := ⟨onePipelineRoot "traces" [.int 1, .str "debug"], by decide +kernel⟩

def dottedText : String := onePipelineText "traces.receivers" "debug"

/-- A pipeline whose name has a dot and spells a category. -/
def dottedDocument : Document :=
  ⟨onePipelineRoot "traces.receivers" [.str "debug"], by decide +kernel⟩

theorem debug_not_read_back :
    (validate (decodesOnly gapText gapDocument) gapText
        (some (withoutDebug [("receivers", ["otlp"])]))).errors.map Error.path =
      ["service.pipelines.traces.exporters[0]"] ∧
    references gapDocument.root =
      [⟨.pipeline "traces" "receivers", 0, .ofString "otlp"⟩,
        ⟨.pipeline "traces" "exporters", 0, .ofString "debug"⟩] ∧
    componentIDFromValidationPath (decodesOnly gapText gapDocument) gapText
      "service.pipelines.traces.exporters[0]" = .ofString "" ∧
    (validate (decodesOnly dottedText dottedDocument) dottedText
        (some (withoutDebug [("receivers", ["otlp"])]))).errors.map Error.path =
      ["service.pipelines.traces.receivers.exporters[0]"] ∧
    componentIDFromValidationPath (decodesOnly dottedText dottedDocument) dottedText
      "service.pipelines.traces.receivers.exporters[0]" = .ofString "" ∧
    categoryFromValidationPath "service.pipelines.traces.receivers.exporters[0]" = "receivers" := by
  decide +kernel

end Sample

end OtelMagnify.Validator
