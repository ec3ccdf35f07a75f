import OtelMagnify.Validator.Static

/-! What the structure check asks of a document, and the references that it hands to the
availability check; what that check asks of them; and from the two, what makes a config valid. -/
namespace OtelMagnify.Validator
open Push Server Yaml

/-- The mapping that the checks read, empty for a text that is no config. -/
def Environment.root (env : Environment) (content : String) : Fields :=
  match env.decode content with
  | .ok (some doc) => doc.root
  | _ => .nil

def pipelines (root : Fields) : Fields :=
  (((root.get "service").bind (Value.member · "pipelines")).bind Value.asMap).getD .nil

inductive Place where
  | pipeline (name section_ : String)
  | extensions
  deriving DecidableEq, Repr

namespace Place

/-- The top-level section that the entries of the list refer to. -/
def category : Place → String
  | pipeline _ section_ => section_
  | extensions => "extensions"

def path : Place → String
  | pipeline name section_ => "service.pipelines." ++ name ++ "." ++ section_
  | extensions => "service.extensions"

end Place

def pipelineSections : List String := ["receivers", "processors", "exporters"]

def requiredSections : List String := ["receivers", "exporters"]

/-- The lists of references in the order of the check, each with what stands there. -/
def lists (root : Fields) : List (Place × Option Value) :=
  ((pipelines root).toList.flatMap fun p =>
    pipelineSections.map fun section_ => (.pipeline p.1 section_, p.2.member section_)) ++
  [(.extensions, (root.get "service").bind (Value.member · "extensions"))]

structure Reference where
  place : Place
  index : ℕ
  id : GoString
  deriving DecidableEq, Repr

def Reference.toComponentRef (r : Reference) : ComponentRef where
  category := r.place.category
  id := r.id
  path := r.place.path ++ "[" ++ toString r.index ++ "]"

def referencesAt (list : Place × Option Value) : List Reference :=
  (toStringSlice list.2).mapIdx fun index id => { place := list.1, index, id }

def references (root : Fields) : List Reference := (lists root).flatMap referencesAt

/-- What the structure check asks of a document: a pipeline, in each of them the two sections that
it must have, and a definition for each reference. -/
structure Structured (root : Fields) : Prop where
  nonempty : pipelines root ≠ .nil
  present : ∀ p ∈ (pipelines root).toList, ∀ section_ ∈ requiredSections,
    (p.2.member section_).isSome = true
  defined : ∀ r ∈ references root, r.id ∈ extractDefined root r.place.category

/-- A check has failed exactly if it carries an error. -/
def Check.IsCoherent (check : Check) : Prop :=
  check.status = .failed ↔ ∃ msg ∈ check.messages, msg.severity = .error

theorem Check.errors_eq_nil {check : Check} :
    check.errors = [] ↔ ¬∃ msg ∈ check.messages, msg.severity = .error := by
  simp [Check.errors, List.filter_eq_nil_iff]

variable {category : String} {id : GoString} {msg : Message}

section Visits

variable {isPrint : Char → Bool} {root : Fields}
  {ids : List GoString} {path name : String} {undefined : GoString → String} {v : Value}

theorem visitRefs_eq (h : ∀ id ∈ ids, id ∈ extractDefined root category) :
    visitRefs root category path undefined ids =
      (ids.mapIdx fun i id => (.ref ⟨category, id, path ++ "[" ++ toString i ++ "]"⟩ : Visit)) := by
  rw [visitRefs, List.mapIdx_eq_mapIdx_iff]
  intro i hi
  exact if_pos (h _ (List.getElem_mem hi))

theorem defined_of_visitRefs
    (h : (visitRefs root category path undefined ids).filterMap Visit.message? = [])
    (hid : id ∈ ids) : id ∈ extractDefined root category := by
  rw [List.filterMap_eq_nil_iff] at h
  obtain ⟨i, hi, rfl⟩ := List.getElem_of_mem hid
  by_contra hundefined
  have hmem := h _ (List.mem_mapIdx.mpr ⟨i, hi, rfl⟩)
  rw [if_neg hundefined] at hmem
  cases hmem

theorem severity_of_mem_visitRefs
    (h : Visit.message msg ∈ visitRefs root category path undefined ids) :
    msg.severity = .error := by
  obtain ⟨i, hi, heq⟩ := List.mem_mapIdx.mp h
  dsimp only at heq
  split at heq
  · cases heq
  · cases heq
    rfl

def visits (isPrint : Char → Bool) (root : Fields) : List Visit :=
  (pipelines root).toList.flatMap (fun p => visitPipeline isPrint root p.1 p.2) ++
    visitRefs root "extensions" "service.extensions"
      (fun id => "service.extensions references " ++ GoText.quoteRunes isPrint id ++
        " which is not defined under top-level 'extensions'")
      (toStringSlice ((root.get "service").bind (Value.member · "extensions")))

theorem severity_of_mem_visits (h : Visit.message msg ∈ visits isPrint root) :
    msg.severity = .error := by
  rcases List.mem_append.mp h with h | h
  · obtain ⟨p, -, h⟩ := List.mem_flatMap.mp h
    unfold visitPipeline at h
    split at h
    · cases List.mem_singleton.mp h
      rfl
    · rcases List.mem_append.mp h with h | h
      · obtain ⟨required, -, heq⟩ := List.mem_map.mp h
        cases heq
        rfl
      · obtain ⟨section_, -, h⟩ := List.mem_flatMap.mp h
        exact severity_of_mem_visitRefs h
  · exact severity_of_mem_visitRefs h

/-- The visit of a reference that is defined. -/
def Reference.visit (r : Reference) : Visit := .ref r.toComponentRef

theorem map_visit_referencesAt (place : Place) (v : Option Value) :
    (referencesAt (place, v)).map Reference.visit =
      (toStringSlice v).mapIdx fun i id =>
        (.ref ⟨place.category, id, place.path ++ "[" ++ toString i ++ "]"⟩ : Visit) := by
  rw [referencesAt, List.mapIdx_eq_zipIdx_map, List.mapIdx_eq_zipIdx_map, List.map_map]
  rfl

theorem visitPipeline_eq
    (hpresent : ∀ section_ ∈ requiredSections, (v.member section_).isSome = true)
    (hdefined : ∀ section_ ∈ pipelineSections, ∀ id ∈ toStringSlice (v.member section_),
      id ∈ extractDefined root section_) :
    visitPipeline isPrint root name v =
      pipelineSections.flatMap fun section_ =>
        (referencesAt (.pipeline name section_, v.member section_)).map Reference.visit := by
  cases hmap : v.asMap with
  | none =>
    have habsent := hpresent "receivers" (by decide)
    rw [Value.member, hmap] at habsent
    cases habsent
  | some pipeline =>
    have hmember : v.member = pipeline.get := by
      funext section_
      rw [Value.member, hmap, Option.bind_some]
    have hmissing : (["receivers", "exporters"].filter
        fun required => (pipeline.get required).isNone) = [] := by
      refine List.filter_eq_nil_iff.mpr fun required hrequired => ?_
      have hsome := hpresent required hrequired
      rw [hmember] at hsome
      simp [Option.isNone_iff_eq_none, Option.isSome_iff_ne_none.mp hsome]
    rw [visitPipeline, hmap]
    dsimp only
    rw [hmissing, List.map_nil, List.nil_append]
    refine List.flatMap_congr fun section_ hsection => ?_
    rw [visitSection, ← hmember, visitRefs_eq (hdefined section_ hsection), map_visit_referencesAt]
    rfl

theorem of_visitPipeline (h : (visitPipeline isPrint root name v).filterMap Visit.message? = []) :
    (∀ section_ ∈ requiredSections, (v.member section_).isSome = true) ∧
      ∀ section_ ∈ pipelineSections, ∀ id ∈ toStringSlice (v.member section_),
        id ∈ extractDefined root section_ := by
  cases hmap : v.asMap with
  | none =>
    rw [visitPipeline, hmap] at h
    cases h
  | some pipeline =>
    have hmember : v.member = pipeline.get := by
      funext section_
      rw [Value.member, hmap, Option.bind_some]
    rw [visitPipeline, hmap] at h
    dsimp only at h
    rw [List.filterMap_append, List.append_eq_nil_iff] at h
    rw [hmember]
    constructor
    · intro section_ hsection
      by_contra habsent
      have hnone : (pipeline.get section_).isNone = true := by simpa using habsent
      have hmem := List.filterMap_eq_nil_iff.mp h.1 _
        (List.mem_map_of_mem (List.mem_filter.mpr ⟨hsection, hnone⟩))
      cases hmem
    · intro section_ hsection id hid
      rw [List.filterMap_flatMap, List.flatMap_eq_nil_iff] at h
      exact defined_of_visitRefs (h.2 section_ hsection) hid

theorem mem_lists_pipeline {section_ : String}
    (hp : (name, v) ∈ (pipelines root).toList) (hsection : section_ ∈ pipelineSections) :
    (.pipeline name section_, v.member section_) ∈ lists root :=
  List.mem_append_left _ (List.mem_flatMap.mpr ⟨_, hp, List.mem_map_of_mem hsection⟩)

theorem mem_referencesAt {list : Place × Option Value} {r : Reference} (h : r ∈ referencesAt list) :
    r.place = list.1 ∧ (toStringSlice list.2)[r.index]? = some r.id := by
  obtain ⟨i, hi, rfl⟩ := List.mem_mapIdx.mp h
  exact ⟨rfl, List.getElem?_eq_getElem hi⟩

theorem exists_reference {list : Place × Option Value} (hlist : list ∈ lists root)
    (hid : id ∈ toStringSlice list.2) : ∃ r ∈ references root, r.place = list.1 ∧ r.id = id := by
  obtain ⟨i, hi, rfl⟩ := List.getElem_of_mem hid
  exact ⟨⟨list.1, i, _⟩, List.mem_flatMap.mpr ⟨list, hlist, List.mem_mapIdx.mpr ⟨i, hi, rfl⟩⟩,
    rfl, rfl⟩

/-- An entry of a list of references is defined exactly if the references all are. -/
theorem defined_iff :
    (∀ r ∈ references root, r.id ∈ extractDefined root r.place.category) ↔
      ∀ list ∈ lists root, ∀ id ∈ toStringSlice list.2,
        id ∈ extractDefined root list.1.category := by
  constructor
  · intro h list hlist id hid
    obtain ⟨r, hr, hplace, rfl⟩ := exists_reference hlist hid
    rw [← hplace]
    exact h r hr
  · intro h r hr
    obtain ⟨list, hlist, hr⟩ := List.mem_flatMap.mp hr
    obtain ⟨hplace, hget⟩ := mem_referencesAt hr
    rw [hplace]
    exact h list hlist _ (List.mem_of_getElem? hget)

theorem visits_eq (h : Structured root) :
    visits isPrint root = (references root).map Reference.visit := by
  have hdefined := defined_iff.mp h.defined
  rw [visits, references, lists, List.flatMap_append, List.map_append, List.flatMap_assoc,
    List.map_flatMap]
  congr 1
  · refine List.flatMap_congr fun p hp => ?_
    rw [visitPipeline_eq (h.present p hp)
      fun section_ hsection => hdefined _ (mem_lists_pipeline hp hsection),
      List.flatMap_map, List.map_flatMap]
  · rw [List.flatMap_singleton, map_visit_referencesAt]
    exact visitRefs_eq (hdefined _ (List.mem_append_right _ (List.mem_singleton.mpr rfl)))

theorem structured_of_visits (hnonempty : pipelines root ≠ .nil)
    (h : (visits isPrint root).filterMap Visit.message? = []) : Structured root := by
  rw [visits, List.filterMap_append, List.append_eq_nil_iff, List.filterMap_flatMap,
    List.flatMap_eq_nil_iff] at h
  refine ⟨hnonempty, fun p hp => (of_visitPipeline (h.1 p hp)).1, defined_iff.mpr ?_⟩
  intro list hlist
  rcases List.mem_append.mp hlist with hlist | hlist
  · obtain ⟨p, hp, hlist⟩ := List.mem_flatMap.mp hlist
    obtain ⟨section_, hsection, rfl⟩ := List.mem_map.mp hlist
    exact (of_visitPipeline (h.1 p hp)).2 section_ hsection
  · cases List.mem_singleton.mp hlist
    exact fun id => defined_of_visitRefs h.2

end Visits

section Outcome

variable (isPrint : Char → Bool) (root : Fields)

/-- What the check is on a document: the failure before it comes to a pipeline, or what it makes of
the visits. -/
theorem validateCollectorStructure_cases :
    (pipelines root = .nil ∧ ∃ code message path,
      validateCollectorStructure isPrint root =
        (structureFailed root code message path, [])) ∨
    pipelines root ≠ .nil ∧ ∃ check : Check,
      validateCollectorStructure isPrint root =
        (check, (visits isPrint root).filterMap Visit.ref?) ∧
      check.id = .collectorStructure ∧ check.required = true ∧
      check.status = statusWithWarnings ((visits isPrint root).filterMap Visit.message?) ∧
      (check.status ≠ .passed → check.messages = (visits isPrint root).filterMap Visit.message?) ∧
      (check.status = .passed → ∃ msg : Message, check.messages = [msg] ∧ msg.severity = .info) := by
  unfold validateCollectorStructure
  split
  next hservice =>
    refine .inl ⟨?_, _, _, _, rfl⟩
    cases hget : root.get "service" with
    | none => simp [pipelines, hget]
    | some v =>
      rw [hget, Option.bind_some] at hservice
      simp [pipelines, hget, Value.member, hservice]
  next service hservice =>
    obtain ⟨v, hget, hv⟩ := Option.bind_eq_some_iff.mp hservice
    have hmember (key : String) : v.member key = service.get key := by
      rw [Value.member, hv, Option.bind_some]
    have hpipelines : pipelines root = ((service.get "pipelines").bind Value.asMap).getD .nil := by
      rw [pipelines, hget, Option.bind_some, hmember]
    have hvisits : visits isPrint root =
        (pipelines root).toList.flatMap (fun p => visitPipeline isPrint root p.1 p.2) ++
          visitExtensions isPrint root service := by
      rw [visits, hget, Option.bind_some, hmember]
      rfl
    split
    next hnone => exact .inl ⟨by rw [hpipelines, hnone]; rfl, _, _, _, rfl⟩
    next hnil => exact .inl ⟨by rw [hpipelines, hnil]; rfl, _, _, _, rfl⟩
    next ps hnil hps =>
      have heq : pipelines root = ps := by rw [hpipelines, hps]; rfl
      rw [hvisits, heq]
      refine .inr ⟨hnil, _, rfl, rfl, rfl, rfl, fun hstatus => if_neg hstatus, fun hstatus => ?_⟩
      exact ⟨_, if_pos hstatus, rfl⟩

theorem statusWithWarnings_of_error {messages : List Message}
    (h : ∀ msg ∈ messages, msg.severity = .error) (hne : messages ≠ []) :
    statusWithWarnings messages = .failed := by
  cases messages with
  | nil => exact absurd rfl hne
  | cons msg messages => simp [statusWithWarnings, h msg List.mem_cons_self]

theorem severity_of_statusWithWarnings {messages : List Message}
    (h : statusWithWarnings messages = .passed) : ∀ msg ∈ messages, msg.severity = .info := by
  induction messages with
  | nil => simp
  | cons msg messages ih =>
    rw [statusWithWarnings] at h
    split at h
    · cases h
    · cases h
    · next hinfo => exact List.forall_mem_cons.mpr ⟨hinfo, ih h⟩

/-- The check passes a document that has what it asks for, with the references of the document, and
fails any other with an error. -/
theorem validateCollectorStructure_spec :
    ∃ check refs, validateCollectorStructure isPrint root = (check, refs) ∧
      check.id = .collectorStructure ∧ check.required = true ∧ check.IsCoherent ∧
      (Structured root ∧ check.status = .passed ∧
          refs = (references root).map Reference.toComponentRef ∨
        ¬Structured root ∧ check.status = .failed) := by
  rcases validateCollectorStructure_cases isPrint root with
    ⟨hnil, code, message, path, heq⟩ | ⟨hne, check, heq, hid, hrequired, hstatus, hmessages, hinfo⟩
  · refine ⟨_, _, heq, rfl, rfl, ?_, .inr ⟨fun h => h.nonempty hnil, rfl⟩⟩
    exact ⟨fun _ => ⟨_, List.mem_singleton.mpr rfl, rfl⟩, fun _ => rfl⟩
  refine ⟨check, _, heq, hid, hrequired, ?_⟩
  by_cases hnone : (visits isPrint root).filterMap Visit.message? = []
  · have hpassed : check.status = .passed := by rw [hstatus, hnone]; rfl
    have hstructured := structured_of_visits hne hnone
    obtain ⟨msg, hmsg, hseverity⟩ := hinfo hpassed
    refine ⟨by simp [Check.IsCoherent, hpassed, hmsg, hseverity], .inl ⟨hstructured, hpassed, ?_⟩⟩
    rw [visits_eq hstructured, List.filterMap_map]
    exact congrFun List.filterMap_eq_map' (references root)
  · have herror : ∀ msg ∈ (visits isPrint root).filterMap Visit.message?,
        msg.severity = .error := by
      intro msg hmsg
      obtain ⟨visit, hvisit, hmessage⟩ := List.mem_filterMap.mp hmsg
      cases visit with
      | message m =>
        cases hmessage
        exact severity_of_mem_visits hvisit
      | ref r => cases hmessage
    have hfailed := hstatus.trans (statusWithWarnings_of_error herror hnone)
    have hmessages := hmessages (by rw [hfailed]; decide)
    refine ⟨⟨fun _ => ?_, fun _ => hfailed⟩, .inr ⟨fun hstructured => hnone ?_, hfailed⟩⟩
    · obtain ⟨msg, hmsg⟩ := List.exists_mem_of_ne_nil _ hnone
      exact ⟨msg, hmessages ▸ hmsg, herror msg hmsg⟩
    · rw [visits_eq hstructured, List.filterMap_map, List.filterMap_eq_nil_iff]
      exact fun r _ => rfl

end Outcome

section Installed

/-- The reported components, none of a target that has reported nothing. -/
def reported (available : Option AvailableComponents) : List (String × List String) :=
  (available.map AvailableComponents.components).getD []

variable (components : List (String × List String))

def IsReported (category : String) : Prop := (components.lookup category).isSome = true

def IsMissing (category : String) (id : GoString) : Prop :=
  ∃ installed ∈ components.lookup category, componentType id ∉ installed.map GoString.ofString

instance (category : String) : Decidable (IsReported components category) :=
  inferInstanceAs (Decidable (_ = _))

instance (category : String) (id : GoString) : Decidable (IsMissing components category id) :=
  inferInstanceAs (Decidable (∃ installed ∈ components.lookup category, _))

def notInstalled (isPrint : Char → Bool) (installed : List String) (ref : ComponentRef) :
    Message where
  code := "component_not_installed"
  severity := .error
  message := singular ref.category ++ " type " ++
    GoText.quoteRunes isPrint (componentType ref.id) ++
    " is not installed on the target workload (available: " ++ ", ".intercalate installed ++ ")"
  path := ref.path

variable {components} {isPrint : Char → Bool} {refs : List ComponentRef}

theorem mem_availabilityMessages_iff {warned : List String} (herror : msg.severity = .error) :
    msg ∈ availabilityMessages isPrint components warned refs ↔
      ∃ ref ∈ refs, ∃ installed ∈ components.lookup ref.category,
        componentType ref.id ∉ installed.map GoString.ofString ∧
          msg = notInstalled isPrint installed ref := by
  induction refs generalizing warned with
  | nil => simp [availabilityMessages]
  | cons ref refs ih =>
    rw [List.exists_mem_cons_iff, availabilityMessages]
    split
    next hnone =>
      have hskip : ¬∃ installed ∈ components.lookup ref.category,
          componentType ref.id ∉ installed.map GoString.ofString ∧
            msg = notInstalled isPrint installed ref := by
        simp [hnone]
      rw [or_iff_right hskip]
      split
      · exact ih
      · rw [List.mem_cons, or_iff_right, ih]
        rintro rfl
        cases herror
    next installed hsome =>
      dsimp only
      split
      next hmem =>
        rw [ih, or_iff_right]
        rintro ⟨_, hinstalled, hnot, -⟩
        rw [hsome] at hinstalled
        cases hinstalled
        exact hnot hmem
      next hmem =>
        rw [List.mem_cons, ih]
        simp only [hsome, Option.mem_def, Option.some.injEq, exists_eq_left', hmem,
          not_false_eq_true, true_and]
        rfl

theorem exists_error_availabilityMessages :
    (∃ msg ∈ availabilityMessages isPrint components [] refs, msg.severity = .error) ↔
      ∃ ref ∈ refs, IsMissing components ref.category ref.id := by
  constructor
  · rintro ⟨msg, hmsg, herror⟩
    obtain ⟨ref, href, installed, hinstalled, hmissing, -⟩ :=
      (mem_availabilityMessages_iff herror).mp hmsg
    exact ⟨ref, href, installed, hinstalled, hmissing⟩
  · rintro ⟨ref, href, installed, hinstalled, hmissing⟩
    exact ⟨notInstalled isPrint installed ref,
      (mem_availabilityMessages_iff rfl).mpr ⟨ref, href, installed, hinstalled, hmissing, rfl⟩, rfl⟩

/-- Some reference to a type that is not installed has only reported categories before it. -/
def MissingFirst (components : List (String × List String)) (refs : List ComponentRef) : Prop :=
  ∃ before ref after, refs = before ++ ref :: after ∧
    IsMissing components ref.category ref.id ∧ ∀ r ∈ before, IsReported components r.category

/-- The status is that of the first message. -/
theorem statusWithWarnings_availabilityMessages :
    statusWithWarnings (availabilityMessages isPrint components [] refs) = .failed ↔
      MissingFirst components refs := by
  induction refs with
  | nil => simp [availabilityMessages, statusWithWarnings, MissingFirst]
  | cons ref refs ih =>
    rw [availabilityMessages]
    split
    next hnone =>
      -- The warning about the category comes first, whatever follows.
      have hunreported : ¬IsReported components ref.category := by simp [IsReported, hnone]
      rw [if_neg List.not_mem_nil]
      simp only [statusWithWarnings, reduceCtorEq, false_iff]
      rintro ⟨before, r, after, heq, hmissing, hbefore⟩
      cases before with
      | nil =>
        cases heq
        obtain ⟨installed, hinstalled, -⟩ := hmissing
        rw [hnone] at hinstalled
        cases hinstalled
      | cons b before =>
        cases heq
        exact hunreported (hbefore ref List.mem_cons_self)
    next installed hsome =>
      have hreported : IsReported components ref.category := by simp [IsReported, hsome]
      dsimp only
      split
      next hmem =>
        rw [ih]
        constructor
        · rintro ⟨before, r, after, rfl, hmissing, hbefore⟩
          refine ⟨ref :: before, r, after, rfl, hmissing, ?_⟩
          exact List.forall_mem_cons.mpr ⟨hreported, hbefore⟩
        · rintro ⟨before, r, after, heq, hmissing, hbefore⟩
          cases before with
          | nil =>
            cases heq
            obtain ⟨installed', hinstalled, hnot⟩ := hmissing
            rw [hsome] at hinstalled
            cases hinstalled
            exact absurd hmem hnot
          | cons b before =>
            cases heq
            exact ⟨before, r, after, rfl, hmissing, (List.forall_mem_cons.mp hbefore).2⟩
      next hmem =>
        simp only [statusWithWarnings, true_iff]
        exact ⟨[], ref, refs, rfl, ⟨installed, hsome, hmem⟩, by simp⟩

theorem not_isMissing_nil : ¬IsMissing [] category id := by
  rintro ⟨_, hnone, -⟩
  cases hnone

/-- The check carries an error exactly if a referenced type is not installed, and it fails exactly
if no unreported category comes before all of those. -/
theorem validateComponentAvailability_spec (isPrint : Char → Bool) (refs : List ComponentRef)
    (available : Option AvailableComponents) :
    ∃ check, validateComponentAvailability isPrint refs available = check ∧
      check.id = .componentAvailability ∧ check.required = true ∧
      ((∃ msg ∈ check.messages, msg.severity = .error) ↔
        ∃ ref ∈ refs, IsMissing (reported available) ref.category ref.id) ∧
      (check.status = .failed ↔ MissingFirst (reported available) refs) := by
  refine ⟨_, rfl, ?_⟩
  unfold validateComponentAvailability
  dsimp only
  rw [← reported]
  split
  next hnil =>
    rw [hnil]
    refine ⟨rfl, rfl, ?_, ?_⟩
    · simp [not_isMissing_nil]
    · simp [MissingFirst, not_isMissing_nil]
  next hne =>
    refine ⟨rfl, rfl, ?_, statusWithWarnings_availabilityMessages⟩
    have hiff := @exists_error_availabilityMessages (reported available) isPrint refs
    dsimp only
    split
    next hpassed =>
      have hinfo := severity_of_statusWithWarnings hpassed
      rw [← hiff]
      constructor
      · rintro ⟨msg, hmsg, herror⟩
        cases List.mem_singleton.mp hmsg
        cases herror
      · rintro ⟨msg, hmsg, herror⟩
        rw [hinfo msg hmsg] at herror
        cases herror
    next => exact hiff

end Installed

section Valid

variable {env : Environment} {content : String} {available : Option AvailableComponents}

theorem not_structured_nil : ¬Structured .nil := fun h => h.nonempty rfl

theorem exists_decode_of_structured (h : Structured (env.root content)) :
    ∃ doc, env.decode content = .ok (some doc) ∧ env.root content = doc.root := by
  unfold Environment.root at h ⊢
  split at h
  next doc hdecode => exact ⟨doc, hdecode, rfl⟩
  next => exact absurd h not_structured_nil

theorem errors_version_empty : (validateVersionCompatibility "" "" "").errors = [] :=
  (validateVersionCompatibility_verdict "" "" "").1.mpr (by decide)

theorem errors_validateStatic_iff :
    (validateStatic env content available {}).errors = [] ↔
      Structured (env.root content) ∧ ∀ r ∈ references (env.root content),
        ¬IsMissing (reported available) r.place.category r.id := by
  cases hdecode : env.decode content with
  | error text =>
    simp [validateStatic, Environment.root, hdecode, notParsed, appendSkippedDependents,
      not_structured_nil]
  | ok decoded =>
    cases decoded with
    | none =>
      simp [validateStatic, Environment.root, hdecode, notParsed, appendSkippedDependents,
        not_structured_nil]
    | some doc =>
      have hroot : env.root content = doc.root := by rw [Environment.root, hdecode]
      obtain ⟨check, refs, heq, -, -, hcoherent, hspec⟩ :=
        validateCollectorStructure_spec env.isPrint doc.root
      obtain ⟨availability, havailability, -, -, hmissing, -⟩ :=
        validateComponentAvailability_spec env.isPrint refs available
      rw [hroot]
      simp only [validateStatic, hdecode, heq, havailability]
      rcases hspec with ⟨hstructured, hpassed, rfl⟩ | ⟨hnot, hfailed⟩
      · have hnone : check.errors = [] := Check.errors_eq_nil.mpr fun herror => by
          have hfailed := hcoherent.mpr herror
          rw [hpassed] at hfailed
          cases hfailed
        rw [if_neg (by rw [hpassed]; decide)]
        simp only [Result.collect, errors_version_empty, hnone, List.append_nil, List.nil_append, hstructured,
          true_and, Check.errors_eq_nil, hmissing]
        simp [Reference.toComponentRef]
      · have hsome : check.errors ≠ [] := by
          rw [ne_eq, Check.errors_eq_nil, not_not]
          exact hcoherent.mp hfailed
        simp [hfailed, appendSkippedDependents, Result.collect, hsome, hnot]

theorem valid_validate_iff :
    (validate env content available).valid = true ↔
      Structured (env.root content) ∧ ∀ r ∈ references (env.root content),
        ¬IsMissing (reported available) r.place.category r.id := by
  rw [← errors_validateStatic_iff]
  simp [validate, finalize]

end Valid

/-- The environment in which one text decodes to a document. -/
def decodesOnly (text : String) (doc : Document) : Environment :=
  { pipelineEnvironment with
    decode := fun s => if s = text then .ok (some doc) else .error "did not find expected key" }

@[simp] theorem root_decodesOnly (text : String) (doc : Document) :
    (decodesOnly text doc).root text = doc.root := by
  simp [Environment.root, decodesOnly]

end OtelMagnify.Validator
