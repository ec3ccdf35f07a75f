import OtelMagnify.Diff.Components

/-! Whether the result of a diff can be written as JSON. Its texts and its numbers always can; the
values it shows of components, of their fields and of security settings are what `yaml.v3` has
decoded. -/
namespace OtelMagnify.Diff
open Yaml GoString

variable {env : Environment}

def FieldChange.isEncodable (f : FieldChange) : Bool :=
  Diff.isEncodable f.before && Diff.isEncodable f.after

def ComponentDiff.isEncodable (cd : ComponentDiff) : Bool :=
  Diff.isEncodable cd.before && Diff.isEncodable cd.after &&
    cd.changedFields.all FieldChange.isEncodable

def SecurityDiff.isEncodable (sd : SecurityDiff) : Bool :=
  Diff.isEncodable sd.before && Diff.isEncodable sd.after

/-- `json.Marshal` of the result does not fail. -/
def ConfigDiff.isEncodable (d : ConfigDiff) : Bool :=
  d.components.all ComponentDiff.isEncodable && d.security.all SecurityDiff.isEncodable

section Values

variable (env)

mutual

/-- Everything in the value has a JSON, apart from what lies at a sensitive path. -/
def isShowable : Value → GoString → Bool
  | .obj m, path => isSensitivePath env path || fieldsShowable m path
  | .list l, path => isSensitivePath env path || itemsShowable l path 0
  | .str _, _ => true
  | .binary _, _ => true
  | v, path => isSensitivePath env path || (scalarOf v).isSome

def fieldsShowable : Fields → GoString → Bool
  | .nil, _ => true
  | .cons key v m, path => isShowable v (child path key) && fieldsShowable m path

def itemsShowable : Values → GoString → ℕ → Bool
  | .nil, _, _ => true
  | .cons v l, path, i => isShowable v (element path i) && itemsShowable l path (i + 1)

end

variable {env} {path : GoString}

theorem isShowable_of_sensitive (h : isSensitivePath env path = true)
    (v : Value) : isShowable env v path = true := by
  cases v <;> simp [isShowable, h]

theorem isShowable_null (path : GoString) : isShowable env .null path = true := by
  simp [isShowable, scalarOf]

theorem isEncodable_redactText (s path : GoString) :
    isEncodable (redactText env s path) = true := by
  unfold redactText
  split
  · rfl
  · unfold ofText
    split <;> rfl

mutual

/-- What is shown of a value has a JSON exactly when everything at a path that is not sensitive has
one. -/
theorem isEncodable_redactValue (v : Value) (path : GoString) :
    isEncodable (redactValue env v path) = isShowable env v path := by
  cases v with
  | obj m =>
    rw [redactValue, isShowable, ← isEncodable_redactFields m path]
    cases isSensitivePath env path <;> rfl
  | list l =>
    rw [redactValue, isShowable, ← isEncodable_redactItems l path 0]
    cases isSensitivePath env path <;> rfl
  | str s | binary b => rw [redactValue, isShowable, isEncodable_redactText]
  | null => simp [redactValue, isShowable, isEncodable, scalarOf]
  | _ =>
    simp only [redactValue, isShowable]
    cases isSensitivePath env path <;> rfl

theorem isEncodable_redactFields (m : Fields) (path : GoString) :
    fieldsEncodable (redactFields env m path) = fieldsShowable env m path := by
  cases m with
  | nil => rfl
  | cons key v m =>
    rw [redactFields, fieldsEncodable, fieldsShowable, isEncodable_redactFields m path]
    split
    · next h =>
      have hsecret := (Bool.and_eq_true _ _ ▸ h).2
      rw [isShowable_of_sensitive (isSensitivePath_child_secret hsecret path)]
      rfl
    · rw [isEncodable_redactValue v]

theorem isEncodable_redactItems (l : Values) (path : GoString) (i : ℕ) :
    areEncodable (redactItems env l path i) = itemsShowable env l path i := by
  cases l with
  | nil => rfl
  | cons v l =>
    rw [redactItems, areEncodable, itemsShowable, isEncodable_redactItems l path (i + 1),
      isEncodable_redactValue v]

end

theorem isShowable_get {m : Fields} (h : isShowable env (.obj m) path = true)
    (key : String) : isShowable env ((m.get key).getD .null) (child path key) = true := by
  rw [isShowable, Bool.or_eq_true] at h
  rcases h with h | h
  · exact isShowable_of_sensitive (isSensitivePath_child h key) _
  · induction m with
    | nil => exact isShowable_null _
    | cons k v m ih =>
      rw [fieldsShowable, Bool.and_eq_true] at h
      rw [Fields.get]
      split
      · next heq => exact heq ▸ h.1
      · exact ih h.2

theorem isEncodable_fieldChange {b t : Value}
    (hb : isShowable env b path = true) (ht : isShowable env t path = true) :
    ∀ f ∈ fieldChange env path b t, f.isEncodable = true := by
  intro f hf
  unfold fieldChange at hf
  split at hf
  · cases hf
  · rw [List.mem_singleton.mp hf, FieldChange.isEncodable, isEncodable_redactValue,
      isEncodable_redactValue, hb, ht]
    rfl

theorem isEncodable_walkDiff {b t : Value} (hb : isShowable env b path = true)
    (ht : isShowable env t path = true) : ∀ f ∈ walkDiff env path b t, f.isEncodable = true := by
  induction b using Value.memberInduction generalizing t path with
  | step b ih =>
    cases hbm : b.asMap with
    | none =>
      rw [walkDiff_of_not_obj (.inl hbm)]
      exact isEncodable_fieldChange hb ht
    | some bm =>
      cases htm : t.asMap with
      | none =>
        rw [walkDiff_of_not_obj (.inr htm)]
        exact isEncodable_fieldChange hb ht
      | some tm =>
        obtain rfl := Value.eq_obj hbm
        obtain rfl := Value.eq_obj htm
        rw [walkDiff_obj]
        intro f hf
        obtain ⟨key, -, hf⟩ := List.mem_flatMap.mp hf
        exact ih bm key rfl (isShowable_get hb key) (isShowable_get ht key) f hf

end Values

section Security

namespace Engine

variable {e : Engine} {sd : SecurityDiff}

/-- Nothing before `compareSecurity` adds an entry. -/
theorem security_compareEndpoints (base target : Graph) :
    (((compareComponents env { base, target }).comparePipelines env).compareEndpoints
      env).security = [] := by
  have hkept {e e' : Engine} (h : Grows (fun _ => False) e e') (he : e.security = []) :
      e'.security = [] :=
    List.eq_nil_iff_forall_not_mem.mpr fun sd hsd =>
      (h.security sd hsd).elim (fun h => by simp [he] at h) id
  refine List.foldlRecOn _ addEndpoint (motive := (·.security = [])) ?_ fun e he ed _ =>
    hkept (grows_addEndpoint e ed) he
  refine List.foldlRecOn _ addPipeline (motive := (·.security = [])) ?_ fun e he pd _ =>
    hkept (grows_addPipeline e pd) he
  refine List.foldlRecOn _ addComponent (motive := (·.security = [])) ?_ fun e he cd _ =>
    hkept (grows_addComponent e cd) he
  rfl

theorem components_frame (e : Engine) : e.frame.components = e.components := rfl

theorem components_compareEndpoints (base target : Graph) :
    (((compareComponents env { base, target }).comparePipelines env).compareEndpoints
      env).components = componentDiffs env base target := by
  rw [← components_frame, frame_compareEndpoints, frame_comparePipelines, frame_compareComponents]
  rfl

end Engine

theorem mem_security_runEngine {base target : Graph} {sd : SecurityDiff}
    (h : sd ∈ (runEngine env base target).security) :
    ∃ cd ∈ componentDiffs env base target, ∃ fc ∈ cd.changedFields, Engine.Shows sd fc := by
  rw [runEngine, Engine.sorted, (env.sortSlice.perm _ _).mem_iff] at h
  rcases (Engine.grows_compareSecurity env _).security sd h with hold | hnew
  · rw [Engine.security_compareEndpoints] at hold
    cases hold
  · rwa [Engine.components_compareEndpoints] at hnew

end Security

section Result

variable (env) in
/-- What the two documents have as a component can be shown: it is not listed, or everything in it
that is not masked has a JSON. -/
def ShownAsJson (cat : Category) (id : GoString) : Option Value → Option Value → Prop
  | some v, some w =>
    Indistinct v w ∨
      (isShowable env v (componentRef cat id).path = true ∧
        isShowable env w (componentRef cat id).path = true)
  | some v, none | none, some v => isShowable env v (componentRef cat id).path = true
  | none, none => True

theorem isEncodable_componentDiff {e : Engine} {cat : Category} {id : GoString} :
    (∀ cd, e.componentDiff env cat id = some cd → cd.isEncodable = true) ↔
      ShownAsJson env cat id ((lookup (e.base.components cat) id).map Component.cfg)
        ((lookup (e.target.components cat) id).map Component.cfg) := by
  unfold Engine.componentDiff
  cases lookup (e.base.components cat) id with
  | none =>
    cases lookup (e.target.components cat) id with
    | none => simp [ShownAsJson]
    | some t =>
      simp [ShownAsJson, ComponentDiff.isEncodable, isEncodable_redactValue, isEncodable, scalarOf]
  | some b =>
    cases lookup (e.target.components cat) id with
    | none =>
      simp [ShownAsJson, ComponentDiff.isEncodable, isEncodable_redactValue, isEncodable, scalarOf]
    | some t =>
      simp only [Option.map_some, ShownAsJson, Indistinct, ← canonical_eq_iff]
      by_cases heq : canonical b.cfg = canonical t.cfg
      · simp [heq]
      · simp only [heq, if_false, false_or, Option.some.injEq, forall_eq',
          ComponentDiff.isEncodable, isEncodable_redactValue, Bool.and_eq_true]
        refine and_iff_left_of_imp fun hboth => List.all_eq_true.mpr fun f hf => ?_
        exact isEncodable_walkDiff hboth.1 hboth.2 f ((env.sortSlice.perm _ _).mem_iff.mp hf)

theorem isEncodable_componentDiffs {root root' : Fields} (h : root.isOrdered = true)
    (h' : root'.isOrdered = true) :
    (∀ cd ∈ componentDiffs env (parseGraph root) (parseGraph root'), cd.isEncodable = true) ↔
      ∀ cat (id : String),
        ShownAsJson env cat id (componentAt root cat id) (componentAt root' cat id) := by
  rw [← forall_componentIDs h h' fun _ _ => trivial]
  simp only [componentDiffs, List.mem_filterMap, Prod.exists]
  constructor
  · intro hall cat id hid
    exact (isEncodable_componentDiff (e := { base := parseGraph root, target := parseGraph root' })).mp
      fun cd hcd => hall cd ⟨cat, id, hid, hcd⟩
  · rintro hall cd ⟨cat, id, hid, hcd⟩
    exact isEncodable_componentDiff.mpr (hall cat id hid) cd hcd

/-- The security section shows nothing that the components do not. -/
theorem isEncodable_runEngine {base target : Graph}
    (h : ∀ cd ∈ componentDiffs env base target, cd.isEncodable = true) :
    ∀ sd ∈ (runEngine env base target).security, sd.isEncodable = true := by
  intro sd hsd
  obtain ⟨cd, hcd, fc, hfc, hbefore, hafter⟩ := mem_security_runEngine hsd
  have hcd := h cd hcd
  simp only [ComponentDiff.isEncodable, Bool.and_eq_true, List.all_eq_true] at hcd
  rw [SecurityDiff.isEncodable, hbefore, hafter]
  exact hcd.2 fc hfc

theorem isEncodable_finishedDiff {da db : Option Document} {hashes : String × String}
    {ctx : BlastRadiusContext} :
    (finishedDiff env (parseGraph (rootOf da)) (parseGraph (rootOf db)) hashes ctx).isEncodable =
        true ↔
      ∀ cat (id : String), ShownAsJson env cat id (componentAt (rootOf da) cat id)
        (componentAt (rootOf db) cat id) := by
  rw [← isEncodable_componentDiffs (isOrdered_rootOf da) (isOrdered_rootOf db),
    ConfigDiff.isEncodable, Bool.and_eq_true, List.all_eq_true, List.all_eq_true]
  have hperm := components_runEngine env (parseGraph (rootOf da)) (parseGraph (rootOf db))
  constructor
  · rintro ⟨hall, -⟩ cd hcd
    exact hall cd (hperm.mem_iff.mpr hcd)
  · intro hall
    exact ⟨fun cd hcd => hall cd (hperm.mem_iff.mp hcd), isEncodable_runEngine hall⟩

variable {a b : List UInt8} {ctx : BlastRadiusContext}

theorem isEncodable_of_invalid (h : (compareWithContext env a b ctx).valid = false) :
    (compareWithContext env a b ctx).isEncodable = true := by
  unfold compareWithContext at h ⊢
  dsimp only at h ⊢
  split at h
  · cases h
  · rfl

/-- The diff can be encoded exactly when it is not valid, or when no component it lists has a NaN, an
infinity, a `map[any]any` or a time that JSON does not have, other than below a sensitive path. -/
theorem diff_encodable_iff :
    (compareWithContext env a b ctx).isEncodable = true ↔
      ∀ da db, env.unmarshal a = .ok da → env.unmarshal b = .ok db →
        isReadable (rootOf da) = true → isReadable (rootOf db) = true →
        ∀ cat (id : String), ShownAsJson env cat id (componentAt (rootOf da) cat id)
          (componentAt (rootOf db) cat id) := by
  constructor
  · intro h da db ha hb hra hrb
    rw [compareWithContext_eq ha hb hra hrb] at h
    exact isEncodable_finishedDiff.mp h
  · intro h
    cases hvalid : (compareWithContext env a b ctx).valid with
    | false => exact isEncodable_of_invalid hvalid
    | true =>
      obtain ⟨⟨da, ha, hra⟩, db, hb, hrb⟩ := valid_compareWithContext_iff.mp hvalid
      rw [compareWithContext_eq ha hb hra hrb]
      exact isEncodable_finishedDiff.mpr (h da db ha hb hra hrb)

end Result

section Sample

/-- No exporter, and one with a ratio that is no number. -/
def emptyDocument : Document := ⟨.nil, rfl⟩

def nanDocument : Document :=
  ⟨.ofList [("exporters", .obj (.ofList [("debug", .obj (.ofList
    [("ratio", .float .nan)]))]))], by decide +kernel⟩

def emptyText : String := "\x7b\x7d"

def nanText : String := "exporters:\n  debug:\n    ratio: .nan\n"

def nanEnvironment : Environment := .knowing emptyText nanText emptyDocument nanDocument

/-- A new exporter with a NaN makes a diff that cannot be written. -/
theorem nan_not_encodable :
    (compare nanEnvironment (textBytes emptyText) (textBytes nanText)).valid = true ∧
      (compare nanEnvironment (textBytes emptyText) (textBytes nanText)).isEncodable = false := by
  rw [nanEnvironment, compare_knowing (by decide) (by decide +kernel) (by decide +kernel)]
  decide +kernel

end Sample

end OtelMagnify.Diff
