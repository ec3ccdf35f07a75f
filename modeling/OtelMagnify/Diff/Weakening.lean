import OtelMagnify.Diff.Components

/-! What the diff says of a component whose transport security is turned off. The walk over two
configurations ends where one of them has no mapping, so a setting in a block that is new or of
another type is not seen. -/
namespace OtelMagnify.Diff
open Yaml GoString

variable {env : Environment}

/-- The value at a path of string keys, through mappings of either kind. -/
def valueAt : Value → List String → Option Value
  | v, [] => some v
  | .obj m, key :: keys => (m.get key).bind fun v => valueAt v keys
  | .table m, key :: keys =>
    (m.toList.find? fun entry => entry.1 = .str key).bind fun entry => valueAt entry.2 keys
  | _, _ :: _ => none

def WeakenedAt (v w : Value) (keys : List String) : Prop :=
  (keys.getLast? = some "insecure" ∨ keys.getLast? = some "insecure_skip_verify") ∧
    valueAt w keys = some (.bool true) ∧ valueAt v keys ≠ some (.bool true)

/-- The values at a path along which both have mappings of strings; a key that is missing stands for
a `null`. -/
def walkTo : Value → Value → List String → Option (Value × Value)
  | v, w, [] => some (v, w)
  | .obj m, .obj m', key :: keys =>
    walkTo ((m.get key).getD .null) ((m'.get key).getD .null) keys
  | _, _, _ :: _ => none

def pathOf (path : GoString) (keys : List String) : GoString := keys.foldl child path

variable (env) in
/-- Both configurations have mappings along the path, transport security is turned off at its end,
and the path is not sensitive. -/
def SeenAt (path : GoString) (v w : Value) (keys : List String) : Prop :=
  ∃ b, walkTo v w keys = some (b, .bool true) ∧ b ≠ .bool true ∧
    isInsecurePath (toLower env.caseTable (pathOf path keys)) = true ∧
    isSensitivePath env (pathOf path keys) = false

/-- The diff lists the component under the rule and has a risk item of the rule for it. -/
def ConfigDiff.FlagsWeakening (d : ConfigDiff) (ref : ComponentRef) : Prop :=
  ∃ cd ∈ d.components, cd.component = ref ∧ .transportSecurityWeakened ∈ cd.rules ∧
    ∃ item ∈ d.riskItems, item.rule = .transportSecurityWeakened ∧ item.risk = .high ∧
      ref.path ∈ item.affectedPaths

section Walk

variable {b t v w : Value} {path : GoString} {keys : List String} {key : String}

theorem walkTo_cons {p : Value × Value} (h : walkTo v w (key :: keys) = some p) :
    ∃ m m', v = .obj m ∧ w = .obj m' ∧
      walkTo ((m.get key).getD .null) ((m'.get key).getD .null) keys = some p := by
  cases v with
  | obj m =>
    cases w with
    | obj m' => exact ⟨m, m', rfl, rfl, h⟩
    | _ => cases h
  | _ => cases h

/-- A place the walk reports is one where both configurations have mappings along the path. -/
theorem mem_walkDiff_iff {f : FieldChange} :
    f ∈ walkDiff env path b t ↔
      ∃ keys b' t', walkTo b t keys = some (b', t') ∧ (b'.asMap = none ∨ t'.asMap = none) ∧
        f ∈ fieldChange env (pathOf path keys) b' t' := by
  induction b using Value.memberInduction generalizing t path with
  | step b ih =>
    by_cases hmaps : b.asMap = none ∨ t.asMap = none
    · rw [walkDiff_of_not_obj hmaps]
      constructor
      · exact fun hf => ⟨[], b, t, rfl, hmaps, hf⟩
      · rintro ⟨keys, b', t', hwalk, -, hf⟩
        cases keys with
        | nil =>
          cases hwalk
          exact hf
        | cons key keys =>
          obtain ⟨m, m', rfl, rfl, -⟩ := walkTo_cons hwalk
          simp [Value.asMap] at hmaps
    · obtain ⟨bm, tm, rfl, rfl⟩ := exists_obj_of_not hmaps
      rw [walkDiff_obj, List.mem_flatMap]
      constructor
      · rintro ⟨key, -, hf⟩
        obtain ⟨keys, b', t', hwalk, hend, hf⟩ := (ih bm key rfl).mp hf
        exact ⟨key :: keys, b', t', hwalk, hend, hf⟩
      · rintro ⟨keys, b', t', hwalk, hend, hf⟩
        cases keys with
        | nil =>
          cases hwalk
          simp [Value.asMap] at hend
        | cons key keys =>
          have hsub := (ih bm key rfl).mpr ⟨keys, b', t', hwalk, hend, hf⟩
          refine ⟨key, ?_, hsub⟩
          by_contra hkey
          rw [mem_unionKeys, Fields.mem_keys_iff, Fields.mem_keys_iff, not_or,
            Option.not_isSome_iff_eq_none, Option.not_isSome_iff_eq_none] at hkey
          rw [hkey.1, hkey.2] at hsub
          simp [walkDiff, fieldChange, deepEqual] at hsub

theorem redactValue_eq_true_iff :
    redactValue env v path = .bool true ↔ v = .bool true ∧ isSensitivePath env path = false := by
  have htext (s : GoString) : redactText env s path ≠ .bool true := by
    unfold redactText ofText
    split
    · simp
    · split <;> simp
  cases v <;> simp [redactValue, htext] <;> cases isSensitivePath env path <;> simp

theorem deepEqual_true_iff : deepEqual v (.bool true) = true ↔ v = .bool true := by
  cases v <;> simp [deepEqual]

theorem exists_weakens_iff :
    (∃ f ∈ walkDiff env path v w, weakens env f = true) ↔ ∃ keys, SeenAt env path v w keys := by
  simp only [mem_walkDiff_iff, SeenAt]
  constructor
  · rintro ⟨f, ⟨keys, b, t, hwalk, -, hf⟩, hweakens⟩
    unfold fieldChange at hf
    split at hf
    · cases hf
    · cases List.mem_singleton.mp hf
      simp only [weakens, boolBecameTrue, Bool.and_eq_true, decide_eq_true_eq, ne_eq,
        redactValue_eq_true_iff] at hweakens
      obtain ⟨hpath, ⟨rfl, hsensitive⟩, hb⟩ := hweakens
      exact ⟨keys, b, hwalk, fun hb' => hb ⟨hb', hsensitive⟩, hpath, hsensitive⟩
  · rintro ⟨keys, b, hwalk, hb, hpath, hsensitive⟩
    have hne : deepEqual b (.bool true) = false := by
      rw [← Bool.not_eq_true, deepEqual_true_iff]
      exact hb
    let f : FieldChange :=
      { path := pathOf path keys, before := redactValue env b (pathOf path keys)
        after := redactValue env (.bool true) (pathOf path keys)
        risk := fieldRisk env (pathOf path keys) b (.bool true) }
    have hf : f ∈ fieldChange env (pathOf path keys) b (.bool true) := by
      rw [fieldChange, hne]
      exact List.mem_singleton_self f
    refine ⟨f, ⟨keys, b, .bool true, hwalk, .inr rfl, hf⟩, ?_⟩
    simp [f, weakens, boolBecameTrue, redactValue_eq_true_iff, hpath, hsensitive, hb]

theorem valueAt_nil (v : Value) : valueAt v [] = some v := by
  cases v <;> rfl

theorem getD_valueAt_obj {m : Fields} {t' : Value}
    (hwalk : walkTo ((m.get key).getD .null) t' keys ≠ none ∨
      walkTo t' ((m.get key).getD .null) keys ≠ none) :
    (valueAt (.obj m) (key :: keys)).getD .null =
      (valueAt ((m.get key).getD .null) keys).getD .null := by
  rw [valueAt]
  cases hget : m.get key with
  | some v => rfl
  | none =>
    -- the walk ends at the key that is missing
    cases keys with
    | nil => rfl
    | cons k keys =>
      simp only [hget, Option.getD_none, walkTo] at hwalk
      simp at hwalk

theorem getD_valueAt_of_walkTo (h : walkTo v w keys = some (b, t)) :
    (valueAt v keys).getD .null = b ∧ (valueAt w keys).getD .null = t := by
  induction keys generalizing v w with
  | nil =>
    cases h
    simp [valueAt_nil]
  | cons key keys ih =>
    obtain ⟨m, m', rfl, rfl, hrest⟩ := walkTo_cons h
    have hne : walkTo ((m.get key).getD .null) ((m'.get key).getD .null) keys ≠ none := by
      simp [hrest]
    rw [getD_valueAt_obj (.inl hne), getD_valueAt_obj (.inr hne)]
    exact ih hrest

theorem map_lowerRune_ofString (table : CaseTable) {s : String}
    (h : s.toList.all (fun c => c.toNat < 0x80 && c.toLower = c) = true) :
    (ofString s).map (lowerRune table) = ofString s := by
  rw [ofString, List.map_map]
  refine List.map_congr_left fun c hc => ?_
  obtain ⟨hascii, hlower⟩ : c.toNat < 0x80 ∧ c.toLower = c := by
    simpa using List.all_eq_true.mp h c hc
  rw [Function.comp, lowerRune, table.ascii c hascii, hlower]

theorem isInsecurePath_pathOf (hkey : keys.getLast? = some key)
    (hinsecure : key = "insecure" ∨ key = "insecure_skip_verify") :
    isInsecurePath (toLower env.caseTable (pathOf path keys)) = true := by
  obtain ⟨before, rfl⟩ := List.getLast?_eq_some_iff.mp hkey
  have hpath : pathOf path (before ++ [key]) = pathOf path before ++ ofString ("." ++ key) := by
    rw [pathOf, List.foldl_append, List.foldl_cons, List.foldl_nil, child, List.append_assoc,
      ofString, ofString, ofString, String.toList_append, List.map_append]
    rfl
  rw [hpath, toLower_eq_map, List.map_append, isInsecurePath, Bool.or_eq_true, Bool.or_eq_true]
  rcases hinsecure with rfl | rfl
  · rw [map_lowerRune_ofString env.caseTable (by decide)]
    exact .inl (.inl (List.isSuffixOf_iff_suffix.mpr (List.suffix_append _ _)))
  · rw [map_lowerRune_ofString env.caseTable (by decide)]
    exact .inl (.inr (List.isSuffixOf_iff_suffix.mpr (List.suffix_append _ _)))

theorem seenAt_of_weakenedAt (hweak : WeakenedAt v w keys) (hwalk : (walkTo v w keys).isSome = true)
    (hsensitive : isSensitivePath env (pathOf path keys) = false) : SeenAt env path v w keys := by
  obtain ⟨hlast, hw, hv⟩ := hweak
  obtain ⟨⟨b, t⟩, hwalk⟩ := Option.isSome_iff_exists.mp hwalk
  obtain ⟨hb, ht⟩ := getD_valueAt_of_walkTo hwalk
  rw [hw, Option.getD_some] at ht
  subst ht
  refine ⟨b, hwalk, ?_, ?_, hsensitive⟩
  · rintro rfl
    cases hvalue : valueAt v keys with
    | none => simp [hvalue] at hb
    | some x => simp_all
  · rcases hlast with hlast | hlast
    · exact isInsecurePath_pathOf hlast (.inl rfl)
    · exact isInsecurePath_pathOf hlast (.inr rfl)

end Walk

section Json

variable {b t v w : Value} {keys : List String}

theorem sameJson_get {m m' : Fields} (h : SameMembers m m') (key : String) :
    SameJson ((m.get key).getD .null) ((m'.get key).getD .null) := by
  induction m generalizing m' with
  | nil =>
    cases m' with
    | nil => exact trivial
    | cons k w m' => cases h
  | cons k v m ih =>
    cases m' with
    | nil => cases h
    | cons k' w m' =>
      obtain ⟨rfl, hv, hm⟩ := h
      rw [Fields.get, Fields.get]
      split
      · exact hv
      · exact ih hm

theorem sameJson_walkTo (h : SameJson v w) (hwalk : walkTo v w keys = some (b, t)) :
    SameJson b t := by
  induction keys generalizing v w with
  | nil =>
    cases hwalk
    exact h
  | cons key keys ih =>
    obtain ⟨m, m', rfl, rfl, hrest⟩ := walkTo_cons hwalk
    exact ih (sameJson_get h key) hrest

theorem eq_true_of_sameJson (h : SameJson b (.bool true)) : b = .bool true := by
  cases b with
  | float f => cases f <;> simp_all [SameJson, SameScalar, scalarOf, Scalar.Same]
  | time text =>
    by_cases hstrict : isStrictTime text = true <;>
      simp_all [SameJson, SameScalar, scalarOf, Scalar.Same]
  | _ => simp_all [SameJson, SameScalar, scalarOf, Scalar.Same]

theorem indistinct_iff_of_seenAt {path : GoString} (h : SeenAt env path v w keys) :
    Indistinct v w ↔ isEncodable v = false ∧ isEncodable w = false := by
  obtain ⟨b, hwalk, hb, -⟩ := h
  refine or_iff_left fun hsame => hb (eq_true_of_sameJson (sameJson_walkTo hsame.2.2 hwalk))

end Json

variable {rule : Rule} {cd : ComponentDiff}

section Rules

variable {id : GoString} {changes : List FieldChange}

theorem mem_appendRule {rules : List Rule} {r : Rule} :
    r ∈ appendRule rules rule ↔ r ∈ rules ∨ r = rule := by
  unfold appendRule
  split
  · next h => exact ⟨.inl, fun hr => hr.elim (fun hr => hr) fun hr => hr ▸ h⟩
  · rw [List.mem_append, List.mem_singleton]

theorem mem_foldl_rules {f : List Rule → FieldChange → List Rule} {p : FieldChange → Bool} {r : Rule}
    (h : ∀ rules x, r ∈ f rules x ↔ r ∈ rules ∨ p x = true) (rules : List Rule) :
    r ∈ changes.foldl f rules ↔ r ∈ rules ∨ ∃ x ∈ changes, p x = true := by
  induction changes generalizing rules with
  | nil => simp
  | cons x changes ih => rw [List.foldl_cons, ih, h, List.exists_mem_cons_iff, or_assoc]

theorem mem_componentModifiedRules_iff :
    .transportSecurityWeakened ∈ componentModifiedRules env id changes ↔
      ∃ f ∈ changes, weakens env f = true := by
  rw [componentModifiedRules, mem_foldl_rules (p := weakens env)]
  · simp
  · intro rules f
    dsimp only
    split_ifs <;> simp_all [mem_appendRule]

theorem Risk.rank_le_max_left (r s : Risk) : r.rank ≤ (r.max s).rank := by
  rw [Risk.rank_max]
  exact Nat.le_max_left _ _

theorem Risk.rank_le_max_right (r s : Risk) : s.rank ≤ (r.max s).rank := by
  rw [Risk.rank_max]
  exact Nat.le_max_right _ _

theorem Risk.eq_high {r : Risk} (h : 3 ≤ r.rank) : r = .high := by
  cases r <;> simp_all [Risk.rank]

theorem rank_foldl_risks {f : Risk → FieldChange → Risk} (h : ∀ r x, r.rank ≤ (f r x).rank)
    (r : Risk) : r.rank ≤ (changes.foldl f r).rank := by
  induction changes generalizing r with
  | nil => exact le_rfl
  | cons x changes ih => exact (h r x).trans (ih _)

theorem componentModifiedRisk_eq_high (h : ∃ f ∈ changes, weakens env f = true) :
    componentModifiedRisk env id changes = .high := by
  obtain ⟨f, hf, hweakens⟩ := h
  obtain ⟨before, after, rfl⟩ := List.append_of_mem hf
  rw [componentModifiedRisk, List.foldl_append, List.foldl_cons]
  refine Risk.eq_high (le_trans ?_ (rank_foldl_risks (fun r x => ?_) _))
  · dsimp only
    rw [hweakens, Bool.or_true, if_pos rfl]
    split
    · exact (Risk.rank_le_max_right _ .high).trans (Risk.rank_le_max_left _ _)
    · exact Risk.rank_le_max_right _ .high
  · have hauth : r.rank ≤ (if isAuthOrHeaders (toLower env.caseTable x.path) || weakens env x then
        r.max .high else r).rank := by
      split
      · exact Risk.rank_le_max_left r _
      · exact le_rfl
    dsimp only
    split
    · exact hauth.trans (Risk.rank_le_max_left _ _)
    · exact hauth

end Rules

open Engine

section Items

variable {e : Engine} {base target : Graph}

namespace Engine

/-- The diffs are added along with their risks, so that these folds are not of the form
`Grows`. -/
theorem mem_riskItems_foldl {α : Type} {f : Engine → α → Engine} {l : List α} {item : RiskItem}
    (h : ∀ e x, e.riskItems ⊆ (f e x).riskItems) (hitem : item ∈ e.riskItems) :
    item ∈ (l.foldl f e).riskItems :=
  List.foldlRecOn l f (motive := fun e => item ∈ e.riskItems) hitem fun e he x _ => h e x he

theorem exists_id_addRisk (e : Engine) (item : RiskItem) :
    ∃ i ∈ (e.addRisk item).riskItems, i.id = item.id := by
  unfold addRisk
  split
  · next h =>
    obtain ⟨i, hi, heq⟩ := List.any_eq_true.mp h
    exact ⟨i, hi, of_decide_eq_true heq⟩
  · exact ⟨_, List.mem_append_right _ (List.mem_singleton_self _), rfl⟩

def componentItem (cd : ComponentDiff) (rule : Rule) : RiskItem where
  id := rule.name ++ ":" ++ cd.component.path
  risk := cd.risk
  category := riskCategory rule
  rule := rule
  title := titleForRule rule
  description := rule.name
  affectedPaths := dedupeSorted [cd.component.path]
  affectedPipelines := dedupeSorted cd.impactedPipelines

theorem componentItem_inj {cd' : ComponentDiff} {rule' : Rule}
    (h : (componentItem cd rule).id = (componentItem cd' rule').id) :
    rule = rule' ∧ cd.component.path = cd'.component.path := by
  have hcolon : ∀ r : Rule, Rune.char ':' ∉ ofString r.name := by
    intro r
    cases r <;> decide
  have hinj : ∀ r r' : Rule, r.name = r'.name → r = r' := by
    intro r r'
    cases r <;> cases r' <;> decide
  simp only [componentItem, List.append_assoc] at h
  obtain ⟨hname, hpath⟩ := append_sep_inj (hcolon rule) (hcolon rule') h
  exact ⟨hinj _ _ (ofString_injective hname), hpath⟩

def ItemsOf (L : List ComponentDiff) (e : Engine) : Prop :=
  ∀ i ∈ e.riskItems, ∃ cd ∈ L, ∃ rule, i = componentItem cd rule

theorem itemsOf_addComponent {L : List ComponentDiff} (hcd : cd ∈ L)
    (he : ItemsOf L e) : ItemsOf L (e.addComponent cd) := by
  refine List.foldlRecOn cd.rules _ (motive := ItemsOf L) he fun e he rule _ i hi => ?_
  unfold addRule addRisk at hi
  split at hi
  · exact he i hi
  · rcases List.mem_append.mp hi with hi | hi
    · exact he i hi
    · exact ⟨cd, hcd, rule, List.mem_singleton.mp hi⟩

theorem exists_id_addComponent (e : Engine) (hrule : rule ∈ cd.rules) :
    ∃ i ∈ (e.addComponent cd).riskItems, i.id = (componentItem cd rule).id := by
  obtain ⟨before, after, hsplit⟩ := List.append_of_mem hrule
  unfold addComponent
  rw [hsplit, List.foldl_append, List.foldl_cons]
  obtain ⟨i, hi, hid⟩ := exists_id_addRisk _ _
  have hgrows (e : Engine) (item : RiskItem) : Grows (fun _ => False) e (e.addRisk item) :=
    grows_addRisk e item
  exact ⟨i, (Grows.foldl (fun e _ _ => hgrows e _) _).riskItems hi, hid⟩

theorem componentItem_mem {L : List ComponentDiff}
    (hL : ∀ cd ∈ L, ∀ cd' ∈ L, cd.component.path = cd'.component.path → cd = cd')
    (hcd : cd ∈ L) (hrule : rule ∈ cd.rules)
    (he : e.riskItems = []) : componentItem cd rule ∈ (L.foldl addComponent e).riskItems := by
  have hitems : ItemsOf L (L.foldl addComponent e) := by
    refine List.foldlRecOn L addComponent (motive := ItemsOf L) ?_ fun e he cd hcd =>
      itemsOf_addComponent hcd he
    simp [ItemsOf, he]
  obtain ⟨i, hi, hid⟩ : ∃ i ∈ (L.foldl addComponent e).riskItems,
      i.id = (componentItem cd rule).id := by
    obtain ⟨before, after, hsplit⟩ := List.append_of_mem hcd
    rw [hsplit, List.foldl_append, List.foldl_cons]
    obtain ⟨i, hi, hid⟩ := exists_id_addComponent (before.foldl addComponent e) hrule
    exact ⟨i, mem_riskItems_foldl (fun e cd => (grows_addComponent e cd).riskItems) hi, hid⟩
  obtain ⟨cd', hcd', rule', rfl⟩ := hitems i hi
  obtain ⟨rfl, hpath⟩ := componentItem_inj hid
  exact hL cd' hcd' cd hcd hpath ▸ hi

end Engine

theorem name_append_inj {sep : Char} (hsep : ∀ cat : Category, Rune.char sep ∉ ofString cat.name)
    {cat cat' : Category} {id id' : GoString}
    (h : ofString cat.name ++ .char sep :: id = ofString cat'.name ++ .char sep :: id') :
    cat = cat' ∧ id = id' := by
  have hinj : ∀ cat cat' : Category, cat.name = cat'.name → cat = cat' := by
    intro cat cat'
    cases cat <;> cases cat' <;> decide
  obtain ⟨hname, hid⟩ := append_sep_inj (hsep cat) (hsep cat') h
  exact ⟨hinj _ _ (ofString_injective hname), hid⟩

theorem path_componentRef_inj {cat cat' : Category} {id id' : GoString}
    (h : (componentRef cat id).path = (componentRef cat' id').path) : cat = cat' ∧ id = id' := by
  simp only [componentRef, List.append_assoc] at h
  exact name_append_inj (by intro cat; cases cat <;> decide) h

theorem component_componentDiff {cat : Category} {id : GoString}
    (h : e.componentDiff env cat id = some cd) : cd.component = componentRef cat id := by
  unfold componentDiff at h
  split at h
  · cases h
    rfl
  · cases h
    rfl
  · split at h
    · cases h
    · cases h
      rfl
  · cases h

theorem mem_componentDiffs (h : cd ∈ componentDiffs env base target) :
    ∃ cat id, componentDiff env { base, target } cat id = some cd := by
  obtain ⟨⟨cat, id⟩, -, hcd⟩ := List.mem_filterMap.mp h
  exact ⟨cat, id, hcd⟩

theorem componentDiffs_inj :
    ∀ cd ∈ componentDiffs env base target, ∀ cd' ∈ componentDiffs env base target,
      cd.component.path = cd'.component.path → cd = cd' := by
  intro cd hcd cd' hcd' hpath
  obtain ⟨cat, id, hdiff⟩ := mem_componentDiffs hcd
  obtain ⟨cat', id', hdiff'⟩ := mem_componentDiffs hcd'
  rw [component_componentDiff hdiff, component_componentDiff hdiff'] at hpath
  obtain ⟨rfl, rfl⟩ := path_componentRef_inj hpath
  exact Option.some.inj (hdiff.symm.trans hdiff')

theorem componentItem_mem_runEngine
    (hcd : cd ∈ componentDiffs env base target) (hrule : rule ∈ cd.rules) :
    componentItem cd rule ∈ (runEngine env base target).riskItems := by
  have hfirst : componentItem cd rule ∈
      (compareComponents env { base, target }).riskItems :=
    componentItem_mem componentDiffs_inj hcd hrule rfl
  refine (env.sortSlice.perm _ _).mem_iff.mpr ?_
  refine (grows_compareSecurity env _).riskItems ?_
  refine mem_riskItems_foldl (fun e ed => (grows_addEndpoint e ed).riskItems) ?_
  exact mem_riskItems_foldl (fun e pd => (grows_addPipeline e pd).riskItems) hfirst

theorem overallRisk_eq_high (hcd : cd ∈ componentDiffs env base target) (hrisk : cd.risk = .high) :
    (runEngine env base target).overallRisk = .high := by
  have hmem : Risk.high ∈ (runEngine env base target).riskItems.map (·.risk) ++
      (runEngine env base target).risks := by
    simp only [risks, List.mem_append, List.mem_map]
    exact .inr (.inl (.inl ⟨cd, (components_runEngine env base target).mem_iff.mpr hcd, hrisk⟩))
  exact Risk.eq_high ((Risk.rank_foldl_max _ .none).2 _ hmem)

end Items

section Result

variable {a b : List UInt8} {da db : Option Document} {ctx : BlastRadiusContext} {cat : Category}
  {id : String} {v w : Value}

theorem rules_componentDiff
    (hv : componentAt (rootOf da) cat id = some v) (hw : componentAt (rootOf db) cat id = some w)
    (hcd : componentDiff env
      { base := parseGraph (rootOf da), target := parseGraph (rootOf db) } cat id = some cd) :
    ¬Indistinct v w ∧
      cd.rules = componentModifiedRules env id (changedFields env (componentRef cat id).path v w) ∧
      cd.risk = componentModifiedRisk env id (changedFields env (componentRef cat id).path v w) := by
  have hb := lookup_parseComponents (isOrdered_rootOf da) cat id
  have ht := lookup_parseComponents (isOrdered_rootOf db) cat id
  rw [hv] at hb
  rw [hw] at ht
  simp only [componentDiff, parseGraph, hb, ht, Option.map_some] at hcd
  split at hcd
  · cases hcd
  · next hne =>
    cases hcd
    rw [canonical_eq_iff] at hne
    exact ⟨hne, rfl, rfl⟩

/-- A component that both documents have is listed when JSON tells its configurations apart. -/
theorem exists_componentDiff (env : Environment)
    (hv : componentAt (rootOf da) cat id = some v) (hw : componentAt (rootOf db) cat id = some w)
    (hne : ¬Indistinct v w) :
    ∃ cd ∈ componentDiffs env (parseGraph (rootOf da)) (parseGraph (rootOf db)),
      componentDiff env
        { base := parseGraph (rootOf da), target := parseGraph (rootOf db) } cat id = some cd := by
  have hb := lookup_parseComponents (isOrdered_rootOf da) cat id
  have ht := lookup_parseComponents (isOrdered_rootOf db) cat id
  rw [hv] at hb
  rw [hw] at ht
  have hdiff : componentDiff env
      { base := parseGraph (rootOf da), target := parseGraph (rootOf db) } cat id ≠ none := by
    rw [ne_eq, componentDiff_eq_none_iff]
    simp only [parseGraph, hb, ht, Option.map_some]
    exact hne
  obtain ⟨cd, hcd⟩ := Option.ne_none_iff_exists'.mp hdiff
  have hmem : (cat, ofString id) ∈ componentIDs
      { base := parseGraph (rootOf da), target := parseGraph (rootOf db) } := by
    refine mem_componentIDs.mpr (.inl (isSome_lookup_iff.mp ?_))
    simp only [parseGraph, hb, Option.map_some, Option.isSome_some]
  exact ⟨cd, List.mem_filterMap.mpr ⟨_, hmem, hcd⟩, hcd⟩

theorem exists_weakens_changedFields (path : GoString) :
    (∃ f ∈ changedFields env path v w, weakens env f = true) ↔
      ∃ keys, SeenAt env path v w keys := by
  rw [← exists_weakens_iff]
  simp only [changedFields, (env.sortSlice.perm _ _).mem_iff]

/-- A component that both documents have is flagged exactly when a weakening is seen and one of the
configurations has a JSON. -/
theorem flagsWeakening_iff (ha : env.unmarshal a = .ok da) (hb : env.unmarshal b = .ok db)
    (hvalid : (compareWithContext env a b ctx).valid = true)
    (hv : componentAt (rootOf da) cat id = some v)
    (hw : componentAt (rootOf db) cat id = some w) :
    ((compareWithContext env a b ctx).FlagsWeakening (componentRef cat id) ∧
        (compareWithContext env a b ctx).summary.overallRisk = .high) ↔
      (isEncodable v = true ∨ isEncodable w = true) ∧
        ∃ keys, SeenAt env (componentRef cat id).path v w keys := by
  rw [compareWithContext_of_valid ha hb hvalid]
  have hperm := components_runEngine env (parseGraph (rootOf da)) (parseGraph (rootOf db))
  constructor
  · rintro ⟨⟨cd, hcd, hcomponent, hrule, -⟩, -⟩
    obtain ⟨cat', id', hdiff⟩ := mem_componentDiffs (hperm.mem_iff.mp hcd)
    have href := (component_componentDiff hdiff).symm.trans hcomponent
    obtain ⟨rfl, rfl⟩ := path_componentRef_inj (congrArg ComponentRef.path href)
    obtain ⟨hne, hrules, -⟩ := rules_componentDiff hv hw hdiff
    rw [hrules, mem_componentModifiedRules_iff, exists_weakens_changedFields] at hrule
    refine ⟨?_, hrule⟩
    obtain ⟨keys, hseen⟩ := hrule
    rw [indistinct_iff_of_seenAt hseen, not_and_or] at hne
    simpa using hne
  · rintro ⟨hencodable, hseen⟩
    have hne : ¬Indistinct v w := by
      obtain ⟨keys, hseen⟩ := hseen
      rw [indistinct_iff_of_seenAt hseen]
      rintro ⟨hv', hw'⟩
      simp [hv', hw'] at hencodable
    obtain ⟨cd, hcd, hdiff⟩ := exists_componentDiff env hv hw hne
    obtain ⟨-, hrules, hrisk⟩ := rules_componentDiff hv hw hdiff
    have hweakens := (exists_weakens_changedFields (componentRef cat id).path).mpr hseen
    have hhigh : cd.risk = .high := by rw [hrisk, componentModifiedRisk_eq_high hweakens]
    have hrule : .transportSecurityWeakened ∈ cd.rules := by
      rw [hrules, mem_componentModifiedRules_iff]
      exact hweakens
    have hcomponent := component_componentDiff hdiff
    refine ⟨⟨cd, hperm.mem_iff.mpr hcd, hcomponent, hrule, _,
      componentItem_mem_runEngine hcd hrule, rfl, hhigh, ?_⟩, overallRisk_eq_high hcd hhigh⟩
    have hpath : (componentRef cat id).path ≠ [] := by simp [componentRef, ofString]
    rw [componentItem, hcomponent, dedupeSorted, mem_sortedSet]
    simp [hpath]

/-- A weakening of a component is flagged exactly when one of its weakenings lies at a path along
which both configurations have mappings of strings, and which is not sensitive, and one of the
configurations has a JSON. -/
theorem transport_weakening_flagged (ha : env.unmarshal a = .ok da) (hb : env.unmarshal b = .ok db)
    (hvalid : (compareWithContext env a b ctx).valid = true)
    (hv : componentAt (rootOf da) cat id = some v)
    (hw : componentAt (rootOf db) cat id = some w) :
    ((∃ keys, WeakenedAt v w keys) →
        (compareWithContext env a b ctx).FlagsWeakening (componentRef cat id) ∧
          (compareWithContext env a b ctx).summary.overallRisk = .high) ↔
      ((∃ keys, WeakenedAt v w keys) →
        (isEncodable v = true ∨ isEncodable w = true) ∧
          ∃ keys, SeenAt env (componentRef cat id).path v w keys) :=
  imp_congr_right fun _ => flagsWeakening_iff ha hb hvalid hv hw

end Result

section Sample

/-- The configuration of an exporter with a `tls` block. -/
def exporterConfig (tls : List (String × Value)) : Value :=
  .obj (.ofList (("endpoint", .str "collector:4317") :: tls))

def exporterDocument (tls : List (String × Value))
    (h : (Fields.ofList [("exporters", .obj (.ofList [("otlp", exporterConfig tls)]))]).isOrdered =
      true) : Document := ⟨_, h⟩

def tlsBlock (insecure : Bool) : List (String × Value) :=
  [("tls", .obj (.ofList [("insecure", .bool insecure)]))]

def noBlock : Document := exporterDocument [] (by decide +kernel)

def secureBlock : Document := exporterDocument (tlsBlock false) (by decide +kernel)

def insecureBlock : Document := exporterDocument (tlsBlock true) (by decide +kernel)

def noBlockText : String := "exporters:\n  otlp:\n    endpoint: collector:4317\n"

def secureBlockText : String := noBlockText ++ "    tls:\n      insecure: false\n"

def insecureBlockText : String := noBlockText ++ "    tls:\n      insecure: true\n"

def newBlockEnvironment : Environment :=
  .knowing noBlockText insecureBlockText noBlock insecureBlock

/-- A `tls` block that is new turns transport security off, and the diff has a low risk. -/
theorem new_block_not_flagged :
    componentAt noBlock.root .exporters "otlp" = some (exporterConfig []) ∧
      componentAt insecureBlock.root .exporters "otlp" = some (exporterConfig (tlsBlock true)) ∧
      WeakenedAt (exporterConfig []) (exporterConfig (tlsBlock true)) ["tls", "insecure"] ∧
      (compare newBlockEnvironment (textBytes noBlockText)
        (textBytes insecureBlockText)).valid = true ∧
      (compare newBlockEnvironment (textBytes noBlockText)
        (textBytes insecureBlockText)).riskItems = [] ∧
      (compare newBlockEnvironment (textBytes noBlockText)
        (textBytes insecureBlockText)).summary.overallRisk = .low := by
  rw [newBlockEnvironment, compare_knowing (by decide) (by decide +kernel) (by decide +kernel)]
  refine ⟨by decide +kernel, by decide +kernel, ⟨by decide, by decide +kernel, by decide +kernel⟩,
    rfl, by decide +kernel, by decide +kernel⟩

def sameBlockEnvironment : Environment :=
  .knowing secureBlockText insecureBlockText secureBlock insecureBlock

theorem transport_weakening_flagged_same_block :
    (compareWithContext sameBlockEnvironment (textBytes secureBlockText)
        (textBytes insecureBlockText) {}).FlagsWeakening (componentRef .exporters "otlp") ∧
      (compareWithContext sameBlockEnvironment (textBytes secureBlockText)
        (textBytes insecureBlockText) {}).summary.overallRisk = .high := by
  have ha : sameBlockEnvironment.unmarshal (textBytes secureBlockText) = .ok (some secureBlock) :=
    Environment.unmarshal_knowing_left _ _ _ _
  have hb : sameBlockEnvironment.unmarshal (textBytes insecureBlockText) =
      .ok (some insecureBlock) :=
    Environment.unmarshal_knowing_right (by decide) _ _
  have hvalid : (compareWithContext sameBlockEnvironment (textBytes secureBlockText)
      (textBytes insecureBlockText) {}).valid = true := by
    rw [compareWithContext_eq ha hb (by decide +kernel) (by decide +kernel)]
    rfl
  have hweak : WeakenedAt (exporterConfig (tlsBlock false)) (exporterConfig (tlsBlock true))
      ["tls", "insecure"] := ⟨by decide, by decide +kernel, by decide +kernel⟩
  have hv : componentAt (rootOf (some secureBlock)) .exporters "otlp" =
      some (exporterConfig (tlsBlock false)) := by decide +kernel
  have hw : componentAt (rootOf (some insecureBlock)) .exporters "otlp" =
      some (exporterConfig (tlsBlock true)) := by decide +kernel
  refine (transport_weakening_flagged ha hb hvalid hv hw).mpr (fun _ => ⟨?_, ?_⟩) ⟨_, hweak⟩
  · exact .inl (by decide +kernel)
  · exact ⟨_, seenAt_of_weakenedAt hweak (by decide +kernel) (by decide +kernel)⟩

end Sample

end OtelMagnify.Diff
