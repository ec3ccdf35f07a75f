import OtelMagnify.Diff.Symmetry
import OtelMagnify.Diff.Weakening
import OtelMagnify.Lib.GoOrder

/-! The diffs of two documents in both directions. Each entry has its counterpart, with what is added
and what is removed exchanged; the risk of a change, its rules and its title depend on the
direction. -/
namespace OtelMagnify.Diff
open Yaml GoString

variable {env : Environment}

def ChangeKind.swap : ChangeKind → ChangeKind
  | .added => .removed
  | .removed => .added
  | kind => kind

def FieldChange.values (f : FieldChange) : GoString × Value × Value := (f.path, f.before, f.after)

def FieldChange.swapped (f : FieldChange) : GoString × Value × Value := (f.path, f.after, f.before)

/-- The changed fields are in the order of their paths; fields of one path may be in any order. -/
structure ComponentDiff.Dual (cd cd' : ComponentDiff) : Prop where
  id : cd'.id = cd.id
  kind : cd'.kind = cd.kind.swap
  component : cd'.component = cd.component
  before : cd'.before = cd.after
  after : cd'.after = cd.before
  paths : cd'.changedFields.map (·.path) = cd.changedFields.map (·.path)
  fields : (cd'.changedFields.map FieldChange.values).Perm
    (cd.changedFields.map FieldChange.swapped)
  impactedPipelines : cd'.impactedPipelines = cd.impactedPipelines

structure PipelineRefChange.Dual (ch ch' : PipelineRefChange) : Prop where
  section_ : ch'.section_ = ch.section_
  componentID : ch'.componentID = ch.componentID
  kind : ch'.kind = ch.kind.swap
  fromIndex : ch'.fromIndex = ch.toIndex
  toIndex : ch'.toIndex = ch.fromIndex

structure PipelineDiff.Dual (pd pd' : PipelineDiff) : Prop where
  id : pd'.id = pd.id
  kind : pd'.kind = pd.kind.swap
  pipelineKey : pd'.pipelineKey = pd.pipelineKey
  signal : pd'.signal = pd.signal
  before : pd'.before = pd.after
  after : pd'.after = pd.before
  refs : List.Forall₂ PipelineRefChange.Dual pd.componentRefChanges pd'.componentRefChanges

/-- A modified endpoint names the component that has it in the base. -/
structure EndpointDiff.Dual (ed ed' : EndpointDiff) : Prop where
  id : ed'.id = ed.id
  kind : ed'.kind = ed.kind.swap
  fieldPath : ed'.fieldPath = ed.fieldPath
  before : ed'.before = ed.after
  after : ed'.after = ed.before
  component : ed.kind ≠ .modified →
    ed'.component = ed.component ∧ ed'.endpointKind = ed.endpointKind

section Lists

variable {ι α : Type} {R : α → α → Prop} {f f' : ι → Option α} {ids ids' : List ι}
  {key : α → GoString}

theorem Both.symm {x y : Option α} (h : Both R x y) : Both (flip R) y x := by
  cases x <;> cases y <;> exact h

theorem exists_dual (hmem : ∀ x, x ∈ ids → x ∈ ids') (hR : ∀ x ∈ ids, Both R (f x) (f' x)) :
    ∀ a ∈ ids.filterMap f, ∃ a' ∈ ids'.filterMap f', R a a' := by
  intro a ha
  obtain ⟨x, hx, hfx⟩ := List.mem_filterMap.mp ha
  have hboth := hR x hx
  rw [hfx] at hboth
  cases hfx' : f' x with
  | none =>
    rw [hfx'] at hboth
    cases hboth
  | some a' =>
    rw [hfx'] at hboth
    exact ⟨a', List.mem_filterMap.mpr ⟨x, hmem x hx, hfx'⟩, hboth⟩

theorem nodup_keys_filterMap (hinj : ∀ x y a b, f x = some a → f y = some b → key a = key b → x = y)
    (h : ids.Nodup) : ((ids.filterMap f).map key).Nodup := by
  rw [List.map_filterMap]
  refine h.filterMap fun x y k hx hy => ?_
  obtain ⟨a, ha, rfl⟩ := Option.map_eq_some_iff.mp hx
  obtain ⟨b, hb, hkey⟩ := Option.map_eq_some_iff.mp hy
  exact hinj x y a b ha hb hkey.symm

/-- Lists of diffs whose entries correspond, one for each place, correspond when they are sorted. -/
theorem forall₂_sort_filterMap (s : SortSlice) (hids : ids.Nodup) (hids' : ids'.Nodup)
    (hmem : ∀ x, x ∈ ids ↔ x ∈ ids') (hR : ∀ x ∈ ids, Both R (f x) (f' x))
    (hkey : ∀ a b, R a b → key a = key b)
    (hinj : ∀ x y a b, f x = some a → f y = some b → key a = key b → x = y)
    (hinj' : ∀ x y a b, f' x = some a → f' y = some b → key a = key b → x = y)
    (hstring : ∀ x ∈ ids, ∀ a, f x = some a → IsString (key a)) :
    List.Forall₂ R (s.sort (fun a b => less (key a) (key b)) (ids.filterMap f))
      (s.sort (fun a b => less (key a) (key b)) (ids'.filterMap f')) := by
  refine s.forall₂_sort ?_ (nodup_keys_filterMap hinj hids) (nodup_keys_filterMap hinj' hids') hkey
    (exists_dual (fun x hx => (hmem x).mp hx) hR) ?_
  · intro a ha
    obtain ⟨x, hx, hfx⟩ := List.mem_filterMap.mp ha
    exact hstring x hx a hfx
  · exact exists_dual (R := flip R) (fun x hx => (hmem x).mpr hx)
      fun x hx => (hR x ((hmem x).mpr hx)).symm

theorem forall₂_filterMap (hR : ∀ x ∈ ids, Both R (f x) (f' x)) :
    List.Forall₂ R (ids.filterMap f) (ids.filterMap f') := by
  induction ids with
  | nil => exact .nil
  | cons x ids ih =>
    have hrest := ih fun y hy => hR y (List.mem_cons_of_mem x hy)
    have hx := hR x List.mem_cons_self
    rw [List.filterMap_cons, List.filterMap_cons]
    cases hf : f x <;> cases hf' : f' x <;> simp only [hf, hf', Both] at hx ⊢
    · exact hrest
    · exact .cons hx hrest

end Lists

variable {cat : Category} {id path : GoString}

section Graphs

def IsText (s : GoString) : Prop := ∃ t : String, s = ofString t

theorem IsText.isString {s : GoString} (h : IsText s) : IsString s := by
  obtain ⟨t, rfl⟩ := h
  exact isString_ofString t

theorem isText_append {s t : GoString} (hs : IsText s) (ht : IsText t) : IsText (s ++ t) := by
  obtain ⟨s, rfl⟩ := hs
  obtain ⟨t, rfl⟩ := ht
  exact ⟨s ++ t, (ofString_append s t).symm⟩

theorem isText_child (h : IsText path) (key : String) :
    IsText (child path key) :=
  isText_append (isText_append h ⟨_, rfl⟩) ⟨key, rfl⟩

theorem isText_element (h : IsText path) (i : ℕ) : IsText (element path i) :=
  isText_append (isText_append (isText_append h ⟨_, rfl⟩) ⟨_, rfl⟩) ⟨_, rfl⟩

theorem isText_pathOf (h : IsText path) (keys : List String) :
    IsText (pathOf path keys) := by
  induction keys generalizing path with
  | nil => exact h
  | cons key keys ih => exact ih (isText_child h key)

theorem isText_componentRef (h : IsText id) (cat : Category) : IsText (componentRef cat id).path :=
  isText_append (isText_append ⟨_, rfl⟩ ⟨_, rfl⟩) h

/-- What a graph keeps of a document: the names of components and pipelines are texts, and
references are strings. -/
structure Graph.Sound (g : Graph) : Prop where
  isText_id : ∀ cat, ∀ entry ∈ g.components cat, IsText entry.1
  ref_eq : ∀ cat, ∀ entry ∈ g.components cat, entry.2.ref = componentRef cat entry.1
  isText_name : ∀ entry ∈ g.pipelines, IsText entry.1
  isString_ref : ∀ entry ∈ g.pipelines, ∀ sec, ∀ id ∈ entry.2.refs sec, IsString id

theorem isString_toStringSlice (v : Option Value) : ∀ s ∈ toStringSlice v, IsString s := by
  intro s hs
  obtain ⟨w, -, hw⟩ := List.mem_filterMap.mp hs
  cases w <;> simp only [Value.asString, reduceCtorEq, Option.some.injEq] at hw
  · subst hw
    exact isString_ofString _
  · subst hw
    exact isString_decode _

theorem isString_pipelineShape (m : Fields) (sec : Category) :
    ∀ id ∈ (pipelineShape m).refs sec, IsString id := by
  cases sec with
  | receivers | processors | exporters => exact isString_toStringSlice _
  | connectors | extensions => exact fun _ h => by cases h

theorem parseGraph_sound {root : Fields} (h : root.isOrdered = true) : (parseGraph root).Sound where
  isText_id := by
    rintro cat ⟨key, c⟩ hmem
    obtain ⟨id, v, rfl, -, -⟩ := (mem_parseComponents h).mp hmem
    exact ⟨id, rfl⟩
  ref_eq := by
    rintro cat ⟨key, c⟩ hmem
    obtain ⟨id, v, rfl, -, rfl⟩ := (mem_parseComponents h).mp hmem
    rfl
  isText_name := by
    rintro ⟨key, p⟩ hmem
    obtain ⟨name, m, rfl, -, -⟩ := (mem_parsePipelines h).mp hmem
    exact ⟨name, rfl⟩
  isString_ref := by
    rintro ⟨key, p⟩ hmem
    obtain ⟨name, m, rfl, -, rfl⟩ := (mem_parsePipelines h).mp hmem
    exact isString_pipelineShape m

theorem mem_of_lookup {α : Type} {m : List (GoString × α)} {key : GoString} {x : α}
    (h : lookup m key = some x) : (key, x) ∈ m := by
  obtain ⟨⟨k, y⟩, hfind, rfl⟩ := Option.map_eq_some_iff.mp h
  have hkey : k = key := by simpa using List.find?_some hfind
  exact hkey ▸ List.mem_of_find?_eq_some hfind

end Graphs

section Components

variable {base target : Graph}

theorem impactedPipelines_comm (hb : base.Sound) (cat : Category) (id : GoString) (ht : target.Sound) :
    impactedPipelines target.pipelines base.pipelines cat id =
      impactedPipelines base.pipelines target.pipelines cat id := by
  refine sortedSet_congr (fun s hs => ?_) fun s => ?_
  · obtain ⟨entry, hentry, rfl⟩ := List.mem_map.mp hs
    rcases List.mem_append.mp (List.mem_filter.mp hentry).1 with hmem | hmem
    · exact (ht.isText_name entry hmem).isString
    · exact (hb.isText_name entry hmem).isString
  · simp only [List.mem_map, List.mem_filter, List.mem_append, or_comm]

theorem values_dual {l l' : List FieldChange} (h : List.Forall₂ FieldChange.Dual l l') :
    l'.map FieldChange.values = l.map FieldChange.swapped := by
  induction h with
  | nil => rfl
  | cons hdual _ ih =>
    rw [List.map_cons, List.map_cons, ih, FieldChange.values, FieldChange.swapped, hdual.1,
      hdual.2.1, hdual.2.2]

variable {b t : Value}

theorem isText_walkDiff (hpath : IsText path) :
    ∀ f ∈ walkDiff env path b t, IsText f.path := by
  intro f hf
  obtain ⟨keys, b', t', -, -, hf⟩ := mem_walkDiff_iff.mp hf
  unfold fieldChange at hf
  split at hf
  · cases hf
  · rw [List.mem_singleton.mp hf]
    exact isText_pathOf hpath keys

/-- The changed fields are the same in both directions. -/
theorem changedFields_dual (env : Environment) (b t : Value) (hpath : IsText path) :
    (changedFields env path t b).map (·.path) = (changedFields env path b t).map (·.path) ∧
      ((changedFields env path t b).map FieldChange.values).Perm
        ((changedFields env path b t).map FieldChange.swapped) := by
  have hvalues := values_dual (walkDiff_dual env b t path)
  constructor
  · refine env.sortSlice.map_sort_eq (fun f hf => (isText_walkDiff hpath f hf).isString) ?_
    have hpaths := congrArg (List.map Prod.fst) hvalues
    rw [List.map_map, List.map_map] at hpaths
    exact List.Perm.of_eq hpaths
  · refine ((env.sortSlice.perm _ _).map _).trans ?_
    rw [hvalues]
    exact ((env.sortSlice.perm _ _).map _).symm

theorem componentDiff_dual (hbase : base.Sound) (htarget : target.Sound) (hid : IsText id) :
    Both ComponentDiff.Dual (Engine.componentDiff env { base, target } cat id)
      (Engine.componentDiff env { base := target, target := base } cat id) := by
  have himpacted := impactedPipelines_comm hbase cat id htarget
  unfold Engine.componentDiff
  cases hb : lookup (base.components cat) id with
  | none =>
    cases ht : lookup (target.components cat) id with
    | none => exact trivial
    | some t => exact ⟨rfl, rfl, rfl, rfl, rfl, rfl, .nil, himpacted⟩
  | some b =>
    cases ht : lookup (target.components cat) id with
    | none => exact ⟨rfl, rfl, rfl, rfl, rfl, rfl, .nil, himpacted⟩
    | some t =>
      dsimp only
      by_cases heq : canonical b.cfg = canonical t.cfg
      · rw [if_pos heq, if_pos heq.symm]
        exact trivial
      · rw [if_neg heq, if_neg (Ne.symm heq)]
        have hfields := changedFields_dual env b.cfg t.cfg (isText_componentRef hid cat)
        exact ⟨rfl, rfl, rfl, rfl, rfl, hfields.1, hfields.2, himpacted⟩

theorem id_componentDiff {e : Engine} {cd : ComponentDiff}
    (h : e.componentDiff env cat id = some cd) : cd.id = cat.name ++ ":" ++ id := by
  unfold Engine.componentDiff at h
  split at h
  · cases h
    rfl
  · cases h
    rfl
  · split at h
    · cases h
    · cases h
      rfl
  · cases h

theorem nodup_componentIDs (e : Engine) : e.componentIDs.Nodup := by
  rw [Engine.componentIDs, List.nodup_flatMap]
  constructor
  · intro cat _
    exact (nodup_sortedSet _).map fun _ _ h => (Prod.mk.inj h).2
  · have hall : Category.all.Nodup := by decide
    refine hall.imp fun {cat cat'} hne => ?_
    rw [Function.onFun, List.disjoint_left]
    rintro ⟨c, id⟩ h h'
    obtain ⟨_, -, heq⟩ := List.mem_map.mp h
    obtain ⟨_, -, heq'⟩ := List.mem_map.mp h'
    exact hne ((Prod.mk.inj heq).1.trans (Prod.mk.inj heq').1.symm)

theorem isText_componentIDs (hbase : base.Sound) (htarget : target.Sound)
    (h : (cat, id) ∈ Engine.componentIDs { base, target }) : IsText id := by
  rcases mem_componentIDs.mp h with h | h
  · obtain ⟨entry, hentry, rfl⟩ := List.mem_map.mp h
    exact hbase.isText_id cat entry hentry
  · obtain ⟨entry, hentry, rfl⟩ := List.mem_map.mp h
    exact htarget.isText_id cat entry hentry

theorem id_inj {cat' : Category} {id' : GoString}
    (h : (cat.name : GoString) ++ ":" ++ id = cat'.name ++ ":" ++ id') :
    cat = cat' ∧ id = id' := by
  simp only [List.append_assoc] at h
  exact name_append_inj (by intro cat; cases cat <;> decide) h

theorem components_dual (hbase : base.Sound) (htarget : target.Sound) :
    List.Forall₂ ComponentDiff.Dual (runEngine env base target).components
      (runEngine env target base).components := by
  have hinj (e : Engine) : ∀ (x y : Category × GoString) (cd cd' : ComponentDiff),
      e.componentDiff env x.1 x.2 = some cd → e.componentDiff env y.1 y.2 = some cd' →
      cd.id = cd'.id → x = y := by
    intro x y cd cd' hx hy heq
    rw [id_componentDiff hx, id_componentDiff hy] at heq
    exact Prod.ext_iff.mpr (id_inj heq)
  have hmem (x : Category × GoString) : x ∈ Engine.componentIDs { base, target } ↔
      x ∈ Engine.componentIDs { base := target, target := base } := by
    rw [mem_componentIDs, mem_componentIDs, or_comm]
  rw [components_eq_sort, components_eq_sort]
  refine forall₂_sort_filterMap env.sortSlice (nodup_componentIDs { base, target })
    (nodup_componentIDs { base := target, target := base }) hmem
    (fun x hx => componentDiff_dual hbase htarget (isText_componentIDs hbase htarget hx))
    (fun _ _ h => h.id.symm) (hinj _) (hinj _) fun x hx cd hcd => ?_
  rw [id_componentDiff hcd]
  exact (isText_append (isText_append ⟨_, rfl⟩ ⟨_, rfl⟩)
    (isText_componentIDs hbase htarget hx)).isString

end Components

section Pipelines

variable {base target : Graph} {p q : PipelineShape}

theorem refChange_dual (sec : Category) (b t : List GoString) (id : GoString) :
    Both PipelineRefChange.Dual (refChange env sec b t id) (refChange env sec t b id) := by
  unfold refChange
  cases indexMap b id <;> cases indexMap t id <;> first | exact trivial | exact ⟨rfl, rfl, rfl, rfl, rfl⟩

theorem refChanges_dual (sec : Category) {b t : List GoString} (hb : ∀ id ∈ b, IsString id)
    (ht : ∀ id ∈ t, IsString id) :
    List.Forall₂ PipelineRefChange.Dual (refChanges env sec b t) (refChanges env sec t b) := by
  have hids : sortedSet (t ++ b) = sortedSet (b ++ t) := by
    refine sortedSet_congr (fun s hs => ?_) fun s => by simp only [List.mem_append, or_comm]
    rcases List.mem_append.mp hs with hs | hs
    · exact ht s hs
    · exact hb s hs
  rw [refChanges, refChanges, hids]
  exact forall₂_filterMap fun id _ => refChange_dual sec b t id

theorem pipelineRefChanges_dual (env : Environment)
    (hp : ∀ sec, ∀ id ∈ p.refs sec, IsString id)
    (hq : ∀ sec, ∀ id ∈ q.refs sec, IsString id) :
    List.Forall₂ PipelineRefChange.Dual (pipelineRefChanges env p q)
      (pipelineRefChanges env q p) :=
  List.rel_append
    (List.rel_append (refChanges_dual _ (hp .receivers) (hq .receivers))
      (refChanges_dual _ (hp .processors) (hq .processors)))
    (refChanges_dual _ (hp .exporters) (hq .exporters))

theorem pipelineDiff_dual (hbase : base.Sound) (htarget : target.Sound) (key : GoString) :
    Both PipelineDiff.Dual (Engine.pipelineDiff env { base, target } key)
      (Engine.pipelineDiff env { base := target, target := base } key) := by
  unfold Engine.pipelineDiff
  cases hb : lookup base.pipelines key with
  | none =>
    cases ht : lookup target.pipelines key with
    | none => exact trivial
    | some q => exact ⟨rfl, rfl, rfl, rfl, rfl, rfl, .nil⟩
  | some p =>
    cases ht : lookup target.pipelines key with
    | none => exact ⟨rfl, rfl, rfl, rfl, rfl, rfl, .nil⟩
    | some q =>
      have hrefs := pipelineRefChanges_dual env
        (hbase.isString_ref _ (mem_of_lookup hb)) (htarget.isString_ref _ (mem_of_lookup ht))
      dsimp only
      cases hrefs' : pipelineRefChanges env p q <;> cases hrefs'' : pipelineRefChanges env q p <;>
        rw [hrefs', hrefs''] at hrefs
      · exact trivial
      · cases hrefs
      · cases hrefs
      · exact ⟨rfl, rfl, rfl, rfl, rfl, rfl, hrefs⟩

theorem pipelineKey_pipelineDiff {e : Engine} {key : GoString} {pd : PipelineDiff}
    (h : e.pipelineDiff env key = some pd) : pd.pipelineKey = key := by
  unfold Engine.pipelineDiff at h
  split at h
  · cases h
    rfl
  · cases h
    rfl
  · split at h
    · cases h
    · cases h
      rfl
  · cases h

theorem pipelines_dual (hbase : base.Sound) (htarget : target.Sound) :
    List.Forall₂ PipelineDiff.Dual (runEngine env base target).pipelines
      (runEngine env target base).pipelines := by
  have hinj (e : Engine) : ∀ (x y : GoString) (pd pd' : PipelineDiff),
      e.pipelineDiff env x = some pd → e.pipelineDiff env y = some pd' →
      pd.pipelineKey = pd'.pipelineKey → x = y := by
    intro x y pd pd' hx hy heq
    rwa [pipelineKey_pipelineDiff hx, pipelineKey_pipelineDiff hy] at heq
  have hmem (x : GoString) : x ∈ Engine.pipelineKeys { base, target } ↔
      x ∈ Engine.pipelineKeys { base := target, target := base } := by
    simp only [Engine.pipelineKeys, mem_sortedSet, List.map_append, List.mem_append, or_comm]
  rw [pipelines_eq_sort, pipelines_eq_sort]
  refine forall₂_sort_filterMap env.sortSlice (nodup_sortedSet _) (nodup_sortedSet _) hmem
    (fun key _ => pipelineDiff_dual hbase htarget key) (fun _ _ h => h.pipelineKey.symm) (hinj _)
    (hinj _) fun key hkey pd hpd => ?_
  rw [pipelineKey_pipelineDiff hpd]
  rw [Engine.pipelineKeys, mem_sortedSet] at hkey
  obtain ⟨entry, hentry, rfl⟩ := List.mem_map.mp hkey
  rcases List.mem_append.mp hentry with hentry | hentry
  · exact (hbase.isText_name entry hentry).isString
  · exact (htarget.isText_name entry hentry).isString

end Pipelines

section Endpoints

variable {base target : Graph}

mutual

theorem isText_walk {path : GoString} (h : IsText path) (v : Value) :
    ∀ entry ∈ walk v path, IsText entry.1 := by
  cases v with
  | obj m =>
    rw [walk, List.forall_mem_cons]
    exact ⟨h, isText_walkMembers h m⟩
  | list l =>
    rw [walk, List.forall_mem_cons]
    exact ⟨h, isText_walkElements h l 0⟩
  | _ => simp only [walk, List.mem_singleton, forall_eq, h]

theorem isText_walkMembers {path : GoString} (h : IsText path) (m : Fields) :
    ∀ entry ∈ walkMembers m path, IsText entry.1 := by
  cases m with
  | nil => simp [walkMembers]
  | cons key v m =>
    rw [walkMembers, List.forall_mem_append]
    exact ⟨isText_walk (isText_child h key) v, isText_walkMembers h m⟩

theorem isText_walkElements {path : GoString} (h : IsText path) (l : Values) (i : ℕ) :
    ∀ entry ∈ walkElements l path i, IsText entry.1 := by
  cases l with
  | nil => simp [walkElements]
  | cons v l =>
    rw [walkElements, List.forall_mem_append]
    exact ⟨isText_walk (isText_element h i) v, isText_walkElements h l (i + 1)⟩

end

theorem mem_of_mem_collect {α : Type} {entries : List (GoString × α)} {entry : GoString × α}
    (h : entry ∈ collect entries) : entry ∈ entries := by
  have hfold : ∀ (l m : List (GoString × α)),
      entry ∈ l.foldl (fun m entry => m.filter (·.1 ≠ entry.1) ++ [entry]) m →
      entry ∈ m ∨ entry ∈ l := by
    intro l
    induction l with
    | nil => exact fun m h => .inl h
    | cons x l ih =>
      intro m h
      rcases ih _ h with h | h
      · rcases List.mem_append.mp h with h | h
        · exact .inl (List.mem_filter.mp h).1
        · exact .inr (List.mem_singleton.mp h ▸ List.mem_cons_self)
      · exact .inr (List.mem_cons_of_mem x h)
  exact (hfold entries [] h).resolve_left (List.not_mem_nil)

theorem isText_extractEndpoints {g : Graph} (hg : g.Sound) :
    ∀ entry ∈ extractEndpoints env g, IsText entry.1 := by
  intro entry hentry
  obtain ⟨cat, -, hcat⟩ := List.mem_flatMap.mp (mem_of_mem_collect hentry)
  obtain ⟨⟨id, c⟩, hc, hwalk⟩ := List.mem_flatMap.mp hcat
  obtain ⟨place, hplace, hat⟩ := List.mem_filterMap.mp hwalk
  have hpath : IsText c.ref.path := by
    rw [hg.ref_eq cat _ hc]
    exact isText_componentRef (hg.isText_id cat _ hc) cat
  unfold endpointAt at hat
  split at hat
  · obtain ⟨_, -, rfl⟩ := Option.map_eq_some_iff.mp hat
    exact isText_walk hpath c.cfg place hplace
  · cases hat

theorem endpointDiff_dual (base target : List (GoString × Endpoint)) (k : GoString) :
    Both EndpointDiff.Dual (Engine.endpointDiff base target k)
      (Engine.endpointDiff target base k) := by
  unfold Engine.endpointDiff
  cases lookup base k with
  | none =>
    cases lookup target k with
    | none => exact trivial
    | some t => exact ⟨rfl, rfl, rfl, rfl, rfl, fun _ => ⟨rfl, rfl⟩⟩
  | some b =>
    cases lookup target k with
    | none => exact ⟨rfl, rfl, rfl, rfl, rfl, fun _ => ⟨rfl, rfl⟩⟩
    | some t =>
      dsimp only
      by_cases heq : b.value.normalized = t.value.normalized
      · rw [if_pos heq, if_pos heq.symm]
        exact trivial
      · rw [if_neg heq, if_neg (Ne.symm heq)]
        exact ⟨rfl, rfl, rfl, rfl, rfl, fun hne => absurd rfl hne⟩

theorem fieldPath_endpointDiff {base target : List (GoString × Endpoint)} {k : GoString}
    {ed : EndpointDiff} (h : Engine.endpointDiff base target k = some ed) : ed.fieldPath = k := by
  unfold Engine.endpointDiff at h
  split at h
  · cases h
    rfl
  · cases h
    rfl
  · split at h
    · cases h
    · cases h
      rfl
  · cases h

theorem endpoints_dual (hbase : base.Sound) (htarget : target.Sound) :
    List.Forall₂ EndpointDiff.Dual (runEngine env base target).endpoints
      (runEngine env target base).endpoints := by
  have hinj (b t : List (GoString × Endpoint)) : ∀ (x y : GoString) (ed ed' : EndpointDiff),
      Engine.endpointDiff b t x = some ed → Engine.endpointDiff b t y = some ed' →
      ed.fieldPath = ed'.fieldPath → x = y := by
    intro x y ed ed' hx hy heq
    rwa [fieldPath_endpointDiff hx, fieldPath_endpointDiff hy] at heq
  rw [endpoints_eq_sort, endpoints_eq_sort]
  refine forall₂_sort_filterMap env.sortSlice (nodup_sortedSet _) (nodup_sortedSet _)
    (fun k => ?_) (fun k _ => endpointDiff_dual _ _ k) (fun _ _ h => h.fieldPath.symm) (hinj _ _)
    (hinj _ _) fun k hk ed hed => ?_
  · simp only [mem_sortedSet, List.map_append, List.mem_append, or_comm]
  · rw [fieldPath_endpointDiff hed]
    rw [mem_sortedSet] at hk
    obtain ⟨entry, hentry, rfl⟩ := List.mem_map.mp hk
    rcases List.mem_append.mp hentry with hentry | hentry
    · exact (isText_extractEndpoints hbase entry hentry).isString
    · exact (isText_extractEndpoints htarget entry hentry).isString

end Endpoints

section Same

/-- A graph compared with itself. -/
theorem runEngine_self (env : Environment) (g : Graph) :
    (runEngine env g g).components = [] ∧ (runEngine env g g).pipelines = [] ∧
      (runEngine env g g).endpoints = [] ∧ (runEngine env g g).security = [] ∧
      (runEngine env g g).riskItems = [] := by
  have hcomponents : componentDiffs env g g = [] := by
    rw [componentDiffs, List.filterMap_eq_nil_iff]
    rintro ⟨cat, id⟩ -
    dsimp only [Engine.componentDiff]
    cases lookup (g.components cat) id with
    | none => rfl
    | some c => exact if_pos rfl
  have hpipelines : pipelineDiffs env g g = [] := by
    rw [pipelineDiffs, List.filterMap_eq_nil_iff]
    intro key _
    rw [pipelineDiff_eq_none_iff]
    cases lookup g.pipelines key with
    | none => exact trivial
    | some p => exact fun _ _ => Iff.rfl
  have hendpoints : endpointDiffs env g g = [] := by
    rw [endpointDiffs, Engine.endpointDiffs, List.filterMap_eq_nil_iff]
    intro k _
    dsimp only [Engine.endpointDiff]
    cases lookup (extractEndpoints env g) k with
    | none => rfl
    | some ep => exact if_pos rfl
  have hrun : runEngine env g g = Engine.sorted env { base := g, target := g } := by
    have hfirst : Engine.compareComponents env { base := g, target := g } =
        { base := g, target := g } :=
      congrArg (List.foldl Engine.addComponent { base := g, target := g }) hcomponents
    have hsecond : Engine.comparePipelines env { base := g, target := g } =
        { base := g, target := g } :=
      congrArg (List.foldl Engine.addPipeline { base := g, target := g }) hpipelines
    have hthird : Engine.compareEndpoints env { base := g, target := g } =
        { base := g, target := g } :=
      congrArg (List.foldl Engine.addEndpoint { base := g, target := g }) hendpoints
    rw [runEngine, hfirst, hsecond, hthird]
    rfl
  have hsort {α : Type} (less : α → α → Bool) : env.sortSlice.sort less [] = [] :=
    List.perm_nil.mp (env.sortSlice.perm less [])
  rw [hrun]
  exact ⟨hsort _, hsort _, hsort _, hsort _, hsort _⟩

theorem overallRisk_self (g : Graph) : (runEngine env g g).overallRisk = .none := by
  obtain ⟨hcomponents, hpipelines, hendpoints, -, hitems⟩ := runEngine_self env g
  rw [Engine.overallRisk, Engine.risks, hcomponents, hpipelines, hendpoints, hitems]
  rfl

end Same

section Result

variable {a b : List UInt8} {ctx : BlastRadiusContext}

/-- The diff of a text with itself is empty, whether it can be read or not. -/
theorem compareWithContext_self :
    (compareWithContext env a a ctx).components = [] ∧
      (compareWithContext env a a ctx).pipelines = [] ∧
      (compareWithContext env a a ctx).endpoints = [] ∧
      (compareWithContext env a a ctx).security = [] ∧
      (compareWithContext env a a ctx).riskItems = [] ∧
      (compareWithContext env a a ctx).summary.overallRisk = .none := by
  cases hvalid : (compareWithContext env a a ctx).valid with
  | false =>
    unfold compareWithContext at hvalid ⊢
    dsimp only at hvalid ⊢
    split at hvalid
    · cases hvalid
    · exact ⟨rfl, rfl, rfl, rfl, rfl, rfl⟩
  | true =>
    obtain ⟨⟨da, ha, hra⟩, -⟩ := valid_compareWithContext_iff.mp hvalid
    rw [compareWithContext_eq ha ha hra hra]
    obtain ⟨hcomponents, hpipelines, hendpoints, hsecurity, hitems⟩ :=
      runEngine_self env (parseGraph (rootOf da))
    exact ⟨hcomponents, hpipelines, hendpoints, hsecurity, hitems, overallRisk_self _⟩

end Result

section Sample

def exportersRoot (exporters : List (String × Value)) : Fields :=
  .ofList [("exporters", .obj (.ofList exporters))]

def someExporter : Document := ⟨exportersRoot [("debug", .null)], by decide +kernel⟩

def noExporter : Document := ⟨exportersRoot [], by decide +kernel⟩

def someExporterText : String := "exporters:\n  debug:\n"

def noExporterText : String := "exporters: \x7b\x7d\n"

def removalEnvironment : Environment :=
  .knowing someExporterText noExporterText someExporter noExporter

theorem unmarshal_someExporter :
    removalEnvironment.unmarshal (textBytes someExporterText) = .ok (some someExporter) :=
  Environment.unmarshal_knowing_left _ _ _ _

theorem unmarshal_noExporter :
    removalEnvironment.unmarshal (textBytes noExporterText) = .ok (some noExporter) :=
  Environment.unmarshal_knowing_right (by decide) _ _

end Sample

end OtelMagnify.Diff
