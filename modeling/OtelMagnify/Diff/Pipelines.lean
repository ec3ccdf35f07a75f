import OtelMagnify.Diff.Engine

/-! What the diff of two documents says about their pipelines: it lists a pipeline exactly when only
one document has it or when a section of it does not list the same components. The order and the
number of references are not compared. -/
namespace OtelMagnify.Diff
open Yaml GoString

variable {env : Environment}

def pipelineAt (root : Fields) (name : String) : Option Fields := do
  let pmap ← pipelineMap root
  (← pmap.get name).asMap

def PipelineShape.refs (p : PipelineShape) : Category → List GoString
  | .receivers => p.receivers
  | .processors => p.processors
  | .exporters => p.exporters
  | _ => []

def PipelineShape.SameRefs (p q : PipelineShape) : Prop :=
  ∀ sec id, id ∈ p.refs sec ↔ id ∈ q.refs sec

/-- Both have a value and these are related, or neither has one. -/
def Both {α : Type} (R : α → α → Prop) (x y : Option α) : Prop :=
  match x, y with
  | some a, some b => R a b
  | none, none => True
  | _, _ => False

/-- Both documents have the same pipelines, and each lists the same components in both. -/
def SamePipelines (root root' : Fields) : Prop :=
  ∀ name, Both (fun m m' => (pipelineShape m).SameRefs (pipelineShape m')) (pipelineAt root name)
    (pipelineAt root' name)

variable {key : GoString}

section Changes

variable {sec : Category} {b t : List GoString} {p q : PipelineShape}

theorem isSome_indexMap (l : List GoString) (id : GoString) : (indexMap l id).isSome = decide (id ∈ l) := by
  unfold indexMap
  split <;> simp_all

theorem refChange_eq_none_iff {id : GoString} :
    refChange env sec b t id = none ↔ (id ∈ b ↔ id ∈ t) := by
  have hb := isSome_indexMap b id
  have ht := isSome_indexMap t id
  unfold refChange
  cases hib : indexMap b id <;> cases hit : indexMap t id <;> simp_all

theorem refChanges_eq_nil_iff : refChanges env sec b t = [] ↔ ∀ id, id ∈ b ↔ id ∈ t := by
  rw [refChanges, List.filterMap_eq_nil_iff]
  simp only [refChange_eq_none_iff, mem_sortedSet, List.mem_append]
  refine ⟨fun h id => ?_, fun h id _ => h id⟩
  by_cases hb : id ∈ b
  · exact h id (.inl hb)
  · by_cases ht : id ∈ t
    · exact h id (.inr ht)
    · exact iff_of_false hb ht

theorem pipelineRefChanges_eq_nil_iff (env : Environment) : pipelineRefChanges env p q = [] ↔ p.SameRefs q := by
  rw [pipelineRefChanges, List.append_eq_nil_iff, List.append_eq_nil_iff, refChanges_eq_nil_iff,
    refChanges_eq_nil_iff, refChanges_eq_nil_iff]
  constructor
  · rintro ⟨⟨hr, hp⟩, he⟩ sec id
    cases sec with
    | receivers => exact hr id
    | processors => exact hp id
    | exporters => exact he id
    | connectors => rfl
    | extensions => rfl
  · intro h
    exact ⟨⟨h .receivers, h .processors⟩, h .exporters⟩

theorem pipelineDiff_eq_none_iff {e : Engine} :
    e.pipelineDiff env key = none ↔
      Both PipelineShape.SameRefs (lookup e.base.pipelines key) (lookup e.target.pipelines key) := by
  unfold Engine.pipelineDiff Both
  cases lookup e.base.pipelines key <;> cases lookup e.target.pipelines key <;> try simp
  next p q =>
    rw [← pipelineRefChanges_eq_nil_iff env]
    cases pipelineRefChanges env p q <;> simp

/-- A pipeline that is listed has a risk. -/
theorem rank_risk_pipelineDiff {e : Engine} {pd : PipelineDiff}
    (h : e.pipelineDiff env key = some pd) : 1 ≤ pd.risk.rank := by
  unfold Engine.pipelineDiff at h
  split at h
  · cases h
    exact le_rfl
  · cases h
    exact Nat.le_add_left 1 2
  · next p q _ _ =>
    cases hch : pipelineRefChanges env p q with
    | nil => simp [hch] at h
    | cons ch changes =>
      simp only [hch, Option.some.injEq] at h
      subst h
      dsimp only
      split
      · decide
      · have hmax := Risk.rank_foldl_max ((ch :: changes).map (·.risk)) .low
        rw [List.foldl_map] at hmax
        exact hmax.1
  · cases h

end Changes

section Documents

variable {root : Fields}

theorem isOrdered_rootOf (doc : Option Document) : (rootOf doc).isOrdered = true := by
  cases doc with
  | none => rfl
  | some doc => exact doc.ordered

theorem isOrdered_pipelineMap (h : root.isOrdered = true) {pmap : Fields}
    (hp : pipelineMap root = some pmap) : pmap.isOrdered = true := by
  unfold pipelineMap at hp
  simp only [Option.bind_eq_bind, Option.bind_eq_some_iff] at hp
  obtain ⟨v, hv, svc, hsvc, w, hw, hpmap⟩ := hp
  have hvo := Fields.isOrdered_of_get h hv
  cases v <;> simp only [Value.asMap, reduceCtorEq, Option.some.injEq] at hsvc
  subst hsvc
  have hwo := Fields.isOrdered_of_get (by simpa [Value.isOrdered] using hvo) hw
  cases w <;> simp only [Value.asMap, reduceCtorEq, Option.some.injEq] at hpmap
  subst hpmap
  simpa [Value.isOrdered] using hwo

theorem mem_parsePipelines (h : root.isOrdered = true) {p : PipelineShape} :
    (key, p) ∈ parsePipelines root ↔
      ∃ name m, key = ofString name ∧ pipelineAt root name = some m ∧ p = pipelineShape m := by
  unfold parsePipelines pipelineAt
  cases hp : pipelineMap root with
  | none => simp
  | some pmap =>
    have ho := isOrdered_pipelineMap h hp
    simp only [List.mem_filterMap, Option.map_eq_some_iff, Prod.mk.injEq, Prod.exists,
      Option.bind_eq_bind, Option.bind_some, Option.bind_eq_some_iff, Fields.get_eq_some_iff ho]
    constructor
    · rintro ⟨name, v, hmem, m, hm, rfl, rfl⟩
      exact ⟨name, m, rfl, ⟨v, hmem, hm⟩, rfl⟩
    · rintro ⟨name, m, rfl, ⟨v, hmem, hm⟩, rfl⟩
      exact ⟨name, v, hmem, m, hm, rfl, rfl⟩

theorem nodup_parsePipelines (h : root.isOrdered = true) :
    ((parsePipelines root).map Prod.fst).Nodup := by
  unfold parsePipelines
  cases hp : pipelineMap root with
  | none => exact List.nodup_nil
  | some pmap =>
    have hkeys := Fields.nodup_keys (isOrdered_pipelineMap h hp)
    rw [Fields.keys, List.Nodup, List.pairwise_map] at hkeys
    rw [List.Nodup, List.pairwise_map]
    refine hkeys.filterMap _ fun x y hne x' hx y' hy heq => hne ?_
    obtain ⟨_, -, rfl⟩ := Option.map_eq_some_iff.mp hx
    obtain ⟨_, -, rfl⟩ := Option.map_eq_some_iff.mp hy
    exact ofString_injective heq

theorem lookup_parsePipelines (h : root.isOrdered = true) (name : String) :
    lookup (parsePipelines root) (ofString name) = (pipelineAt root name).map pipelineShape := by
  refine Option.ext fun p => ?_
  rw [lookup_eq_some_iff (nodup_parsePipelines h), mem_parsePipelines h, Option.map_eq_some_iff]
  constructor
  · rintro ⟨name', m, hname, hm, rfl⟩
    exact ⟨m, (ofString_injective hname) ▸ hm, rfl⟩
  · rintro ⟨m, hm, rfl⟩
    exact ⟨name, m, rfl, hm, rfl⟩

theorem exists_name (h : root.isOrdered = true)
    (hkey : key ∈ (parsePipelines root).map Prod.fst) : ∃ name, key = ofString name := by
  obtain ⟨⟨_, _⟩, hmem, rfl⟩ := List.mem_map.mp hkey
  obtain ⟨name, _, rfl, -⟩ := (mem_parsePipelines h).mp hmem
  exact ⟨name, rfl⟩

theorem both_map {α β : Type} {R : β → β → Prop} {f : α → β} {x y : Option α} :
    Both R (x.map f) (y.map f) ↔ Both (fun a b => R (f a) (f b)) x y := by
  cases x <;> cases y <;> rfl

theorem pipelineDiffs_eq_nil_iff (env : Environment) {root' : Fields} (h : root.isOrdered = true)
    (h' : root'.isOrdered = true) :
    pipelineDiffs env (parseGraph root) (parseGraph root') = [] ↔ SamePipelines root root' := by
  simp only [pipelineDiffs, List.filterMap_eq_nil_iff, pipelineDiff_eq_none_iff, parseGraph]
  constructor
  · intro hall name
    by_cases hkey : ofString name ∈ Engine.pipelineKeys
        { base := parseGraph root, target := parseGraph root' }
    · have hboth := hall _ hkey
      rwa [lookup_parsePipelines h, lookup_parsePipelines h', both_map] at hboth
    · -- neither document has the pipeline
      rw [Engine.pipelineKeys, mem_sortedSet, List.map_append, List.mem_append, not_or] at hkey
      have hnone := lookup_eq_none_iff.mpr hkey.1
      have hnone' := lookup_eq_none_iff.mpr hkey.2
      simp only [parseGraph] at hnone hnone'
      rw [lookup_parsePipelines h, Option.map_eq_none_iff] at hnone
      rw [lookup_parsePipelines h', Option.map_eq_none_iff] at hnone'
      rw [hnone, hnone']
      trivial
  · intro hsame key hkey
    rw [Engine.pipelineKeys, mem_sortedSet, List.map_append, List.mem_append] at hkey
    obtain ⟨name, rfl⟩ : ∃ name, key = ofString name := by
      rcases hkey with hkey | hkey
      · exact exists_name h hkey
      · exact exists_name h' hkey
    rw [lookup_parsePipelines h, lookup_parsePipelines h', both_map]
    exact hsame name

end Documents

theorem pipelines_runEngine (base target : Graph) :
    (runEngine env base target).pipelines.Perm (pipelineDiffs env base target) := by
  rw [pipelines_eq_sort]
  exact env.sortSlice.perm _ _

theorem pipelines_eq_nil_of_overallRisk {base target : Graph}
    (h : (runEngine env base target).overallRisk = .none) :
    (runEngine env base target).pipelines = [] := by
  refine List.eq_nil_iff_forall_not_mem.mpr fun pd hpd => ?_
  have hdiff := (pipelines_runEngine base target).mem_iff.mp hpd
  obtain ⟨key, -, hkey⟩ := List.mem_filterMap.mp hdiff
  have hrank := rank_risk_pipelineDiff hkey
  have hmem : pd.risk ∈ (runEngine env base target).riskItems.map (·.risk) ++
      (runEngine env base target).risks := by
    simp only [Engine.risks, List.mem_append, List.mem_map]
    exact .inr (.inl (.inr ⟨pd, hpd, rfl⟩))
  have hle := (Risk.rank_foldl_max _ .none).2 _ hmem
  rw [← Engine.overallRisk, h] at hle
  exact absurd (hrank.trans hle) (by decide)

variable {a b : List UInt8} {da db : Option Document} {ctx : BlastRadiusContext}

/-- A valid diff lists no pipeline exactly when both documents have the same pipelines with the same
references, whatever their order and number, and then alone its risk can be none. -/
theorem pipeline_diff_completeness (ha : env.unmarshal a = .ok da) (hb : env.unmarshal b = .ok db)
    (hvalid : (compareWithContext env a b ctx).valid = true) :
    ((compareWithContext env a b ctx).pipelines = [] ↔ SamePipelines (rootOf da) (rootOf db)) ∧
      ((compareWithContext env a b ctx).summary.overallRisk = .none →
        SamePipelines (rootOf da) (rootOf db)) := by
  rw [compareWithContext_of_valid ha hb hvalid]
  have hiff : (runEngine env (parseGraph (rootOf da)) (parseGraph (rootOf db))).pipelines = [] ↔
      SamePipelines (rootOf da) (rootOf db) := by
    rw [← pipelineDiffs_eq_nil_iff env (isOrdered_rootOf da) (isOrdered_rootOf db)]
    exact ⟨fun h => List.perm_nil.mp (h ▸ (pipelines_runEngine _ _).symm),
      fun h => List.perm_nil.mp (h ▸ pipelines_runEngine _ _)⟩
  exact ⟨hiff, fun hrisk => hiff.mp (pipelines_eq_nil_of_overallRisk hrisk)⟩

section Sample

def strings (l : List String) : Value := .list (.ofList (l.map .str))

def pipelineRoot (processors : List String) : Fields :=
  .ofList [("service", .obj (.ofList [("pipelines", .obj (.ofList [("traces", .obj (.ofList
    [("exporters", strings ["otlp"]), ("processors", strings processors),
      ("receivers", strings ["otlp"])]))]))]))]

def limiterFirst : Document := ⟨pipelineRoot ["memory_limiter", "batch"], by decide +kernel⟩

def batchFirst : Document := ⟨pipelineRoot ["batch", "memory_limiter"], by decide +kernel⟩

def limiterFirstText : String :=
  "service:\n  pipelines:\n    traces:\n      receivers: [otlp]\n" ++
    "      processors: [memory_limiter, batch]\n      exporters: [otlp]\n"

def batchFirstText : String :=
  "service:\n  pipelines:\n    traces:\n      receivers: [otlp]\n" ++
    "      processors: [batch, memory_limiter]\n      exporters: [otlp]\n"

def pipelineEnvironment : Environment :=
  .knowing limiterFirstText batchFirstText limiterFirst batchFirst

theorem unmarshal_limiterFirst :
    pipelineEnvironment.unmarshal (textBytes limiterFirstText) = .ok (some limiterFirst) :=
  Environment.unmarshal_knowing_left _ _ _ _

theorem unmarshal_batchFirst :
    pipelineEnvironment.unmarshal (textBytes batchFirstText) = .ok (some batchFirst) :=
  Environment.unmarshal_knowing_right (by decide) _ _

theorem compare_limiterFirst_batchFirst :
    compare pipelineEnvironment (textBytes limiterFirstText) (textBytes batchFirstText) =
      finishedDiff pipelineEnvironment (parseGraph limiterFirst.root) (parseGraph batchFirst.root)
        (hashYAML (textBytes limiterFirstText), hashYAML (textBytes batchFirstText)) {} := by
  rw [pipelineEnvironment]
  exact compare_knowing (by decide) (by decide +kernel) (by decide +kernel)

/-- The processors of a pipeline change places, and the diff has no risk and lists nothing. -/
theorem reordered_processors_not_listed :
    (compare pipelineEnvironment (textBytes limiterFirstText) (textBytes batchFirstText)).valid =
        true ∧
      (compare pipelineEnvironment (textBytes limiterFirstText)
        (textBytes batchFirstText)).pipelines = [] ∧
      (compare pipelineEnvironment (textBytes limiterFirstText)
        (textBytes batchFirstText)).summary.overallRisk = .none ∧
      (pipelineAt limiterFirst.root "traces").map (fun m => (pipelineShape m).processors) =
        some [ofString "memory_limiter", ofString "batch"] ∧
      (pipelineAt batchFirst.root "traces").map (fun m => (pipelineShape m).processors) =
        some [ofString "batch", ofString "memory_limiter"] := by
  rw [compare_limiterFirst_batchFirst]
  decide +kernel

theorem pipeline_diff_completeness_reordered :
    (compareWithContext pipelineEnvironment (textBytes limiterFirstText)
        (textBytes batchFirstText) {}).valid = true ∧
      SamePipelines limiterFirst.root batchFirst.root := by
  have hvalid : (compareWithContext pipelineEnvironment (textBytes limiterFirstText)
      (textBytes batchFirstText) {}).valid = true :=
    congrArg ConfigDiff.valid compare_limiterFirst_batchFirst
  have hrisk : (compareWithContext pipelineEnvironment (textBytes limiterFirstText)
      (textBytes batchFirstText) {}).summary.overallRisk = .none := by
    rw [← compare, compare_limiterFirst_batchFirst]
    decide +kernel
  exact ⟨hvalid,
    (pipeline_diff_completeness unmarshal_limiterFirst unmarshal_batchFirst hvalid).2 hrisk⟩

end Sample

end OtelMagnify.Diff
