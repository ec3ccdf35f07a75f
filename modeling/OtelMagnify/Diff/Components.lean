import OtelMagnify.Diff.Pipelines

/-! What the diff of two documents says about their components: it lists none exactly when every
component is in both documents, with configurations that are the same in JSON or that have no JSON
at all. -/
namespace OtelMagnify.Diff
open Yaml GoString

variable {env : Environment}

def componentAt (root : Fields) (cat : Category) (id : String) : Option Value :=
  (parseSection root cat).bind (·.get id)

/-- The configurations are the same in JSON, or neither has any. -/
def Indistinct (v w : Value) : Prop :=
  (isEncodable v = false ∧ isEncodable w = false) ∨
    (isEncodable v = true ∧ isEncodable w = true ∧ SameJson v w)

def SameSections (root root' : Fields) : Prop :=
  ∀ cat : Category, root.get cat.name = root'.get cat.name

variable {cat : Category}

theorem componentDiff_eq_none_iff {e : Engine} {id : GoString} :
    e.componentDiff env cat id = none ↔
      Both (fun b t => Indistinct b.cfg t.cfg) (lookup (e.base.components cat) id)
        (lookup (e.target.components cat) id) := by
  unfold Engine.componentDiff Both
  cases lookup (e.base.components cat) id <;> cases lookup (e.target.components cat) id <;> try simp
  next b t =>
    rw [Indistinct, ← canonical_eq_iff]

section Documents

variable {root : Fields}

theorem isOrdered_parseSection (h : root.isOrdered = true) {m : Fields}
    (hm : parseSection root cat = some m) : m.isOrdered = true := by
  unfold parseSection at hm
  split at hm
  · cases hm
    rfl
  · next v hv =>
    have hvo := Fields.isOrdered_of_get h hv
    cases v <;> simp only [Value.asMap, reduceCtorEq, Option.some.injEq] at hm
    subst hm
    simpa [Value.isOrdered] using hvo

theorem mem_parseComponents (h : root.isOrdered = true) {key : GoString} {c : Component} :
    (key, c) ∈ parseComponents root cat ↔
      ∃ id v, key = ofString id ∧ componentAt root cat id = some v ∧
        c = { ref := componentRef cat id, cfg := v } := by
  unfold parseComponents componentAt
  cases hm : parseSection root cat with
  | none => simp [Fields.toList]
  | some m =>
    simp only [Option.getD_some, List.mem_map, Prod.mk.injEq, Prod.exists, Option.bind_some,
      Fields.get_eq_some_iff (isOrdered_parseSection h hm)]
    constructor
    · rintro ⟨id, v, hmem, rfl, rfl⟩
      exact ⟨id, v, rfl, hmem, rfl⟩
    · rintro ⟨id, v, rfl, hmem, rfl⟩
      exact ⟨id, v, hmem, rfl, rfl⟩

theorem nodup_parseComponents (h : root.isOrdered = true) (cat : Category) :
    ((parseComponents root cat).map Prod.fst).Nodup := by
  unfold parseComponents
  cases hm : parseSection root cat with
  | none => exact List.nodup_nil
  | some m =>
    have hkeys := Fields.nodup_keys (isOrdered_parseSection h hm)
    rw [Option.getD_some, List.map_map]
    have hmap : m.toList.map (Prod.fst ∘ fun entry : String × Value => (ofString entry.1,
        ({ ref := componentRef cat entry.1, cfg := entry.2 } : Component))) =
        m.keys.map ofString := by
      rw [Fields.keys, List.map_map]
      rfl
    exact hmap ▸ hkeys.map ofString_injective

theorem lookup_parseComponents (h : root.isOrdered = true) (cat : Category) (id : String) :
    lookup (parseComponents root cat) (ofString id) =
      (componentAt root cat id).map fun v => { ref := componentRef cat id, cfg := v } := by
  refine Option.ext fun c => ?_
  rw [lookup_eq_some_iff (nodup_parseComponents h cat), mem_parseComponents h,
    Option.map_eq_some_iff]
  constructor
  · rintro ⟨id', v, hid, hv, rfl⟩
    cases ofString_injective hid
    exact ⟨v, hv, rfl⟩
  · rintro ⟨v, hv, rfl⟩
    exact ⟨id, v, rfl, hv, rfl⟩

theorem exists_id (h : root.isOrdered = true) {key : GoString}
    (hkey : key ∈ (parseComponents root cat).map Prod.fst) : ∃ id, key = ofString id := by
  obtain ⟨⟨_, _⟩, hmem, rfl⟩ := List.mem_map.mp hkey
  obtain ⟨id, _, rfl, -⟩ := (mem_parseComponents h).mp hmem
  exact ⟨id, rfl⟩

theorem mem_componentIDs {e : Engine} {id : GoString} : (cat, id) ∈ e.componentIDs ↔
      id ∈ (e.base.components cat).map Prod.fst ∨ id ∈ (e.target.components cat).map Prod.fst := by
  have hall : cat ∈ Category.all := by cases cat <;> decide
  simp [Engine.componentIDs, mem_sortedSet, hall]

/-- A property of what both documents have as each component, from the ids the diff goes through. -/
theorem forall_componentIDs {root' : Fields} (h : root.isOrdered = true)
    (h' : root'.isOrdered = true) {P : Category → GoString → Option Value → Option Value → Prop}
    (hnone : ∀ cat id, P cat id none none) :
    (∀ cat id, (cat, id) ∈ Engine.componentIDs
        { base := parseGraph root, target := parseGraph root' } →
      P cat id ((lookup (parseComponents root cat) id).map Component.cfg)
        ((lookup (parseComponents root' cat) id).map Component.cfg)) ↔
      ∀ cat (id : String), P cat id (componentAt root cat id) (componentAt root' cat id) := by
  have hcfg {root : Fields} (h : root.isOrdered = true) (cat : Category) (id : String) :
      (lookup (parseComponents root cat) (ofString id)).map Component.cfg =
        componentAt root cat id := by
    rw [lookup_parseComponents h, Option.map_map]
    exact Option.map_id'
  constructor
  · intro hall cat id
    rw [← hcfg h, ← hcfg h']
    by_cases hid : (cat, ofString id) ∈ Engine.componentIDs
        { base := parseGraph root, target := parseGraph root' }
    · exact hall _ _ hid
    · -- neither document has the component
      rw [mem_componentIDs, not_or] at hid
      have hbase : lookup (parseComponents root cat) (ofString id) = none :=
        lookup_eq_none_iff.mpr hid.1
      have htarget : lookup (parseComponents root' cat) (ofString id) = none :=
        lookup_eq_none_iff.mpr hid.2
      rw [hbase, htarget]
      exact hnone cat _
  · intro hall cat id hid
    obtain ⟨name, rfl⟩ : ∃ name, id = ofString name := by
      rcases mem_componentIDs.mp hid with hid | hid
      · exact exists_id h hid
      · exact exists_id h' hid
    rw [hcfg h, hcfg h']
    exact hall cat name

theorem componentDiffs_eq_nil_iff (env : Environment) {root' : Fields}
    (h : root.isOrdered = true) (h' : root'.isOrdered = true) :
    componentDiffs env (parseGraph root) (parseGraph root') = [] ↔
      ∀ cat id, Both Indistinct (componentAt root cat id) (componentAt root' cat id) := by
  rw [← forall_componentIDs h h' (P := fun _ _ => Both Indistinct) fun _ _ => trivial,
    componentDiffs, List.filterMap_eq_nil_iff]
  simp only [componentDiff_eq_none_iff, parseGraph, Prod.forall, both_map]

end Documents

theorem components_runEngine (env : Environment) (base target : Graph) :
    (runEngine env base target).components.Perm (componentDiffs env base target) := by
  rw [components_eq_sort]
  exact env.sortSlice.perm _ _

variable {a b : List UInt8} {da db : Option Document} {ctx : BlastRadiusContext}

theorem components_eq_nil_iff (ha : env.unmarshal a = .ok da) (hb : env.unmarshal b = .ok db)
    (hvalid : (compareWithContext env a b ctx).valid = true) :
    (compareWithContext env a b ctx).components = [] ↔
      ∀ cat id, Both Indistinct (componentAt (rootOf da) cat id) (componentAt (rootOf db) cat id) := by
  rw [compareWithContext_of_valid ha hb hvalid,
    ← componentDiffs_eq_nil_iff env (isOrdered_rootOf da) (isOrdered_rootOf db)]
  have hperm := components_runEngine env (parseGraph (rootOf da)) (parseGraph (rootOf db))
  exact ⟨fun h => List.perm_nil.mp (h ▸ hperm.symm), fun h => List.perm_nil.mp (h ▸ hperm)⟩

/-- An empty list of component diffs means equal sections exactly when the sections are equal or some
component is in one document only, or has configurations that JSON tells apart. -/
theorem component_diff_completeness (ha : env.unmarshal a = .ok da) (hb : env.unmarshal b = .ok db)
    (hvalid : (compareWithContext env a b ctx).valid = true) :
    ((compareWithContext env a b ctx).components = [] →
        SameSections (rootOf da) (rootOf db)) ↔
      (SameSections (rootOf da) (rootOf db) ∨
        ∃ cat id, ¬Both Indistinct (componentAt (rootOf da) cat id)
          (componentAt (rootOf db) cat id)) := by
  rw [components_eq_nil_iff ha hb hvalid]
  constructor
  · intro h
    by_cases hall : ∀ cat id, Both Indistinct (componentAt (rootOf da) cat id)
        (componentAt (rootOf db) cat id)
    · exact .inl (h hall)
    · push Not at hall
      exact .inr hall
  · rintro (hsame | ⟨cat, id, hnot⟩) hall
    · exact hsame
    · exact absurd (hall cat id) hnot

section Sample

/-- An exporter with headers under a key that is no string. -/
def exporterRoot (compression : String) : Fields :=
  .ofList [("exporters", .obj (.ofList [("otlp", .obj (.ofList [("compression", .str compression),
    ("headers", .table (.cons (.int 1) (.str "a") .nil))]))]))]

def gzipDocument : Document := ⟨exporterRoot "gzip", by decide +kernel⟩

def zstdDocument : Document := ⟨exporterRoot "zstd", by decide +kernel⟩

def gzipText : String :=
  "exporters:\n  otlp:\n    compression: gzip\n    headers:\n      1: a\n"

def zstdText : String :=
  "exporters:\n  otlp:\n    compression: zstd\n    headers:\n      1: a\n"

def exporterEnvironment : Environment := .knowing gzipText zstdText gzipDocument zstdDocument

theorem compare_gzip_zstd :
    compare exporterEnvironment (textBytes gzipText) (textBytes zstdText) =
      finishedDiff exporterEnvironment (parseGraph gzipDocument.root) (parseGraph zstdDocument.root)
        (hashYAML (textBytes gzipText), hashYAML (textBytes zstdText)) {} := by
  rw [exporterEnvironment]
  exact compare_knowing (by decide) (by decide +kernel) (by decide +kernel)

/-- A key that is no string hides the change of another field. -/
theorem key_hides_change :
    (compare exporterEnvironment (textBytes gzipText) (textBytes zstdText)).valid = true ∧
      (compare exporterEnvironment (textBytes gzipText) (textBytes zstdText)).components = [] ∧
      ¬SameSections gzipDocument.root zstdDocument.root := by
  rw [compare_gzip_zstd]
  refine ⟨rfl, by decide +kernel, fun h => ?_⟩
  exact absurd (h .exporters) (by decide +kernel)

/-- A document of one exporter that is a text. -/
def plainDocument (s : String) : Document :=
  ⟨.cons "exporters" (.obj (.cons "otlp" (.str s) .nil)) .nil, rfl⟩

def plainText (s : String) : String := "exporters: \x7botlp: " ++ s ++ "\x7d"

def plainEnvironment : Environment :=
  .knowing (plainText "a") (plainText "b") (plainDocument "a") (plainDocument "b")

theorem component_diff_completeness_text :
    (compareWithContext plainEnvironment (textBytes (plainText "a")) (textBytes (plainText "b"))
        {}).valid = true ∧
      ((compareWithContext plainEnvironment (textBytes (plainText "a")) (textBytes (plainText "b"))
          {}).components = [] →
        SameSections (plainDocument "a").root (plainDocument "b").root) := by
  have hvalid : (compareWithContext plainEnvironment (textBytes (plainText "a"))
      (textBytes (plainText "b")) {}).valid = true := by
    rw [← compare, plainEnvironment, compare_knowing (by decide) (by decide) (by decide)]
    rfl
  have ha : plainEnvironment.unmarshal (textBytes (plainText "a")) =
      .ok (some (plainDocument "a")) :=
    Environment.unmarshal_knowing_left _ _ _ _
  have hb : plainEnvironment.unmarshal (textBytes (plainText "b")) =
      .ok (some (plainDocument "b")) :=
    Environment.unmarshal_knowing_right (by decide) _ _
  refine ⟨hvalid, (component_diff_completeness ha hb hvalid).mpr
    (.inr ⟨.exporters, "otlp", ?_⟩)⟩
  simp [Both, Indistinct, componentAt, parseSection, rootOf, plainDocument, Fields.get,
    Category.name, Value.asMap, isEncodable, scalarOf, SameJson, SameScalar, Scalar.Same]

end Sample

end OtelMagnify.Diff
