import OtelMagnify.Validator.Structure

/-! How a guided rollback reads the path of a validation error back: the category and the id of
the component that the error is about. -/
namespace OtelMagnify.Validator
open Push Server Yaml GoText

/-- The categories in the order of `categoryFromValidationPath`. -/
def pathCategories : List String :=
  ["receivers", "processors", "exporters", "extensions", "connectors"]

def namesCategory (path category : String) : Bool :=
  contains path ("." ++ category ++ "[") || contains path ("." ++ category ++ ".") ||
    contains path (category ++ "[")

def categoryFromValidationPath (path : String) : String :=
  (pathCategories.find? (namesCategory path)).getD ""

/-- The part has an index, which stands between the first bracket and the last character. -/
def isIndexed (part : String) : Bool := '[' ∈ part.toList && part.toList.getLast? = some ']'

/-- The name and the index of a part, -1 without one; none if what stands there is no number. -/
def readPart (part : String) : Option (String × ℤ) :=
  if isIndexed part then
    (sscanfInt (part.toList.dropWhile (· ≠ '[')).tail.dropLast).map fun idx =>
      (before '[' part, idx)
  else some (part, -1)

/-- One pass of the loop of `componentIDFromValidationPath`; none where it returns. -/
def walkPart (cur : Value) (part : String) : Option Value := do
  let (name, idx) ← readPart part
  let m ← cur.asMap
  let cur := (m.get name).getD .null
  if 0 ≤ idx then
    match cur with
    | .list arr => arr.toList[idx.toNat]?
    | _ => none
  else some cur

def componentIDFromValidationPath (env : Environment) (content path : String) : GoString :=
  match env.decode content with
  | .error _ => []
  | .ok _ =>
    (((split '.' path).foldlM walkPart (.obj (env.root content))).bind Value.asString).getD []

variable {i : ℕ} {name part s section_ : String}

section Parts

theorem split_append (a b : String) : split '.' (a ++ "." ++ b) = split '.' a ++ split '.' b := by
  have htoList : (a ++ "." ++ b).toList = a.toList ++ '.' :: b.toList := by
    simp [String.toList_append]
  rw [split, htoList, List.splitOn, List.splitOnP_append_cons _ _ (by decide), List.map_append]
  rfl

theorem split_eq_singleton (h : '.' ∉ s.toList) : split '.' s = [s] := by
  rw [split, List.splitOn, List.splitOnP_eq_singleton, List.map_singleton, String.ofList_toList]
  intro c hc
  rw [beq_eq_false_iff_ne]
  rintro rfl
  exact h hc

def indexed (name : String) (i : ℕ) : String := name ++ "[" ++ toString i ++ "]"

theorem toList_indexed (name : String) (i : ℕ) :
    (indexed name i).toList = name.toList ++ '[' :: (Nat.toDigits 10 i ++ [']']) := by
  simp [indexed, String.toList_append]

theorem mem_toDigits_ne {c : Char} (h : c ∈ Nat.toDigits 10 i) : c ≠ '.' ∧ c ≠ '[' := by
  have hdigit : c.isDigit = true := Nat.isDigit_of_mem_toDigits (by decide) (by decide) h
  refine ⟨?_, ?_⟩ <;> rintro rfl <;> revert hdigit <;> decide

theorem dot_not_mem_indexed (h : '.' ∉ name.toList) (i : ℕ) : '.' ∉ (indexed name i).toList := by
  rw [toList_indexed, List.mem_append, List.mem_cons, List.mem_append, List.mem_singleton]
  rintro (hname | hbracket | hdigit | hbracket)
  · exact h hname
  · exact absurd hbracket (by decide)
  · exact (mem_toDigits_ne hdigit).1 rfl
  · exact absurd hbracket (by decide)

theorem readPart_indexed (h : '[' ∉ name.toList) (i : ℕ) :
    readPart (indexed name i) = some (name, (i : ℤ)) := by
  have hname : ∀ c ∈ name.toList, decide (c ≠ '[') = true := by
    intro c hc
    rw [decide_eq_true_eq]
    rintro rfl
    exact h hc
  have hindexed : isIndexed (indexed name i) = true := by
    simp [isIndexed, toList_indexed, List.getLast?_cons]
  have hbefore : before '[' (indexed name i) = name := by
    rw [before, toList_indexed, List.takeWhile_append_of_pos hname, List.takeWhile_cons_of_neg,
      List.append_nil, String.ofList_toList]
    decide
  have hinner : ((indexed name i).toList.dropWhile (· ≠ '[')).tail.dropLast =
      Nat.toDigits 10 i := by
    rw [toList_indexed, List.dropWhile_append_of_pos hname, List.dropWhile_cons_of_neg,
      List.tail_cons, List.dropLast_concat]
    decide
  rw [readPart, if_pos hindexed, hinner, sscanfInt_toDigits, hbefore]
  rfl

theorem readPart_plain (h : isIndexed part = false) : readPart part = some (part, -1) := by
  rw [readPart, h]
  rfl

end Parts

section Walk

theorem walkPart_plain (h : isIndexed part = false) (v : Value) :
    walkPart v part = v.asMap.map fun m => (m.get part).getD .null := by
  rw [walkPart, readPart_plain h]
  cases v.asMap <;> rfl

theorem walkPart_indexed (h : '[' ∉ name.toList) (v : Value) (i : ℕ) :
    walkPart v (indexed name i) = (elements (v.member name))[i]? := by
  rw [walkPart, readPart_indexed h]
  cases hmap : v.asMap with
  | none => simp [Value.member, hmap, elements]
  | some m =>
    cases hget : m.get name with
    | none => simp [Value.member, hmap, hget, elements]
    | some w => cases w <;> simp [Value.member, hmap, hget, elements]

/-- What the parts of the name of a pipeline lead to. -/
def reached (root : Fields) (name : String) : Option Value :=
  (split '.' name).foldlM walkPart (.obj (pipelines root))

theorem foldlM_service {root : Fields} (h : pipelines root ≠ .nil) (parts : List String) :
    ("service" :: "pipelines" :: parts).foldlM walkPart (.obj root) =
      parts.foldlM walkPart (.obj (pipelines root)) := by
  have hservice : walkPart (.obj root) "service" = some ((root.get "service").getD .null) :=
    walkPart_plain (by decide) _
  have hpipelines : walkPart ((root.get "service").getD .null) "pipelines" =
      some (.obj (pipelines root)) := by
    rw [walkPart_plain (by decide)]
    cases hget : root.get "service" with
    | none => simp [pipelines, hget] at h
    | some service =>
      cases hmap : service.asMap with
      | none => simp [pipelines, hget, Value.member, hmap] at h
      | some m =>
        cases hmember : m.get "pipelines" with
        | none => simp [pipelines, hget, Value.member, hmap, hmember] at h
        | some v =>
          cases hv : v.asMap with
          | none => simp [pipelines, hget, Value.member, hmap, hmember, hv] at h
          | some ps =>
            cases Value.eq_obj hv
            simp [pipelines, hget, Value.member, hmap, hmember, hv]
  rw [List.foldlM_cons, hservice, Option.bind_eq_bind, Option.bind_some, List.foldlM_cons,
    hpipelines, Option.bind_eq_bind, Option.bind_some]

def entryID (l : List Value) (i : ℕ) : GoString := (l[i]?.bind Value.asString).getD []

theorem path_pipeline (name section_ : String) (i : ℕ) :
    indexed (Place.pipeline name section_).path i =
      "service" ++ "." ++ ("pipelines" ++ "." ++ (name ++ "." ++ indexed section_ i)) := by
  have hservice : "service.pipelines." = "service" ++ ("." ++ ("pipelines" ++ ".")) := by simp
  unfold Place.path indexed
  dsimp only
  rw [hservice]
  simp only [String.append_assoc, -String.reduceAppend]

theorem dot_bracket_not_mem_section (h : section_ ∈ pipelineSections) :
    '.' ∉ section_.toList ∧ '[' ∉ section_.toList := by
  simp only [pipelineSections, List.mem_cons, List.not_mem_nil, or_false] at h
  rcases h with rfl | rfl | rfl <;> decide

theorem split_path_pipeline (h : section_ ∈ pipelineSections) (name : String) (i : ℕ) :
    split '.' (indexed (Place.pipeline name section_).path i) =
      "service" :: "pipelines" :: (split '.' name ++ [indexed section_ i]) := by
  rw [path_pipeline, split_append, split_append, split_append,
    split_eq_singleton (s := "service") (by decide),
    split_eq_singleton (s := "pipelines") (by decide),
    split_eq_singleton (dot_not_mem_indexed (dot_bracket_not_mem_section h).1 i)]
  rfl

end Walk

section Category

theorem mem_split_iff : part ∈ split '.' s ↔ part.toList ∈ s.toList.splitOn '.' := by
  rw [split, List.mem_map]
  constructor
  · rintro ⟨l, hl, rfl⟩
    rwa [String.toList_ofList]
  · exact fun h => ⟨_, h, String.ofList_toList⟩

theorem contains_iff {sub : String} : contains s sub = true ↔ sub.toList <:+: s.toList := by
  rw [contains, decide_eq_true_eq]

variable {w k : String}

theorem exists_part_of_contains (hw : '.' ∉ w.toList) (h : contains s w = true) :
    ∃ part ∈ split '.' s, contains part w = true := by
  have hsep : ∀ c ∈ w.toList, (c == '.') = false := by
    intro c hc
    rw [beq_eq_false_iff_ne]
    rintro rfl
    exact hw hc
  obtain ⟨f, hf, hinfix⟩ := GoString.exists_mem_splitOnP_of_infix hsep (contains_iff.mp h)
  refine ⟨String.ofList f, List.mem_map_of_mem hf, contains_iff.mpr ?_⟩
  rwa [String.toList_ofList]

theorem contains_of_part (hpart : part ∈ split '.' s)
    (h : contains part w = true) : contains s w = true := by
  have hinfix : part.toList <:+: ['.'].intercalate (s.toList.splitOn '.') :=
    GoString.infix_intercalate (mem_split_iff.mp hpart)
  rw [List.intercalate_splitOn] at hinfix
  exact contains_iff.mpr ((contains_iff.mp h).trans hinfix)

/-- A text between two dots is a part. -/
theorem mem_split_of_contains (hw : '.' ∉ w.toList)
    (h : contains s ("." ++ w ++ ".") = true) : w ∈ split '.' s := by
  obtain ⟨a, b, hs⟩ := contains_iff.mp h
  have heq : s = String.ofList a ++ "." ++ (w ++ "." ++ String.ofList b) := by
    rw [← String.toList_inj, ← hs]
    simp [String.toList_append]
  rw [heq, split_append, split_append, split_eq_singleton hw]
  simp

/-- The categories that are looked for before this one. -/
def earlierCategories (category : String) : List String :=
  pathCategories.takeWhile (· ≠ category)

theorem find_getD_iff {l : List String} {p : String → Bool} {a d : String} (hmem : a ∈ l)
    (ha : p a = true) :
    (l.find? p).getD d = a ↔ ∀ k ∈ l.takeWhile (· ≠ a), p k = false := by
  induction l with
  | nil => cases hmem
  | cons x l ih =>
    by_cases hx : x = a
    · subst hx
      simp [ha]
    · have hmem := (List.mem_cons.mp hmem).resolve_left (Ne.symm hx)
      rw [List.takeWhile_cons_of_pos (by simpa using hx), List.forall_mem_cons, ← ih hmem]
      cases hp : p x with
      | true => simp [hp, hx]
      | false => simp [hp]

theorem mem_pathCategories (h : k ∈ pathCategories) :
    '.' ∉ k.toList ∧ '[' ∉ k.toList ∧ k ≠ "service" ∧ k ≠ "pipelines" := by
  simp only [pathCategories, List.mem_cons, List.not_mem_nil, or_false] at h
  rcases h with rfl | rfl | rfl | rfl | rfl <;> decide

theorem not_suffix_of_earlier {category : String} (hcategory : category ∈ pathCategories)
    (hk : k ∈ earlierCategories category) : ¬k.toList <:+ category.toList := by
  simp only [pathCategories, List.mem_cons, List.not_mem_nil, or_false] at hcategory
  rcases hcategory with rfl | rfl | rfl | rfl | rfl <;> revert hk <;> revert k <;> decide

theorem mem_pathCategories_of_section (h : section_ ∈ pipelineSections) :
    section_ ∈ pathCategories := by
  revert h
  revert section_
  decide

/-- The last part of a path has no other category before its bracket. -/
theorem not_contains_indexed (hbracket : '[' ∉ section_.toList)
    (hk : ¬k.toList <:+ section_.toList) : contains (indexed section_ i) (k ++ "[") = false := by
  rw [← Bool.not_eq_true, contains_iff]
  rintro ⟨a, b, heq⟩
  have heq : section_.toList ++ '[' :: (Nat.toDigits 10 i ++ [']']) = (a ++ k.toList) ++ '[' :: b := by
    rw [← toList_indexed, ← heq]
    simp [String.toList_append]
  by_cases hmem : '[' ∈ a ++ k.toList
  · obtain ⟨x, y, hxy, hx⟩ := List.eq_append_cons_of_mem hmem
    rw [hxy, List.append_assoc, List.cons_append] at heq
    have hrest := (GoString.append_sep_inj hbracket hx heq).2
    have hin : '[' ∈ Nat.toDigits 10 i ++ [']'] := by
      rw [hrest]
      exact List.mem_append_right _ List.mem_cons_self
    rcases List.mem_append.mp hin with hdigit | hlast
    · exact (mem_toDigits_ne hdigit).2 rfl
    · exact absurd (List.mem_singleton.mp hlast) (by decide)
  · have hsection := (GoString.append_sep_inj hbracket hmem heq).1
    exact hk ⟨a, hsection.symm⟩

theorem infix_between_dots (a b s c : String) :
    '.' :: (s.toList ++ ['.']) <:+: (a ++ "." ++ (b ++ "." ++ (s ++ "." ++ c))).toList :=
  ⟨(a ++ "." ++ b).toList, c.toList, by simp [String.toList_append]⟩

/-- The part is the category, or has it before a bracket. -/
def Spells (part category : String) : Prop :=
  part = category ∨ contains part (category ++ "[") = true

instance (part category : String) : Decidable (Spells part category) :=
  inferInstanceAs (Decidable (_ ∨ _))

/-- One of the parts of the text spells the category. -/
def SpellsCategory (text category : String) : Prop := ∃ part ∈ split '.' text, Spells part category

instance (text category : String) : Decidable (SpellsCategory text category) :=
  inferInstanceAs (Decidable (∃ part ∈ split '.' text, Spells part category))

theorem not_spells_of_no_bracket (hne : k ≠ part) (h : '[' ∉ part.toList) : ¬Spells part k := by
  rintro (heq | hcontains)
  · exact hne heq.symm
  · exact h ((contains_iff.mp hcontains).subset (by simp [String.toList_append]))

theorem not_spells_indexed (hname : '[' ∉ name.toList)
    (hk : '[' ∉ k.toList) (hsuffix : ¬k.toList <:+ name.toList) : ¬Spells (indexed name i) k := by
  rintro (heq | hcontains)
  · refine hk ?_
    rw [← heq, toList_indexed]
    simp
  · rw [not_contains_indexed hname hsuffix] at hcontains
    cases hcontains

theorem spells_of_namesCategory {path : String} (hk : k ∈ pathCategories)
    (h : namesCategory path k = true) : SpellsCategory path k := by
  obtain ⟨hdot, -⟩ := mem_pathCategories hk
  have hindexed (h : contains path (k ++ "[") = true) : SpellsCategory path k := by
    obtain ⟨part, hpart, hcontains⟩ := exists_part_of_contains
      (by simpa [String.toList_append] using hdot) h
    exact ⟨part, hpart, .inr hcontains⟩
  rw [namesCategory, Bool.or_eq_true, Bool.or_eq_true] at h
  rcases h with (h | h) | h
  · refine hindexed (contains_iff.mpr (List.IsInfix.trans ?_ (contains_iff.mp h)))
    exact ⟨['.'], [], by simp [String.toList_append]⟩
  · exact ⟨k, mem_split_of_contains hdot h, .inl rfl⟩
  · exact hindexed h

theorem namesCategory_iff (hsection : section_ ∈ pipelineSections)
    (hk : k ∈ earlierCategories section_) (name : String) (i : ℕ) :
    namesCategory (indexed (Place.pipeline name section_).path i) k = true ↔
      SpellsCategory name k := by
  have hmem : k ∈ pathCategories := (List.takeWhile_sublist _).subset hk
  obtain ⟨-, hbracket, hservice, hpipelines⟩ := mem_pathCategories hmem
  have hsplit := split_path_pipeline hsection name i
  constructor
  · intro h
    obtain ⟨part, hpart, hspells⟩ := spells_of_namesCategory hmem h
    rw [hsplit] at hpart
    simp only [List.mem_cons, List.mem_append, List.not_mem_nil, or_false] at hpart
    rcases hpart with rfl | rfl | hpart | rfl
    · exact absurd hspells (not_spells_of_no_bracket hservice (by decide))
    · exact absurd hspells (not_spells_of_no_bracket hpipelines (by decide))
    · exact ⟨part, hpart, hspells⟩
    · exact absurd hspells (not_spells_indexed (dot_bracket_not_mem_section hsection).2 hbracket
        (not_suffix_of_earlier (mem_pathCategories_of_section hsection) hk))
  · rw [namesCategory, Bool.or_eq_true, Bool.or_eq_true]
    rintro ⟨part, hpart, rfl | hcontains⟩
    · refine .inl (.inr (contains_iff.mpr ?_))
      have hinfix : '.' :: (part.toList ++ ['.']) <:+:
          '.' :: (['.'].intercalate (name.toList.splitOn '.') ++ ['.']) :=
        GoString.sep_infix_intercalate (mem_split_iff.mp hpart)
      rw [List.intercalate_splitOn] at hinfix
      have hdots : ("." ++ part ++ ".").toList = '.' :: (part.toList ++ ['.']) := by
        simp [String.toList_append]
      rw [hdots, path_pipeline]
      exact hinfix.trans (infix_between_dots _ _ _ _)
    · refine .inr (contains_of_part ?_ hcontains)
      rw [hsplit]
      simp [hpart]

theorem contains_indexed (name : String) (i : ℕ) :
    contains (indexed name i) (name ++ "[") = true :=
  contains_iff.mpr ⟨[], Nat.toDigits 10 i ++ [']'], by simp [toList_indexed, String.toList_append]⟩

/-- The category of a pipeline's path is read back if the name of the pipeline spells none of those
that are looked for before. -/
theorem category_pipeline_iff (hsection : section_ ∈ pipelineSections) (name : String) (i : ℕ) :
    categoryFromValidationPath (indexed (Place.pipeline name section_).path i) = section_ ↔
      ∀ k ∈ earlierCategories section_, ¬SpellsCategory name k := by
  have hnames : namesCategory (indexed (Place.pipeline name section_).path i) section_ = true := by
    have hcontains : contains (indexed (Place.pipeline name section_).path i) (section_ ++ "[") =
        true := by
      refine contains_of_part ?_ (contains_indexed section_ i)
      rw [split_path_pipeline hsection]
      simp
    simp [namesCategory, hcontains]
  rw [categoryFromValidationPath,
    find_getD_iff (mem_pathCategories_of_section hsection) hnames]
  refine forall₂_congr fun k hk => ?_
  rw [← namesCategory_iff hsection hk name i, Bool.not_eq_true]

theorem split_path_extensions (i : ℕ) :
    split '.' (indexed Place.extensions.path i) = ["service", indexed "extensions" i] := by
  have hpath : indexed Place.extensions.path i = "service" ++ "." ++ indexed "extensions" i := by
    have hservice : "service.extensions" = "service" ++ ("." ++ "extensions") := by simp
    unfold Place.path indexed
    dsimp only
    rw [hservice]
    simp only [String.append_assoc, -String.reduceAppend]
  rw [hpath, split_append, split_eq_singleton (s := "service") (by decide),
    split_eq_singleton (dot_not_mem_indexed (by decide) i)]
  rfl

theorem category_extensions (i : ℕ) :
    categoryFromValidationPath (indexed Place.extensions.path i) = "extensions" := by
  have hpart : indexed "extensions" i ∈ split '.' (indexed Place.extensions.path i) := by
    simp [split_path_extensions]
  have hnames : namesCategory (indexed Place.extensions.path i) "extensions" = true := by
    have hcontains := contains_of_part hpart (contains_indexed "extensions" i)
    rw [namesCategory, hcontains, Bool.or_true]
  rw [categoryFromValidationPath, find_getD_iff (by decide) hnames]
  intro k hk
  rw [← Bool.not_eq_true]
  intro h
  have hmem : k ∈ pathCategories := (List.takeWhile_sublist _).subset hk
  obtain ⟨-, hbracket, hservice, -⟩ := mem_pathCategories hmem
  obtain ⟨part, hpart, hspells⟩ := spells_of_namesCategory hmem h
  rw [split_path_extensions] at hpart
  simp only [List.mem_cons, List.not_mem_nil, or_false] at hpart
  rcases hpart with rfl | rfl
  · exact not_spells_of_no_bracket hservice (by decide) hspells
  · exact not_spells_indexed (by decide) hbracket (not_suffix_of_earlier (by decide) hk) hspells

end Category

end OtelMagnify.Validator
