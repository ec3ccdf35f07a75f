import OtelMagnify.Alerts.Engine
import OtelMagnify.Validator.Static

/-! The version order of config validation against the one of `internal/version`. The validator
reads the numbers of a version from the untrimmed text and drops the errors of `Atoi`, so that what
surrounds the three numbers turns the major or the patch number into zero. -/
namespace OtelMagnify.Version
open Push GoText Validator

variable {c d : Char} {a b : String} {w : Semver} {s : String} {v : Semver}

section Reading

variable {n : ℕ}

theorem parseUint_append {k : ℕ} {ds : List Char} (l : List Char)
    (h : parseUint k ds = some n) (hn : n < 2 ^ 63) : parseUint k (ds ++ l) = parseUint n l := by
  induction ds generalizing k with
  | nil =>
    cases h
    rfl
  | cons c cs ih =>
    simp only [parseUint, List.cons_append] at h ⊢
    split_ifs at h ⊢ with hc hk
    · cases h
      omega
    · exact ih h

theorem ne_of_isDigit (hc : c.isDigit) (hd : d.isDigit = false) : c ≠ d := by
  rintro rfl
  simp [hc] at hd

theorem isSpace_of_isDigit (hc : c.isDigit) : isSpace c = false := digit_not_space hc

theorem ne_of_isSpace (hc : isSpace c) (hd : isSpace d = false) : c ≠ d := by
  rintro rfl
  simp [hc] at hd

/-- The digits of a number that `parseNumber` accepts. -/
structure ReadAs (ds : List Char) (n : ℕ) : Prop where
  ne_nil : ds ≠ []
  digits : ∀ c ∈ ds, c.isDigit
  read : parseUint 0 ds = some n
  lt : n < 2 ^ 63

theorem ReadAs.of_parseNumber (h : parseNumber s = some n) : ReadAs s.toList n := by
  rw [parseNumber] at h
  split_ifs at h with hs
  obtain ⟨hne, hdigits⟩ := hs
  obtain ⟨hread, hlt⟩ := Option.filter_eq_some_iff.1 h
  exact { ne_nil := fun h0 => hne (String.toList_eq_nil_iff.1 h0)
          digits := List.all_eq_true.1 hdigits
          read := hread
          lt := by simpa using hlt }

/-- `Atoi` on an accepted number followed by a text that does not go on with a digit. -/
theorem ReadAs.atoi_append {ds : List Char} (h : ReadAs ds n) (tail : List Char)
    (htail : ∀ c ∈ tail.head?, c.isDigit = false) :
    atoi (String.ofList (ds ++ tail)) = if tail = [] then (n : ℤ) else 0 := by
  obtain ⟨d, ds', rfl⟩ := List.exists_cons_of_ne_nil h.ne_nil
  have hd : d.isDigit := h.digits d List.mem_cons_self
  have hplus : d ≠ '+' := ne_of_isDigit hd rfl
  have hminus : d ≠ '-' := ne_of_isDigit hd rfl
  have hread := parseUint_append tail h.read h.lt
  have hlt := h.lt
  rw [List.cons_append] at hread
  simp only [atoi, String.toList_ofList, List.cons_append, hplus, hminus, or_self, if_false,
    reduceCtorEq, hread]
  cases tail with
  | nil =>
    simp only [parseUint, if_true]
    omega
  | cons c cs => simp [parseUint, htail c rfl]

theorem atoi_space (l : List Char) (hc : isSpace c) : atoi (String.ofList (c :: l)) = 0 := by
  have hdigit : c.isDigit = false := by
    by_contra h
    exact absurd hc (by simp [isSpace_of_isDigit (Bool.of_not_eq_false h)])
  have hplus : c ≠ '+' := ne_of_isSpace hc (by decide)
  have hminus : c ≠ '-' := ne_of_isSpace hc (by decide)
  simp [atoi, parseUint, hplus, hminus, hdigit]

theorem exists_trimSpace (s : String) : ∃ lead trail : List Char,
    s.toList = lead ++ ((trimSpace s).toList ++ trail) ∧ (∀ c ∈ lead, isSpace c) ∧
      ∀ c ∈ trail, isSpace c := by
  set m := s.toList.dropWhile isSpace with hm
  refine ⟨s.toList.takeWhile isSpace, (m.reverse.takeWhile isSpace).reverse, ?_,
    fun c hc => List.mem_takeWhile_imp hc,
    fun c hc => List.mem_takeWhile_imp (List.mem_reverse.1 hc)⟩
  have hback : (trimSpace s).toList ++ (m.reverse.takeWhile isSpace).reverse = m := by
    rw [trimSpace, String.toList_ofList, ← hm, ← List.reverse_append,
      List.takeWhile_append_dropWhile, List.reverse_reverse]
  rw [hback, hm, List.takeWhile_append_dropWhile]

theorem trimSpace_of_not_space (hhead : ∀ c ∈ s.toList.head?, isSpace c = false)
    (hlast : ∀ c ∈ s.toList.getLast?, isSpace c = false) : trimSpace s = s := by
  have hdrop : ∀ l : List Char, (∀ c ∈ l.head?, isSpace c = false) → l.dropWhile isSpace = l := by
    intro l hl
    cases l with
    | nil => rfl
    | cons c cs => exact List.dropWhile_cons_of_neg (by simp [hl c rfl])
  rw [trimSpace, hdrop _ hhead, hdrop _ (by simpa [List.head?_reverse] using hlast),
    List.reverse_reverse, String.ofList_toList]

theorem trimSpace_ends (s : String) :
    (∀ c ∈ (trimSpace s).toList.head?, isSpace c = false) ∧
      ∀ c ∈ (trimSpace s).toList.getLast?, isSpace c = false := by
  have hnot : ∀ l : List Char, ∀ c ∈ (l.dropWhile isSpace).head?, isSpace c = false := by
    intro l c hc
    have h := List.head?_dropWhile_not isSpace l
    rw [Option.mem_def.1 hc] at h
    exact h
  set m := s.toList.dropWhile isSpace with hm
  have htext : (trimSpace s).toList = (m.reverse.dropWhile isSpace).reverse := by
    rw [trimSpace, String.toList_ofList, ← hm]
  constructor
  · intro c hc
    obtain ⟨l, hl⟩ : (trimSpace s).toList <+: m := by
      rw [htext, ← List.reverse_suffix, List.reverse_reverse]
      exact List.dropWhile_suffix _
    refine hnot s.toList c ?_
    rw [← hm, ← hl, List.head?_append, Option.mem_def.1 hc]
    rfl
  · intro c hc
    rw [htext, List.getLast?_reverse] at hc
    exact hnot _ c hc

theorem trimSpace_trimSpace (s : String) : trimSpace (trimSpace s) = trimSpace s :=
  trimSpace_of_not_space (trimSpace_ends s).1 (trimSpace_ends s).2

end Reading

/-- How a version that `parse` accepts is written. -/
structure Layout (s : String) (v : Semver) where
  lead : List Char
  mark : List Char
  major : List Char
  minor : List Char
  patch : List Char
  rest : List Char
  trail : List Char
  text : s.toList = lead ++ (mark ++ (major ++ '.' :: (minor ++ '.' :: (patch ++ (rest ++ trail)))))
  lead_space : ∀ c ∈ lead, isSpace c
  mark_eq : mark = [] ∨ mark = ['v']
  major_read : ReadAs major v.major
  minor_read : ReadAs minor v.minor
  patch_read : ReadAs patch v.patch
  rest_head : ∀ c ∈ rest.head?, c = '+' ∨ c = '-'
  trail_space : ∀ c ∈ trail, isSpace c

theorem toList_before_append (sep : Char) (s : String) : ∃ l : List Char,
    s.toList = (before sep s).toList ++ l ∧ ∀ c ∈ l.head?, c = sep := by
  refine ⟨s.toList.dropWhile (· ≠ sep), ?_, fun c hc => ?_⟩
  · rw [before, String.toList_ofList, List.takeWhile_append_dropWhile]
  · have h := List.head?_dropWhile_not (fun c => decide (c ≠ sep)) s.toList
    rw [Option.mem_def.1 hc] at h
    simpa using h

theorem toList_trimPrefix_v (s : String) : ∃ mark : List Char,
    s.toList = mark ++ (trimPrefix "v" s).toList ∧ (mark = [] ∨ mark = ['v']) := by
  by_cases h : "v".toList.isPrefixOf s.toList
  · refine ⟨['v'], ?_, .inr rfl⟩
    obtain ⟨l, hl⟩ := List.isPrefixOf_iff_prefix.1 h
    rw [trimPrefix, if_pos h, ← hl]
    simp
  · exact ⟨[], by rw [trimPrefix, if_neg h]; rfl, .inl rfl⟩

theorem toList_of_split_three {c : String} (h : split '.' s = [a, b, c]) :
    s.toList = a.toList ++ '.' :: (b.toList ++ '.' :: c.toList) := by
  have hlists : s.toList.splitOn '.' = [a.toList, b.toList, c.toList] := by
    have h' := congrArg (List.map String.toList) h
    simpa [split, Function.comp_def] using h'
  have h' : ['.'].intercalate (s.toList.splitOn '.') = s.toList := List.intercalate_splitOn '.'
  rw [hlists] at h'
  simpa [List.intercalate] using h'.symm

/-- The numbers and the prerelease identifiers that `parse` finds in the trimmed text. -/
theorem parse_eq_some (h : parse s = some v) :
    ∃ major minor patch : String,
      split '.' (before '-' (before '+' (trimPrefix "v" (trimSpace s)))) = [major, minor, patch] ∧
      parseNumber major = some v.major ∧ parseNumber minor = some v.minor ∧
      parseNumber patch = some v.patch ∧
      ('-' ∉ (before '+' (trimPrefix "v" (trimSpace s))).toList → v.pre = []) := by
  obtain ⟨-, -, h⟩ := Option.bind_eq_some_iff.1 h
  dsimp only at h
  split at h
  next major minor patch hsplit =>
    obtain ⟨a, ha, h⟩ := Option.bind_eq_some_iff.1 h
    obtain ⟨b, hb, h⟩ := Option.bind_eq_some_iff.1 h
    obtain ⟨c, hc, h⟩ := Option.bind_eq_some_iff.1 h
    obtain ⟨-, -, h⟩ := Option.bind_eq_some_iff.1 h
    cases h
    exact ⟨major, minor, patch, hsplit, ha, hb, hc, fun hdash => by simp [after?, hdash]⟩
  next => cases h

theorem exists_layout (h : parse s = some v) : Nonempty (Layout s v) := by
  obtain ⟨major, minor, patch, hsplit, hmajor, hminor, hpatch, -⟩ := parse_eq_some h
  obtain ⟨lead, trail, hs, hlead, htrail⟩ := exists_trimSpace s
  obtain ⟨mark, hmark, hv⟩ := toList_trimPrefix_v (trimSpace s)
  obtain ⟨build, hbuild, hplus⟩ := toList_before_append '+' (trimPrefix "v" (trimSpace s))
  obtain ⟨pre, hpre, hdash⟩ :=
    toList_before_append '-' (before '+' (trimPrefix "v" (trimSpace s)))
  refine ⟨{ lead, mark, major := major.toList, minor := minor.toList, patch := patch.toList
            rest := pre ++ build, trail
            text := ?_, lead_space := hlead, mark_eq := hv
            major_read := .of_parseNumber hmajor, minor_read := .of_parseNumber hminor
            patch_read := .of_parseNumber hpatch, rest_head := ?_, trail_space := htrail }⟩
  · rw [hs, hmark, hbuild, hpre, toList_of_split_three hsplit]
    simp only [List.append_assoc, List.cons_append]
  · intro c hc
    cases pre with
    | nil => exact .inl (hplus c hc)
    | cons d ds => exact .inr (hdash c hc)

def indented (s : String) : Bool := s.toList.head?.any isSpace

/-- Whether nothing follows the numbers of a version: no prerelease, no build part, no space. -/
def bare (s : String) : Bool :=
  '+' ∉ s.toList ∧ '-' ∉ s.toList ∧ s.toList.getLast?.all fun c => !isSpace c

namespace Layout

variable {s : String} {v : Semver} (l : Layout s v)

theorem mem_mark (h : c ∈ l.mark) : c = 'v' := by
  rcases l.mark_eq with h' | h' <;> simp_all

theorem not_mem_numbers (hdigit : d.isDigit = false) (hspace : isSpace d = false)
    (hv : d ≠ 'v') (hdot : d ≠ '.') :
    d ∉ l.lead ++ (l.mark ++ (l.major ++ '.' :: (l.minor ++ '.' :: l.patch))) := by
  have hread : ∀ ds n, ReadAs ds n → d ∉ ds := fun ds n h hd =>
    ne_of_isDigit (h.digits d hd) hdigit rfl
  simp only [List.mem_append, List.mem_cons, not_or]
  exact ⟨fun h => ne_of_isSpace (l.lead_space d h) hspace rfl, fun h => hv (l.mem_mark h),
    hread _ _ l.major_read, hdot, hread _ _ l.minor_read, hdot, hread _ _ l.patch_read⟩

theorem indented_iff : indented s = true ↔ l.lead ≠ [] := by
  rw [indented, l.text]
  cases hlead : l.lead with
  | cons c cs =>
    have hc : isSpace c = true := l.lead_space c (by simp [hlead])
    simp [hc]
  | nil =>
    obtain ⟨d, ds, hd⟩ := List.exists_cons_of_ne_nil l.major_read.ne_nil
    have hdigit : isSpace d = false :=
      isSpace_of_isDigit (l.major_read.digits d (by simp [hd]))
    have hspace : isSpace 'v' = false := by decide
    rcases l.mark_eq with hm | hm <;> simp [hm, hd, hdigit, hspace]

theorem bare_iff : bare s = true ↔ l.rest ++ l.trail = [] := by
  constructor
  · intro h
    simp only [bare, decide_eq_true_eq] at h
    obtain ⟨hplus, hdash, hlast⟩ := h
    rw [l.text] at hplus hdash hlast
    have hrest : l.rest = [] := by
      cases hr : l.rest with
      | nil => rfl
      | cons c cs =>
        rcases l.rest_head c (by simp [hr]) with rfl | rfl
        · exact absurd (by simp [hr]) hplus
        · exact absurd (by simp [hr]) hdash
    rcases List.eq_nil_or_concat l.trail with htrail | ⟨init, c, htrail⟩
    · rw [hrest, htrail, List.append_nil]
    · have hc := l.trail_space c (by simp [htrail])
      simp [htrail, List.getLast?_append, List.getLast?_cons, hc] at hlast
  · intro h
    have htext : s.toList =
        l.lead ++ (l.mark ++ (l.major ++ '.' :: (l.minor ++ '.' :: l.patch))) := by
      rw [l.text, h, List.append_nil]
    have hlast : s.toList.getLast? = l.patch.getLast? := by
      obtain ⟨d, ds, hd⟩ := List.exists_cons_of_ne_nil l.patch_read.ne_nil
      simp [htext, hd, List.getLast?_append, List.getLast?_cons]
    simp only [bare, decide_eq_true_eq]
    refine ⟨?_, ?_, ?_⟩
    · rw [htext]
      exact l.not_mem_numbers rfl (by decide) (by decide) (by decide)
    · rw [htext]
      exact l.not_mem_numbers rfl (by decide) (by decide) (by decide)
    · rw [hlast, List.getLast?_eq_some_getLast l.patch_read.ne_nil, Option.all_some,
        isSpace_of_isDigit (l.patch_read.digits _ (List.getLast_mem _))]
      rfl

/-- What `versionParts` splits: the text without its spaces and mark, or all of it when it is
indented. -/
theorem toList_trimPrefix : ∃ first : List Char,
    (trimPrefix "v" s).toList =
      first ++ '.' :: (l.minor ++ '.' :: (l.patch ++ (l.rest ++ l.trail))) ∧ '.' ∉ first ∧
      atoi (String.ofList first) = if indented s then 0 else (v.major : ℤ) := by
  have hmajor : '.' ∉ l.major := fun h => ne_of_isDigit (l.major_read.digits _ h) rfl rfl
  by_cases hlead : l.lead = []
  · have hind : indented s = false := by
      rw [← Bool.not_eq_true, l.indented_iff, hlead]
      simp
    refine ⟨l.major, ?_, hmajor, ?_⟩
    · obtain ⟨d, ds, hd⟩ := List.exists_cons_of_ne_nil l.major_read.ne_nil
      have hdv : d ≠ 'v' := ne_of_isDigit (l.major_read.digits d (by simp [hd])) rfl
      rcases l.mark_eq with hm | hm
      · simp [trimPrefix, l.text, hlead, hm, hd, hdv.symm]
      · simp [trimPrefix, l.text, hlead, hm]
    · simpa [hind] using l.major_read.atoi_append [] (by simp)
  · obtain ⟨c, cs, hc⟩ := List.exists_cons_of_ne_nil hlead
    have hspace : isSpace c := l.lead_space c (by simp [hc])
    have hcv : c ≠ 'v' := ne_of_isSpace hspace (by decide)
    refine ⟨l.lead ++ (l.mark ++ l.major), ?_, ?_, ?_⟩
    · simp [trimPrefix, l.text, hc, hcv.symm]
    · simp only [List.mem_append, not_or]
      exact ⟨fun h => ne_of_isSpace (l.lead_space _ h) (by decide) rfl,
        fun h => absurd (l.mem_mark h) (by decide), hmajor⟩
    · rw [if_pos (l.indented_iff.2 hlead), hc]
      exact atoi_space _ hspace

theorem head?_tail (h : c ∈ (l.rest ++ l.trail).head?) : c = '+' ∨ c = '-' ∨ isSpace c := by
  cases hr : l.rest with
  | nil =>
    rw [hr, List.nil_append] at h
    exact .inr (.inr (l.trail_space c (List.mem_of_mem_head? h)))
  | cons d ds =>
    rw [hr, List.cons_append, List.head?_cons, Option.mem_some] at h
    rcases l.rest_head d (by simp [hr]) with hd | hd
    · exact .inl (h.symm.trans hd)
    · exact .inr (.inl (h.symm.trans hd))

/-- What `Atoi` is given behind the patch number: the text up to the next dot. -/
def tail : List Char := (l.rest ++ l.trail).takeWhile (· ≠ '.')

theorem head?_ne_dot (h : c ∈ (l.rest ++ l.trail).head?) : c ≠ '.' ∧ c.isDigit = false := by
  rcases l.head?_tail h with rfl | rfl | hc
  · exact ⟨by decide, rfl⟩
  · exact ⟨by decide, rfl⟩
  · refine ⟨ne_of_isSpace hc (by decide), ?_⟩
    by_contra hd
    exact absurd hc (by simp [isSpace_of_isDigit (Bool.of_not_eq_false hd)])

theorem tail_eq_nil_iff : l.tail = [] ↔ bare s = true := by
  rw [l.bare_iff, tail]
  cases hr : l.rest ++ l.trail with
  | nil => simp
  | cons c cs =>
    have hc := (l.head?_ne_dot (by rw [hr]; rfl : c ∈ (l.rest ++ l.trail).head?)).1
    simp [hc]

theorem isDigit_head?_tail (h : c ∈ l.tail.head?) : c.isDigit = false := by
  rw [tail] at h
  cases hr : l.rest ++ l.trail with
  | nil => simp [hr] at h
  | cons d ds =>
    obtain ⟨hdot, hdigit⟩ := l.head?_ne_dot (by rw [hr]; rfl : d ∈ (l.rest ++ l.trail).head?)
    rw [hr, List.takeWhile_cons_of_pos (by simpa using hdot), List.head?_cons, Option.mem_some] at h
    exact h ▸ hdigit

end Layout

theorem head_splitOn (sep : Char) (l : List Char) :
    (l.splitOn sep).head? = some (l.takeWhile (· ≠ sep)) := by
  induction l with
  | nil => simp
  | cons c cs ih =>
    rw [List.splitOn_cons_eq_if_modifyHead]
    by_cases hc : c = sep
    · simp [hc]
    · simp [hc, ih, List.head?_modifyHead]

/-- The numbers that the validator reads where `parse` reads `v`. -/
def Semver.seenIn (v : Semver) (s : String) : Semver :=
  { major := if indented s then 0 else v.major
    minor := v.minor
    patch := if bare s then v.patch else 0
    pre := [] }

/-- What `versionParts` reads of a version that `parse` accepts: an indented text loses its major
number, a text that goes on behind the patch number loses that. -/
theorem versionParts_eq (h : parse s = some v) :
    versionParts s = (((v.seenIn s).major : ℤ), ((v.seenIn s).minor : ℤ),
      ((v.seenIn s).patch : ℤ)) := by
  obtain ⟨l⟩ := exists_layout h
  obtain ⟨first, htext, hdot, hfirst⟩ := l.toList_trimPrefix
  have hminor : '.' ∉ l.minor := fun h => ne_of_isDigit (l.minor_read.digits _ h) rfl rfl
  have hpatch : ∀ c ∈ l.patch, decide (c ≠ '.') = true := fun c hc =>
    decide_eq_true (ne_of_isDigit (l.patch_read.digits c hc) rfl)
  have hparts : split '.' (trimPrefix "v" s) = String.ofList first :: String.ofList l.minor ::
      ((l.patch ++ (l.rest ++ l.trail)).splitOn '.').map String.ofList := by
    rw [split, htext, List.splitOn_append_cons_self_of_not_mem hdot,
      List.splitOn_append_cons_self_of_not_mem hminor]
    rfl
  have hthird : (((l.patch ++ (l.rest ++ l.trail)).splitOn '.').map String.ofList)[0]? =
      some (String.ofList (l.patch ++ l.tail)) := by
    rw [← List.head?_eq_getElem?, List.head?_map, head_splitOn,
      List.takeWhile_append_of_pos hpatch]
    rfl
  have hatoi : atoi (String.ofList l.minor) = v.minor := by
    simpa using l.minor_read.atoi_append [] (by simp)
  rw [versionParts, hparts]
  simp only [List.getElem?_cons_zero, List.getElem?_cons_succ, hthird, Option.map_some,
    Option.getD_some, hfirst, hatoi, l.patch_read.atoi_append l.tail (fun _ => l.isDigit_head?_tail),
    l.tail_eq_nil_iff, Semver.seenIn, apply_ite (Nat.cast : ℕ → ℤ), Int.natCast_zero]

theorem pre_eq_nil_of_bare (h : parse s = some v) (hbare : bare s = true) : v.pre = [] := by
  obtain ⟨-, -, -, -, -, -, -, hpre⟩ := parse_eq_some h
  refine hpre fun hmem => ?_
  obtain ⟨lead, trail, hs, -, -⟩ := exists_trimSpace s
  obtain ⟨mark, hmark, -⟩ := toList_trimPrefix_v (trimSpace s)
  obtain ⟨build, hbuild, -⟩ := toList_before_append '+' (trimPrefix "v" (trimSpace s))
  simp only [bare, decide_eq_true_eq] at hbare
  refine hbare.2.1 ?_
  rw [hs, hmark, hbuild]
  simp [hmem]

def Semver.Precedes (v w : Semver) : Prop :=
  v.major < w.major ∨ v.major = w.major ∧ (v.minor < w.minor ∨ v.minor = w.minor ∧
    (v.patch < w.patch ∨ v.patch = w.patch ∧ comparePrerelease v.pre w.pre = .lt))

theorem compare?_eq_lt_iff (ha : parse a = some v)
    (hb : parse b = some w) : compare? a b = some .lt ↔ v.Precedes w := by
  simp [compare?, ha, hb, Ordering.then_eq_lt, compare_lt_iff_lt, Semver.Precedes]

theorem compareVersions_eq_lt_iff (a b : String) : compareVersions a b = .lt ↔
    (versionParts a).1 < (versionParts b).1 ∨ (versionParts a).1 = (versionParts b).1 ∧
      ((versionParts a).2.1 < (versionParts b).2.1 ∨
        (versionParts a).2.1 = (versionParts b).2.1 ∧
          (versionParts a).2.2 < (versionParts b).2.2) := by
  simp [compareVersions, Ordering.then_eq_lt, compare_lt_iff_lt]

theorem comparePrerelease_nil_left (b : List String) : comparePrerelease [] b ≠ .lt := by
  unfold comparePrerelease
  split_ifs <;> simp_all

theorem comparePrerelease_nil_right (a : List String) :
    comparePrerelease a [] = .lt ↔ a ≠ [] := by
  unfold comparePrerelease
  split_ifs <;> simp_all

theorem compareVersions_eq_lt (ha : parse a = some v) (hb : parse b = some w) :
    compareVersions a b = .lt ↔ (v.seenIn a).Precedes (w.seenIn b) := by
  have hpre : comparePrerelease [] [] ≠ .lt := comparePrerelease_nil_left []
  rw [compareVersions_eq_lt_iff, versionParts_eq ha, versionParts_eq hb]
  simp only [Semver.Precedes, Int.ofNat_lt, Int.natCast_inj]
  simp only [Semver.seenIn, hpre, and_false, or_false]

theorem not_lex_iff {m n : ℕ} {P Q : Prop} (h : ¬ P ↔ Q) :
    ¬ (m < n ∨ m = n ∧ P) ↔ n < m ∨ m = n ∧ Q := by
  rcases lt_trichotomy m n with hlt | rfl | hgt
  · simp [hlt, hlt.not_gt, hlt.ne]
  · simp [h]
  · simp [hgt, hgt.not_gt, hgt.ne']

/-- When the patch numbers that the validator reads are in the order of the versions, for two
versions with the same major and minor number. -/
def PatchesAgree (bareA bareB : Bool) (v w : Semver) : Prop :=
  match bareA, bareB with
  | true, true => True
  | true, false => w.patch ≤ v.patch
  | false, true => 0 < w.patch ↔ v.patch < w.patch ∨ v.patch = w.patch ∧ v.pre ≠ []
  | false, false =>
    w.patch < v.patch ∨ v.patch = w.patch ∧ comparePrerelease v.pre w.pre ≠ .lt

theorem patchesAgree_iff {bareA bareB : Bool} (hA : bareA = true → v.pre = [])
    (hB : bareB = true → w.pre = []) :
    ((if bareA then v.patch else 0) < (if bareB then w.patch else 0) ↔
      v.patch < w.patch ∨ v.patch = w.patch ∧ comparePrerelease v.pre w.pre = .lt) ↔
      PatchesAgree bareA bareB v w := by
  cases bareA with
  | true =>
    have hv := comparePrerelease_nil_left w.pre
    rw [hA rfl]
    cases bareB with
    | true | false => simp [PatchesAgree, hv]
  | false =>
    cases bareB with
    | true =>
      rw [hB rfl, comparePrerelease_nil_right]
      simp [PatchesAgree]
    | false =>
      simp only [PatchesAgree, Bool.false_eq_true, if_false, lt_irrefl, false_iff]
      exact not_lex_iff Iff.rfl

/-- When the two orders agree on two versions. The major number that is read of an indented version
is zero: where it orders two versions otherwise than their own, the rest decides. -/
def OrdersAgree (a b : String) (v w : Semver) : Prop :=
  match compare (v.seenIn a).major (w.seenIn b).major, compare v.major w.major with
  | .eq, .eq => v.minor ≠ w.minor ∨ PatchesAgree (bare a) (bare b) v w
  | .eq, .lt => v.minor < w.minor ∨ v.minor = w.minor ∧ (v.seenIn a).patch < (w.seenIn b).patch
  | .eq, .gt => w.minor < v.minor ∨ v.minor = w.minor ∧ (w.seenIn b).patch ≤ (v.seenIn a).patch
  | .lt, .eq => v.minor < w.minor ∨ v.minor = w.minor ∧
      (v.patch < w.patch ∨ v.patch = w.patch ∧ comparePrerelease v.pre w.pre = .lt)
  | .gt, .eq => w.minor < v.minor ∨ v.minor = w.minor ∧
      (w.patch < v.patch ∨ v.patch = w.patch ∧ comparePrerelease v.pre w.pre ≠ .lt)
  | seen, real => seen = real

theorem ordersAgree_iff (ha : parse a = some v) (hb : parse b = some w) :
    ((v.seenIn a).Precedes (w.seenIn b) ↔ v.Precedes w) ↔ OrdersAgree a b v w := by
  have hpatches : ((v.seenIn a).patch < (w.seenIn b).patch ↔ _) ↔ _ :=
    patchesAgree_iff (pre_eq_nil_of_bare ha) (pre_eq_nil_of_bare hb)
  have hminor (u : Semver) (s : String) : (u.seenIn s).minor = u.minor := rfl
  have hnil : comparePrerelease (v.seenIn a).pre (w.seenIn b).pre ≠ .lt :=
    comparePrerelease_nil_left []
  unfold OrdersAgree
  simp only [Semver.Precedes, hminor, hnil, and_false, or_false]
  cases hseen : compare (v.seenIn a).major (w.seenIn b).major <;>
    cases hreal : compare v.major w.major <;>
    simp only [compare_lt_iff_lt, compare_eq_iff_eq, compare_gt_iff_gt] at hseen hreal
  case eq.eq =>
    by_cases heq : v.minor = w.minor
    · simpa [hseen, hreal, heq] using hpatches
    · simp [hseen, hreal, heq]
  case eq.lt | lt.eq => simp [hseen, hreal]
  case eq.gt =>
    simp only [hseen, lt_irrefl, false_or, true_and, hreal.not_gt, hreal.ne', false_and, iff_false]
    exact not_lex_iff not_lt
  case gt.eq =>
    simp only [hreal, lt_irrefl, false_or, true_and, hseen.not_gt, hseen.ne', false_and, false_iff]
    exact not_lex_iff (not_lex_iff Iff.rfl)
  case lt.lt => simp [hseen, hreal]
  case lt.gt => simp [hseen, hreal.not_gt, hreal.ne']
  case gt.lt => simp [hreal, hseen.not_gt, hseen.ne']
  case gt.gt => simp [hreal.not_gt, hreal.ne', hseen.not_gt, hseen.ne']

theorem parse_trimSpace (s : String) : parse (trimSpace s) = parse s := by
  rw [parse, parse, trimSpace_trimSpace]

theorem not_indented_trimSpace (s : String) : indented (trimSpace s) = false := by
  have h := (trimSpace_ends s).1
  rw [indented]
  cases hs : (trimSpace s).toList.head? with
  | none => rfl
  | some c => exact h c hs

theorem trimSpace_ne_empty (h : parse s = some v) : trimSpace s ≠ "" := by
  intro hs
  rw [parse, hs] at h
  cases h

theorem isBelowMinimum_iff (ha : parse a = some v)
    (hb : parse b = some w) : isBelowMinimum a b = true ↔
      compareVersions (trimSpace a) (trimSpace b) = .lt := by
  simp [isBelowMinimum, trimSpace_ne_empty ha, trimSpace_ne_empty hb]

theorem isOutdated_iff (ha : parse a = some v)
    (hb : parse b = some w) : Alerts.isOutdated b a = some true ↔ v.Precedes w := by
  have hne : ∀ {s u}, parse s = some u → s ≠ "" := by
    rintro s u h rfl
    cases h
  rw [Alerts.isOutdated, if_neg (not_or.2 ⟨hne hb, hne ha⟩), ← compare?_eq_lt_iff ha hb]
  simp

/-- The two version orders agree on two versions exactly when the numbers that the validator reads
of them are in the order of the versions, and so do the verdicts of config validation and of the
`version_outdated` rule, both of which are about the trimmed texts. Where nothing surrounds the
numbers they agree. -/
theorem version_orders_agree_iff {a b : String} {v w : Semver} (ha : parse a = some v)
    (hb : parse b = some w) :
    ((compareVersions a b = .lt ↔ compare? a b = some .lt) ↔ OrdersAgree a b v w) ∧
      (∀ source, ((validateVersionCompatibility a source b).status = .failed ↔
        Alerts.isOutdated b a = some true) ↔ OrdersAgree (trimSpace a) (trimSpace b) v w) ∧
      (bare (trimSpace a) = true → bare (trimSpace b) = true →
        OrdersAgree (trimSpace a) (trimSpace b) v w) := by
  have ha' : parse (trimSpace a) = some v := by rw [parse_trimSpace, ha]
  have hb' : parse (trimSpace b) = some w := by rw [parse_trimSpace, hb]
  refine ⟨?_, fun source => ?_, fun hbareA hbareB => ?_⟩
  · rw [compareVersions_eq_lt ha hb, compare?_eq_lt_iff ha hb, ordersAgree_iff ha hb]
  · rw [(validateVersionCompatibility_verdict ..).2, isBelowMinimum_iff ha hb, isOutdated_iff ha hb,
      compareVersions_eq_lt ha' hb', ordersAgree_iff ha' hb']
  · rw [← ordersAgree_iff ha' hb']
    have hv := pre_eq_nil_of_bare ha' hbareA
    have hw := pre_eq_nil_of_bare hb' hbareB
    simp [Semver.Precedes, Semver.seenIn, not_indented_trimSpace, hbareA, hbareB, hv, hw]

/-- A release candidate of `1.2.3` is not below `1.2.1`, but the validator reads its patch number
as zero. -/
theorem prerelease_rejected_as_old :
    (compareVersions "1.2.3-rc.1" "1.2.1" = .lt ∧ compare? "1.2.3-rc.1" "1.2.1" = some .gt) ∧
      (validateVersionCompatibility "1.2.3-rc.1" "workload" "1.2.1").status = .failed ∧
      Alerts.isOutdated "1.2.1" "1.2.3-rc.1" = some false ∧
      compareVersions "0.100.0-rc.1" "0.100.0" = .eq ∧
      compare? "0.100.0-rc.1" "0.100.0" = some .lt := by
  decide +kernel

theorem version_orders_agree_iff_release :
    (compareVersions "v0.99.2" "0.100.0" = .lt ↔ compare? "v0.99.2" "0.100.0" = some .lt) :=
  (version_orders_agree_iff (v := ⟨0, 99, 2, []⟩) (w := ⟨0, 100, 0, []⟩) (by decide +kernel)
    (by decide +kernel)).1.2 (.inl (by decide))

end OtelMagnify.Version
