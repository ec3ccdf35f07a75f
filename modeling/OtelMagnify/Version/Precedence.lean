import OtelMagnify.Lib.SemVer
import OtelMagnify.Version.Agreement

/-! `Compare` against Semantic Versioning 2.0.0. What `parse` accepts has a place in the linear
order of precedences, whether it is a semantic version or not, and `Compare` compares the places. -/
namespace OtelMagnify.Version
open Push GoText SemVer

/-- The place of an identifier: a number that does not fit in an `int` is a text. -/
def identifierRank (s : String) : ℕ ⊕ₗ String :=
  match parseNumber s with
  | some n => toLex (.inl n)
  | none => toLex (.inr s)

def Semver.precedence (v : Semver) : Precedence :=
  precedenceOf v.major v.minor v.patch (v.pre.map identifierRank)

section Compare

theorem compares_compareIdentifier (a b : String) :
    (compareIdentifier a b).Compares (identifierRank a) (identifierRank b) := by
  unfold compareIdentifier identifierRank
  cases parseNumber a with
  | some m =>
    cases parseNumber b with
    | some n => exact (Ordering.compares_compare m n).inl_toLex
    | none => exact Sum.Lex.inl_lt_inr _ _
  | none =>
    cases parseNumber b with
    | some n => exact Sum.Lex.inl_lt_inr _ _
    | none =>
      have h := Ordering.compares_compare a b
      rw [LinearOrder.compare_eq_compareOfLessAndEq] at h
      exact h.inr_toLex

theorem compares_compareIdentifiers (a b : List String) :
    (compareIdentifiers a b).Compares (a.map identifierRank) (b.map identifierRank) := by
  induction a generalizing b with
  | nil =>
    cases b with
    | nil => rfl
    | cons i is => exact List.nil_lt_cons _ _
  | cons i is ih =>
    cases b with
    | nil => exact List.nil_lt_cons _ _
    | cons j js => exact (compares_compareIdentifier i j).then_cons (ih js)

theorem compares_comparePrerelease (a b : List String) :
    (comparePrerelease a b).Compares (prePrecedence (a.map identifierRank))
      (prePrecedence (b.map identifierRank)) := by
  have hidentifiers := compares_compareIdentifiers a b
  cases a with
  | nil =>
    cases b with
    | nil => rfl
    | cons j js => exact WithTop.coe_lt_top _
  | cons i is =>
    cases b with
    | nil => exact WithTop.coe_lt_top _
    | cons j js => exact hidentifiers.coe_withTop

/-- `Compare` gives the order of the precedences. -/
theorem compare?_eq_cmp {a b : String} {v w : Semver} (ha : parse a = some v)
    (hb : parse b = some w) : compare? a b = some (cmp v.precedence w.precedence) := by
  have hpatch := (Ordering.compares_compare v.patch w.patch).then_toLex
    (compares_comparePrerelease v.pre w.pre)
  have hminor := (Ordering.compares_compare v.minor w.minor).then_toLex hpatch
  have hmajor := (Ordering.compares_compare v.major w.major).then_toLex hminor
  have hcmp : cmp v.precedence w.precedence = _ := hmajor.cmp_eq
  rw [hcmp, compare?, ha, hb]
  rfl

theorem compare?_eq_some {a b : String} {o : Ordering} (h : compare? a b = some o) :
    ∃ v w, parse a = some v ∧ parse b = some w ∧ o = cmp v.precedence w.precedence := by
  obtain ⟨v, hv, hrest⟩ := Option.bind_eq_some_iff.mp h
  obtain ⟨w, hw, -⟩ := Option.bind_eq_some_iff.mp hrest
  rw [compare?_eq_cmp hv hw] at h
  exact ⟨v, w, hv, hw, (Option.some.inj h).symm⟩

end Compare

section Parse

theorem le_ofDigitChars (l : List Char) (k : ℕ) : k ≤ Nat.ofDigitChars 10 l k := by
  induction l generalizing k with
  | nil => exact le_rfl
  | cons c cs ih =>
    rw [Nat.ofDigitChars_cons]
    exact le_trans (by omega) (ih _)

theorem parseUint_eq {l : List Char} (hl : ∀ c ∈ l, c.isDigit = true) {k : ℕ}
    (h : Nat.ofDigitChars 10 l k < 2 ^ 64) : parseUint k l = some (Nat.ofDigitChars 10 l k) := by
  induction l generalizing k with
  | nil => rfl
  | cons c cs ih =>
    rw [Nat.ofDigitChars_cons] at h ⊢
    have hle := le_ofDigitChars cs (10 * k + (c.toNat - '0'.toNat))
    rw [parseUint, if_pos (hl c List.mem_cons_self)]
    exact (if_neg (by omega)).trans (ih (fun d hd => hl d (List.mem_cons_of_mem _ hd)) h)

theorem parseNumber_toDigits {n : ℕ} (h : n < 2 ^ 63) :
    parseNumber (String.ofList (Nat.toDigits 10 n)) = some n := by
  have hvalue : Nat.ofDigitChars 10 (Nat.toDigits 10 n) 0 = n := Nat.ofDigitChars_ten_toDigits
  have hread := parseUint_eq (fun c hc => isDigit_digits (n := n) hc) (k := 0) (by omega)
  have hne : String.ofList (Nat.toDigits 10 n) ≠ "" := by
    rw [ne_eq, String.ofList_eq]
    exact Nat.toDigits_ne_nil
  rw [parseNumber, String.toList_ofList, if_pos
    ⟨hne, List.all_eq_true.mpr fun c hc => isDigit_digits hc⟩, hread, hvalue]
  simpa using h

variable {s : String} {v : SemVer.Version}

theorem parseNumber_of_nonDigit (h : ∃ c ∈ s.toList, c.isDigit = false) : parseNumber s = none := by
  obtain ⟨c, hc, hdigit⟩ := h
  refine if_neg fun hs => ?_
  rw [List.all_eq_true.mp hs.2 c hc] at hdigit
  cases hdigit

/-- The numeric identifier fits in an `int`. -/
def FitsInt : Identifier → Prop
  | .numeric n => n < 2 ^ 63
  | .alphanumeric _ => True

/-- The numeric fields and identifiers of a version fit in an `int`. -/
structure Fits (v : SemVer.Version) : Prop where
  major : v.major < 2 ^ 63
  minor : v.minor < 2 ^ 63
  patch : v.patch < 2 ^ 63
  pre : ∀ i ∈ v.pre, FitsInt i

theorem identifierRank_text {i : Identifier} (h : FitsInt i) :
    identifierRank (String.ofList i.text) = i.rank := by
  cases i with
  | numeric n => rw [identifierRank, Identifier.text, parseNumber_toDigits h, Identifier.rank]
  | alphanumeric a =>
    rw [identifierRank, Identifier.text, String.ofList_toList, parseNumber_of_nonDigit a.nonDigit,
      Identifier.rank]

def IsVersion (s : String) (v : SemVer.Version) : Prop :=
  s.toList = v.text ∨ s.toList = 'v' :: v.text

theorem toNat_identifierChar {c : Char} (h : isIdentifierChar c = true) :
    0x2d ≤ c.toNat ∧ c.toNat ≤ 0x7a := by
  have hrange : ∀ lo hi : UInt32, 0x2d ≤ lo.toNat → hi.toNat ≤ 0x7a →
      (lo ≤ c.val && c.val ≤ hi) = true → 0x2d ≤ c.toNat ∧ c.toNat ≤ 0x7a := by
    intro lo hi hlo hhi hc
    rw [Bool.and_eq_true, decide_eq_true_eq, decide_eq_true_eq] at hc
    exact ⟨hlo.trans hc.1, le_trans hc.2 hhi⟩
  rcases Bool.or_eq_true_iff.mp h with h | h
  · rcases Bool.or_eq_true_iff.mp (show (c.isAlpha || c.isDigit) = true from h) with h | h
    · rcases Bool.or_eq_true_iff.mp (show (c.isUpper || c.isLower) = true from h) with h | h
      · exact hrange 65 90 (by decide) (by decide)
          (Bool.and_eq_true_iff.mpr ((of_decide_eq_true h).imp decide_eq_true decide_eq_true))
      · exact hrange 97 122 (by decide) (by decide) h
    · exact hrange 48 57 (by decide) (by decide) h
  · rw [of_decide_eq_true h]
    decide

theorem isSpace_of_text {c : Char} (h : c = 'v' ∨ c = '+' ∨ c = '.' ∨ isIdentifierChar c = true) :
    isSpace c = false := by
  rcases h with rfl | rfl | rfl | h
  · decide
  · decide
  · decide
  · obtain ⟨hlo, hhi⟩ := toNat_identifierChar h
    by_contra hspace
    simp only [isSpace, Rune.isSpace, Bool.not_eq_false, Bool.or_eq_true, Bool.and_eq_true,
      decide_eq_true_eq] at hspace
    omega

theorem trimSpace_of_isVersion (h : IsVersion s v) : trimSpace s = s := by
  have hmem : ∀ c ∈ s.toList, isSpace c = false := by
    intro c hc
    rcases h with h | h
    · exact isSpace_of_text (.inr (mem_text (h ▸ hc)))
    · rcases List.mem_cons.mp (h ▸ hc) with rfl | hc
      · exact isSpace_of_text (.inl rfl)
      · exact isSpace_of_text (.inr (mem_text hc))
  exact trimSpace_of_not_space (fun c hc => hmem c (List.mem_of_mem_head? hc))
    fun c hc => hmem c (List.mem_of_mem_getLast? hc)

theorem trimPrefix_of_isVersion (h : IsVersion s v) : trimPrefix "v" s = String.ofList v.text := by
  obtain ⟨c, l, htext, hdigit⟩ := exists_text_cons v
  have hc : c ≠ 'v' := ne_of_isDigit hdigit rfl
  rcases h with h | h
  · rw [trimPrefix, h, if_neg (by simp [htext, hc.symm]), ← h, String.ofList_toList]
  · rw [trimPrefix, h, if_pos (by simp)]
    rfl

theorem before_ofList {sep : Char} {l r : List Char} (hl : sep ∉ l)
    (hr : ∀ c ∈ r.head?, c = sep) : before sep (String.ofList (l ++ r)) = String.ofList l := by
  have hkeep : ∀ c ∈ l, decide (c ≠ sep) = true := fun c hc =>
    decide_eq_true fun h => hl (h ▸ hc)
  rw [before, String.toList_ofList, List.takeWhile_append_of_pos hkeep]
  cases r with
  | nil => rw [List.takeWhile_nil, List.append_nil]
  | cons d ds =>
    rw [List.takeWhile_cons_of_neg (by simp [hr d rfl]), List.append_nil]

open SemVer.Version

theorem before_plus (v : SemVer.Version) :
    before '+' (String.ofList v.text) = String.ofList (v.core ++ v.preText) := by
  rw [text, ← List.append_assoc]
  refine before_ofList (fun h => ?_) fun c hc => ?_
  · rcases List.mem_append.mp h with h | h
    · rcases mem_core h with h | h <;> cases h
    · rcases mem_preText h with h | h <;> cases h
  · unfold buildText at hc
    split at hc
    · cases hc
    · exact (Option.some.inj hc).symm

theorem before_dash (v : SemVer.Version) :
    before '-' (String.ofList (v.core ++ v.preText)) = String.ofList v.core := by
  refine before_ofList (fun h => ?_) fun c hc => ?_
  · rcases mem_core h with h | h <;> cases h
  · unfold preText at hc
    split at hc
    · cases hc
    · exact (Option.some.inj hc).symm

theorem split_core (v : SemVer.Version) :
    split '.' (String.ofList v.core) =
      [v.major, v.minor, v.patch].map fun n => String.ofList (Nat.toDigits 10 n) := by
  rw [split, String.toList_ofList, core, splitOn_dotted, List.map_map]
  · rfl
  · simp
  · intro t ht c hc
    obtain ⟨n, -, rfl⟩ := List.mem_map.mp ht
    exact isIdentifierChar_of_isDigit (isDigit_digits hc)

/-- The identifiers that `parse` finds. -/
theorem preParts_eq (v : SemVer.Version) :
    (if (after? '-' (String.ofList (v.core ++ v.preText))).getD "" = "" then []
      else split '.' ((after? '-' (String.ofList (v.core ++ v.preText))).getD "")) =
      v.pre.map fun i => String.ofList i.text := by
  have hcore : '-' ∉ v.core := by
    intro h
    rcases mem_core h with h | h <;> cases h
  cases hpre : v.pre with
  | nil =>
    have htext : v.preText = [] := by simp [preText, hpre]
    simp [after?, htext, hcore]
  | cons i is =>
    have htext : v.preText = '-' :: dotted ((i :: is).map Identifier.text) := by
      simp [preText, hpre]
    have hafter : after? '-' (String.ofList (v.core ++ v.preText)) =
        some (String.ofList (dotted ((i :: is).map Identifier.text))) := by
      have hkeep : ∀ c ∈ v.core, decide (c ≠ '-') = true := fun c hc =>
        decide_eq_true fun h => hcore (h ▸ hc)
      rw [after?, String.toList_ofList, htext, if_pos (by simp),
        List.dropWhile_append_of_pos hkeep]
      simp
    have hsplit : split '.' (String.ofList (dotted ((i :: is).map Identifier.text))) =
        (i :: is).map fun i => String.ofList i.text := by
      rw [split, String.toList_ofList, splitOn_dotted, List.map_map]
      · rfl
      · simp
      · intro t ht
        obtain ⟨j, -, rfl⟩ := List.mem_map.mp ht
        exact j.isIdentifierChar_text
    rw [hafter, Option.getD_some, if_neg, hsplit]
    intro hnil
    rw [hnil] at hsplit
    have hhead : "" = String.ofList i.text := (List.cons.inj hsplit).1
    exact i.text_ne_nil (String.ofList_eq.mp hhead.symm)

/-- A semantic version is accepted, and has its own precedence. -/
theorem parse_of_isVersion (h : IsVersion s v) (hfits : Fits v) :
    ∃ u, parse s = some u ∧ u.precedence = v.precedence := by
  have hne : s ≠ "" := by
    rintro rfl
    obtain ⟨c, l, htext, -⟩ := exists_text_cons v
    rcases h with h | h
    · rw [htext] at h
      cases h
    · cases h
  have hempty : "" ∉ v.pre.map fun i => String.ofList i.text := by
    intro hmem
    obtain ⟨i, -, hi⟩ := List.mem_map.mp hmem
    exact i.text_ne_nil (String.ofList_eq.mp hi)
  have hranks : (v.pre.map fun i => String.ofList i.text).map identifierRank =
      v.pre.map Identifier.rank := by
    rw [List.map_map]
    exact List.map_congr_left fun i hi => identifierRank_text (hfits.pre i hi)
  refine ⟨⟨v.major, v.minor, v.patch, v.pre.map fun i => String.ofList i.text⟩, ?_, ?_⟩
  · simp only [parse, trimSpace_of_isVersion h, guard, hne, ne_eq, not_false_eq_true, if_true,
      trimPrefix_of_isVersion h, before_plus, before_dash, split_core, List.map_cons, List.map_nil,
      parseNumber_toDigits hfits.major, parseNumber_toDigits hfits.minor,
      parseNumber_toDigits hfits.patch, preParts_eq, hempty, Option.pure_def, Option.bind_eq_bind,
      Option.bind_some]
  · rw [Semver.precedence, hranks, precedence]

/-- `Compare` decides the precedence of semantic versions, and is a total preorder on whatever it
accepts. -/
theorem compare_is_precedence :
    (∀ a b v w, IsVersion a v → IsVersion b w → Fits v → Fits w →
      compare? a b = some (cmp v.precedence w.precedence)) ∧
    (∀ a b, (compare? a a).isSome → (compare? b b).isSome → (compare? a b).isSome) ∧
    (∀ a b o, compare? a b = some o → compare? a a = some .eq ∧ compare? b a = some o.swap) ∧
    ∀ a b c o o', compare? a b = some o → compare? b c = some o' → o ≠ .gt → o' ≠ .gt →
      ∃ r, compare? a c = some r ∧ r ≠ .gt ∧ (r = .eq ↔ o = .eq ∧ o' = .eq) := by
  refine ⟨?_, ?_, ?_, ?_⟩
  · intro a b v w ha hb hv hw
    obtain ⟨u, hu, hrank⟩ := parse_of_isVersion ha hv
    obtain ⟨x, hx, hrank'⟩ := parse_of_isVersion hb hw
    rw [compare?_eq_cmp hu hx, hrank, hrank']
  · intro a b ha hb
    obtain ⟨o, ho⟩ := Option.isSome_iff_exists.mp ha
    obtain ⟨o', ho'⟩ := Option.isSome_iff_exists.mp hb
    obtain ⟨v, -, hv, -⟩ := compare?_eq_some ho
    obtain ⟨w, -, hw, -⟩ := compare?_eq_some ho'
    rw [compare?_eq_cmp hv hw]
    rfl
  · intro a b o h
    obtain ⟨v, w, hv, hw, rfl⟩ := compare?_eq_some h
    rw [compare?_eq_cmp hv hv, compare?_eq_cmp hw hv, cmp_self_eq_eq, cmp_swap]
    exact ⟨rfl, rfl⟩
  · intro a b c o o' h h' ho ho'
    obtain ⟨v, w, hv, hw, rfl⟩ := compare?_eq_some h
    obtain ⟨w', x, hw', hx, rfl⟩ := compare?_eq_some h'
    obtain rfl : w = w' := Option.some.inj (hw.symm.trans hw')
    have hle := (cmp_compares v.precedence w.precedence).ne_gt.mp ho
    have hle' := (cmp_compares w.precedence x.precedence).ne_gt.mp ho'
    refine ⟨_, compare?_eq_cmp hv hx, (cmp_compares _ _).ne_gt.mpr (hle.trans hle'), ?_⟩
    rw [cmp_eq_eq_iff, cmp_eq_eq_iff, cmp_eq_eq_iff]
    constructor
    · intro heq
      have hvw : v.precedence = w.precedence := le_antisymm hle (heq ▸ hle')
      exact ⟨hvw, hvw ▸ heq⟩
    · rintro ⟨hvw, hwx⟩
      exact hvw.trans hwx

def alpha : Alphanumeric := ⟨"alpha", List.all_eq_true.mp rfl, 'a', by simp, rfl⟩

def alphaOne : SemVer.Version where
  major := 1
  minor := 0
  patch := 0
  pre := [.alphanumeric alpha, .numeric 1]
  build := [⟨"5114f85", List.all_eq_true.mp rfl, by decide⟩]

def alphaBeta : SemVer.Version where
  major := 1
  minor := 0
  patch := 0
  pre := [.alphanumeric alpha, .alphanumeric ⟨"beta", List.all_eq_true.mp rfl, 'b', by simp, rfl⟩]

theorem compare_is_precedence_alpha :
    IsVersion "v1.0.0-alpha.1+5114f85" alphaOne ∧ IsVersion "1.0.0-alpha.beta" alphaBeta ∧
      alphaOne.precedence < alphaBeta.precedence ∧
      compare? "v1.0.0-alpha.1+5114f85" "1.0.0-alpha.beta" = some .lt := by
  have hone : IsVersion "v1.0.0-alpha.1+5114f85" alphaOne := .inr (by decide +kernel)
  have hbeta : IsVersion "1.0.0-alpha.beta" alphaBeta := .inl (by decide +kernel)
  have hfits : Fits alphaOne := ⟨by decide, by decide, by decide, by simp [alphaOne, FitsInt]⟩
  have hfits' : Fits alphaBeta := ⟨by decide, by decide, by decide, by simp [alphaBeta, FitsInt]⟩
  have hlt : alphaOne.precedence < alphaBeta.precedence := by decide +kernel
  have hcompare := compare_is_precedence.1 _ _ _ _ hone hbeta hfits hfits'
  rw [(cmp_eq_lt_iff _ _).mpr hlt] at hcompare
  exact ⟨hone, hbeta, hlt, hcompare⟩

end Parse

end OtelMagnify.Version
