import Mathlib.Data.List.TakeWhile
import Mathlib.Data.Rat.Cast.Order
import Mathlib.Data.Rat.Floor
import Mathlib.Tactic

/-! Decimal numbers and their texts: `m * 10 ^ e` is written with all its digits, or with an
exponent when it is very large or very small. A text determines the number. -/
namespace Decimal

/-- Drops zeros at the end of `m`, at most `fuel` of them. -/
def strip : ℕ → ℕ → ℤ → ℕ × ℤ
  | 0, m, e => (m, e)
  | fuel + 1, m, e => if m % 10 = 0 then strip fuel (m / 10) (e + 1) else (m, e)

/-- `m * 10 ^ e` with no zero at the end of the first factor. -/
def lowest (m : ℕ) (e : ℤ) : ℕ × ℤ := if m = 0 then (0, 0) else strip m m e

/-- All digits of `m * 10 ^ e`. -/
def fixed (m : ℕ) (e : ℤ) : List Char :=
  let digits := Nat.toDigits 10 m
  match e with
  | .ofNat n => digits ++ List.replicate n '0'
  | .negSucc n =>
    if n + 1 < digits.length then
      digits.take (digits.length - (n + 1)) ++ '.' :: digits.drop (digits.length - (n + 1))
    else '0' :: '.' :: (List.replicate (n + 1 - digits.length) '0' ++ digits)

/-- One digit before the point, and the exponent. -/
def scientific (m : ℕ) (e : ℤ) : List Char :=
  let digits := Nat.toDigits 10 m
  let exponent := e + (digits.length - 1 : ℕ)
  digits.take 1 ++ (if digits.length = 1 then [] else '.' :: digits.drop 1) ++
    'e' :: (if exponent < 0 then '-' else '+') :: Nat.toDigits 10 exponent.natAbs

/-- The text of `m * 10 ^ e`, which has an exponent from `10 ^ 21` on and below `10 ^ (-6)`. -/
def shortest (m : ℕ) (e : ℤ) : List Char :=
  let (m, e) := lowest m e
  let exponent := e + ((Nat.toDigits 10 m).length - 1 : ℕ)
  if exponent < -6 ∨ 21 ≤ exponent then scientific m e else fixed m e

def plain (m : ℕ) (e : ℤ) : List Char := fixed (lowest m e).1 (lowest m e).2

example : String.ofList (shortest 125 (-2)) = "1.25" := by decide
example : String.ofList (shortest 5 (-3)) = "0.005" := by decide
example : String.ofList (shortest 1200 2) = "120000" := by decide
example : String.ofList (shortest 12 21) = "1.2e+22" := by decide
example : String.ofList (shortest 5 (-7)) = "5e-7" := by decide

theorem strip_spec (fuel m : ℕ) (e : ℤ) (hm : m ≠ 0) (hfuel : m ≤ fuel) :
    ¬10 ∣ (strip fuel m e).1 ∧
      ((strip fuel m e).1 : ℚ) * 10 ^ (strip fuel m e).2 = m * 10 ^ e := by
  induction fuel generalizing m e with
  | zero => omega
  | succ fuel ih =>
    rw [strip]
    by_cases h : m % 10 = 0
    · rw [if_pos h]
      obtain ⟨hdvd, hvalue⟩ := ih (m / 10) (e + 1) (by omega) (by omega)
      refine ⟨hdvd, hvalue.trans ?_⟩
      have hm : (m : ℚ) = (m / 10 : ℕ) * 10 := by exact_mod_cast (show m = m / 10 * 10 by omega)
      rw [hm, zpow_add₀ (by norm_num), zpow_one]
      ring
    · rw [if_neg h]
      exact ⟨fun hdvd => h (Nat.mod_eq_zero_of_dvd hdvd), rfl⟩

theorem lowest_value (m : ℕ) (e : ℤ) :
    ((lowest m e).1 : ℚ) * 10 ^ (lowest m e).2 = m * 10 ^ e := by
  unfold lowest
  by_cases hm : m = 0
  · simp [hm]
  · rw [if_neg hm]
    exact (strip_spec m m e hm le_rfl).2

variable {e e' : ℤ} {m m' : ℕ}

/-- Two factors without a zero at the end are equal when the numbers are. -/
theorem factor_unique (hm : ¬10 ∣ m) (hle : e ≤ e')
    (h : (m : ℚ) * 10 ^ e = m' * 10 ^ e') : m = m' ∧ e = e' := by
  obtain ⟨d, rfl⟩ := Int.le.dest hle
  have hpow : (10 : ℚ) ^ e ≠ 0 := zpow_ne_zero _ (by norm_num)
  have hnat : m = m' * 10 ^ d := by
    rw [zpow_add₀ (by norm_num), zpow_natCast, ← mul_assoc, mul_right_comm] at h
    exact_mod_cast mul_right_cancel₀ hpow h
  cases d with
  | zero => exact ⟨by simpa using hnat, by simp⟩
  | succ d =>
    exact absurd ⟨m' * 10 ^ d, by rw [hnat, pow_succ]; ring⟩ hm

theorem lowest_unique (h : (m : ℚ) * 10 ^ e = m' * 10 ^ e') : lowest m e = lowest m' e' := by
  have hpow (n : ℤ) : (10 : ℚ) ^ n ≠ 0 := zpow_ne_zero _ (by norm_num)
  by_cases hm : m = 0
  · have hm' : m' = 0 := by simpa [hm, hpow] using h.symm
    simp [lowest, hm, hm']
  have hm' : m' ≠ 0 := by
    rintro rfl
    simp [hm, hpow] at h
  have hs := strip_spec m m e hm le_rfl
  have hs' := strip_spec m' m' e' hm' le_rfl
  have heq := (hs.2.trans h).trans hs'.2.symm
  rw [lowest, lowest, if_neg hm, if_neg hm']
  rcases le_total (strip m m e).2 (strip m' m' e').2 with hle | hle
  · exact Prod.ext_iff.mpr (factor_unique hs.1 hle heq)
  · exact (Prod.ext_iff.mpr (factor_unique hs'.1 hle heq.symm)).symm

/-- The number a text of digits and at most one point stands for. -/
def fixedValue (l : List Char) : ℚ :=
  Nat.ofDigitChars 10 (l.filter (· ≠ '.')) 0 / 10 ^ (l.dropWhile (· ≠ '.')).tail.length

/-- The exponent behind the letter. -/
def exponentValue : List Char → ℤ
  | '-' :: l => -Nat.ofDigitChars 10 l 0
  | _ :: l => Nat.ofDigitChars 10 l 0
  | [] => 0

def value (l : List Char) : ℚ :=
  fixedValue (l.takeWhile (· ≠ 'e')) * 10 ^ exponentValue (l.dropWhile (· ≠ 'e')).tail

section Digits

variable {l : List Char}

theorem digit_ne {c : Char} (h : c.isDigit = true) : c ≠ '.' ∧ c ≠ 'e' ∧ c ≠ '-' := by
  refine ⟨?_, ?_, ?_⟩ <;> rintro rfl <;> revert h <;> decide

theorem isDigit_toDigits (n : ℕ) : ∀ c ∈ Nat.toDigits 10 n, c.isDigit = true :=
  fun _ => Nat.isDigit_of_mem_toDigits (by decide) (by decide)

theorem filter_point (h : ∀ c ∈ l, c.isDigit = true) : l.filter (· ≠ '.') = l :=
  List.filter_eq_self.mpr fun c hc => decide_eq_true (digit_ne (h c hc)).1

theorem dropWhile_point (h : ∀ c ∈ l, c.isDigit = true) (r : List Char) :
    (l ++ '.' :: r).dropWhile (· ≠ '.') = '.' :: r := by
  rw [List.dropWhile_append_of_pos fun c hc => decide_eq_true (digit_ne (h c hc)).1]
  simp

/-- Digits without a point. -/
theorem fixedValue_digits (h : ∀ c ∈ l, c.isDigit = true) :
    fixedValue l = Nat.ofDigitChars 10 l 0 := by
  have hdrop : l.dropWhile (· ≠ '.') = [] :=
    List.dropWhile_eq_nil_iff.mpr fun c hc => decide_eq_true (digit_ne (h c hc)).1
  rw [fixedValue, filter_point h, hdrop]
  simp

theorem fixedValue_point {r : List Char} (h : ∀ c ∈ l, c.isDigit = true)
    (hr : ∀ c ∈ r, c.isDigit = true) :
    fixedValue (l ++ '.' :: r) = Nat.ofDigitChars 10 (l ++ r) 0 / 10 ^ r.length := by
  have hfilter : (l ++ '.' :: r).filter (· ≠ '.') = l ++ r := by
    rw [List.filter_append, List.filter_cons_of_neg (by decide), filter_point h, filter_point hr]
  rw [fixedValue, hfilter, dropWhile_point h, List.tail_cons]

theorem ofDigitChars_zeros (n : ℕ) :
    Nat.ofDigitChars 10 (List.replicate n '0' ++ l) 0 = Nat.ofDigitChars 10 l 0 := by
  rw [Nat.ofDigitChars_append, Nat.ofDigitChars_replicate_zero, Nat.mul_zero]

end Digits

theorem mem_fixed (m : ℕ) (e : ℤ) : ∀ c ∈ fixed m e, c.isDigit = true ∨ c = '.' := by
  intro c hc
  have hzero : ('0').isDigit = true := by decide
  have hdigits := isDigit_toDigits m
  cases e with
  | ofNat n =>
    simp only [fixed, List.mem_append, List.mem_replicate] at hc
    rcases hc with hc | ⟨-, rfl⟩
    · exact .inl (hdigits c hc)
    · exact .inl hzero
  | negSucc n =>
    simp only [fixed] at hc
    split at hc
    · rcases List.mem_append.mp hc with hc | hc
      · exact .inl (hdigits c (List.mem_of_mem_take hc))
      · rcases List.mem_cons.mp hc with rfl | hc
        · exact .inr rfl
        · exact .inl (hdigits c (List.mem_of_mem_drop hc))
    · simp only [List.mem_cons, List.mem_append, List.mem_replicate] at hc
      rcases hc with rfl | rfl | ⟨-, rfl⟩ | hc
      · exact .inl hzero
      · exact .inr rfl
      · exact .inl hzero
      · exact .inl (hdigits c hc)

theorem fixedValue_fixed (m : ℕ) (e : ℤ) : fixedValue (fixed m e) = m * 10 ^ e := by
  have hdigits := isDigit_toDigits m
  have hvalue : Nat.ofDigitChars 10 (Nat.toDigits 10 m) 0 = m := Nat.ofDigitChars_ten_toDigits
  cases e with
  | ofNat n =>
    rw [fixed, fixedValue_digits]
    · rw [Nat.ofDigitChars_append, hvalue, Nat.ofDigitChars_replicate_zero]
      push_cast
      simp [mul_comm]
    · intro c hc
      rcases List.mem_append.mp hc with hc | hc
      · exact hdigits c hc
      · rw [List.eq_of_mem_replicate hc]
        decide
  | negSucc n =>
    have hpow : (10 : ℚ) ^ (Int.negSucc n) = 1 / 10 ^ (n + 1) := by
      rw [zpow_negSucc, one_div]
    simp only [fixed]
    split
    · next hlt =>
      rw [fixedValue_point (fun c hc => hdigits c (List.mem_of_mem_take hc))
        (fun c hc => hdigits c (List.mem_of_mem_drop hc)), List.take_append_drop, hvalue,
        List.length_drop, hpow, show (Nat.toDigits 10 m).length -
          ((Nat.toDigits 10 m).length - (n + 1)) = n + 1 by omega]
      ring
    · next hge =>
      have hzeros : ∀ c ∈ List.replicate (n + 1 - (Nat.toDigits 10 m).length) '0' ++
          Nat.toDigits 10 m, c.isDigit = true := by
        intro c hc
        rcases List.mem_append.mp hc with hc | hc
        · rw [List.eq_of_mem_replicate hc]
          decide
        · exact hdigits c hc
      have hone : ∀ c ∈ ['0'], c.isDigit = true := by simp
      have hcons := fixedValue_point hone hzeros
      rw [List.singleton_append] at hcons
      rw [hcons, show ['0'] = List.replicate 1 '0' from rfl, ofDigitChars_zeros,
        ofDigitChars_zeros, hvalue, List.length_append, List.length_replicate, hpow,
        show n + 1 - (Nat.toDigits 10 m).length + (Nat.toDigits 10 m).length = n + 1 by omega]
      ring

theorem value_of_fixed {l : List Char} (h : ∀ c ∈ l, c.isDigit = true ∨ c = '.') :
    value l = fixedValue l := by
  have hne : ∀ c ∈ l, (c ≠ 'e' : Bool) = true := by
    intro c hc
    rcases h c hc with hd | rfl
    · exact decide_eq_true (digit_ne hd).2.1
    · decide
  have hdrop := List.dropWhile_eq_nil_iff.mpr hne
  have htake := List.takeWhile_eq_self_iff.mpr hne
  rw [value, htake, hdrop]
  simp [exponentValue]

theorem mem_scientific (m : ℕ) (e : ℤ) :
    ∀ c ∈ scientific m e, c.isDigit = true ∨ c ∈ ['.', 'e', '-', '+'] := by
  intro c hc
  simp only [scientific, List.mem_append, List.mem_cons] at hc
  rcases hc with (hc | hc) | rfl | hc | hc
  · exact .inl (isDigit_toDigits m c (List.mem_of_mem_take hc))
  · split at hc
    · cases hc
    · rcases List.mem_cons.mp hc with rfl | hc
      · exact .inr (by decide)
      · exact .inl (isDigit_toDigits m c (List.mem_of_mem_drop hc))
  · exact .inr (by decide)
  · right
    split at hc <;> subst hc <;> decide
  · exact .inl (isDigit_toDigits _ c hc)

theorem fixedValue_mantissa (m : ℕ) :
    fixedValue ((Nat.toDigits 10 m).take 1 ++
      if (Nat.toDigits 10 m).length = 1 then [] else '.' :: (Nat.toDigits 10 m).drop 1) =
      m / 10 ^ ((Nat.toDigits 10 m).length - 1) := by
  have hdigits := isDigit_toDigits m
  split
  · next hlen =>
    have htake : (Nat.toDigits 10 m).take 1 = Nat.toDigits 10 m := by rw [← hlen, List.take_length]
    rw [List.append_nil, htake, fixedValue_digits hdigits, Nat.ofDigitChars_ten_toDigits, hlen]
    simp
  · rw [fixedValue_point (fun c hc => hdigits c (List.mem_of_mem_take hc))
      (fun c hc => hdigits c (List.mem_of_mem_drop hc)), List.take_append_drop,
      Nat.ofDigitChars_ten_toDigits, List.length_drop]

theorem value_scientific (m : ℕ) (e : ℤ) : value (scientific m e) = m * 10 ^ e := by
  have hne : ∀ c ∈ (Nat.toDigits 10 m).take 1 ++ (if (Nat.toDigits 10 m).length = 1 then []
      else '.' :: (Nat.toDigits 10 m).drop 1), (c ≠ 'e' : Bool) = true := by
    intro c hc
    rcases List.mem_append.mp hc with hc | hc
    · exact decide_eq_true (digit_ne (isDigit_toDigits m c (List.mem_of_mem_take hc))).2.1
    · split at hc
      · cases hc
      · rcases List.mem_cons.mp hc with rfl | hc
        · decide
        · exact decide_eq_true (digit_ne (isDigit_toDigits m c (List.mem_of_mem_drop hc))).2.1
  have hexponent (x : ℤ) :
      exponentValue ((if x < 0 then '-' else '+') :: Nat.toDigits 10 x.natAbs) = x := by
    split
    · next hx =>
      rw [exponentValue, Nat.ofDigitChars_ten_toDigits]
      omega
    · next hx =>
      rw [exponentValue, Nat.ofDigitChars_ten_toDigits]
      · omega
      · decide
  rw [value, scientific, List.takeWhile_append_of_pos hne, List.dropWhile_append_of_pos hne,
    List.takeWhile_cons_of_neg (by decide), List.dropWhile_cons_of_neg (by decide), List.append_nil,
    List.tail_cons, hexponent, fixedValue_mantissa, zpow_add₀ (by norm_num), zpow_natCast]
  field_simp

theorem value_shortest (m : ℕ) (e : ℤ) : value (shortest m e) = m * 10 ^ e := by
  rw [← lowest_value m e]
  simp only [shortest]
  split
  · exact value_scientific _ _
  · rw [value_of_fixed (mem_fixed _ _), fixedValue_fixed]

theorem shortest_eq_iff : shortest m e = shortest m' e' ↔ (m : ℚ) * 10 ^ e = m' * 10 ^ e' := by
  constructor
  · intro h
    rw [← value_shortest, h, value_shortest]
  · intro h
    rw [shortest, shortest, lowest_unique h]

theorem mem_shortest (m : ℕ) (e : ℤ) :
    ∀ c ∈ shortest m e, c.isDigit = true ∨ c ∈ ['.', 'e', '-', '+'] := by
  intro c hc
  simp only [shortest] at hc
  split at hc
  · exact mem_scientific _ _ c hc
  · rcases mem_fixed _ _ c hc with h | rfl
    · exact .inl h
    · exact .inr (by decide)

theorem head_take_toDigits (m n : ℕ) (l : List Char) :
    ∃ c r, (Nat.toDigits 10 m).take (n + 1) ++ l = c :: r ∧ c.isDigit = true := by
  obtain ⟨c, r, hcons⟩ := List.exists_cons_of_ne_nil (Nat.toDigits_ne_nil (n := m) (b := 10))
  refine ⟨c, r.take n ++ l, by rw [hcons]; simp, isDigit_toDigits m c ?_⟩
  rw [hcons]
  exact List.mem_cons_self

theorem head_shortest (m : ℕ) (e : ℤ) : ∃ c r, shortest m e = c :: r ∧ c.isDigit = true := by
  simp only [shortest]
  generalize lowest m e = k
  split
  · rw [scientific, List.append_assoc]
    exact head_take_toDigits _ 0 _
  · obtain ⟨k, x⟩ := k
    cases x with
    | ofNat n =>
      have h := head_take_toDigits k ((Nat.toDigits 10 k).length) (List.replicate n '0')
      rwa [List.take_of_length_le (by omega)] at h
    | negSucc n =>
      simp only [fixed]
      split
      · next hlt =>
        have h := head_take_toDigits k ((Nat.toDigits 10 k).length - (n + 1) - 1)
          ('.' :: (Nat.toDigits 10 k).drop ((Nat.toDigits 10 k).length - (n + 1)))
        rwa [Nat.sub_add_cancel (by omega)] at h
      · exact ⟨'0', _, rfl, by decide⟩

def roundHalfEven (q : ℚ) : ℤ :=
  if q - ⌊q⌋ < 1 / 2 then ⌊q⌋
  else if 1 / 2 < q - ⌊q⌋ then ⌊q⌋ + 1
  else if ⌊q⌋ % 2 = 0 then ⌊q⌋ else ⌊q⌋ + 1

/-- `e` with `2 ^ e ≤ |q| < 2 ^ (e + 1)`, for `q ≠ 0`. -/
def binaryExponent (q : ℚ) : ℤ :=
  let e : ℤ := Nat.log2 q.num.natAbs - Nat.log2 q.den
  if 2 ^ e ≤ |q| then e else e - 1

/-- The nearest `float64`, which keeps 53 bits; one that is too large for a `float64` is kept. -/
def binary64 (q : ℚ) : ℚ :=
  let ulp : ℚ := 2 ^ (max (binaryExponent q) (-1022) - 52)
  roundHalfEven (q / ulp) * ulp

example : binary64 (1 / 10) = 3602879701896397 / 36028797018963968 := by decide +kernel

section Integers

variable {m n : ℕ} {e : ℤ}

theorem strip_exponent_le (fuel m : ℕ) (e : ℤ) : e ≤ (strip fuel m e).2 := by
  induction fuel generalizing m e with
  | zero => exact le_rfl
  | succ fuel ih =>
    rw [strip]
    split
    · have := ih (m / 10) (e + 1)
      omega
    · exact le_rfl

theorem toDigits_mul_pow (hm : 0 < m) (x : ℕ) :
    Nat.toDigits 10 (m * 10 ^ x) = Nat.toDigits 10 m ++ List.replicate x '0' := by
  induction x with
  | zero => simp
  | succ x ih =>
    have hpos : 0 < m * 10 ^ x := by positivity
    rw [pow_succ, show m * (10 ^ x * 10) = 10 * (m * 10 ^ x) + 0 by ring,
      ← Nat.toDigits_append_toDigits (by decide) hpos (by decide), ih, Nat.toDigits_zero,
      List.append_assoc, ← List.replicate_succ']

theorem lowest_nat (hn : n ≠ 0) :
    ∃ k x : ℕ, lowest n 0 = (k, (x : ℤ)) ∧
      Nat.toDigits 10 n = Nat.toDigits 10 k ++ List.replicate x '0' := by
  have hspec := strip_spec n n 0 hn le_rfl
  obtain ⟨x, hx⟩ := Int.eq_ofNat_of_zero_le (strip_exponent_le n n 0)
  have hvalue : (strip n n 0).1 * 10 ^ x = n := by
    have hrat := hspec.2
    rw [hx, zpow_zero, mul_one, zpow_natCast] at hrat
    exact_mod_cast hrat
  have hpos : 0 < (strip n n 0).1 := by
    rcases Nat.eq_zero_or_pos (strip n n 0).1 with h | h
    · rw [h] at hvalue
      omega
    · exact h
  refine ⟨(strip n n 0).1, x, ?_, ?_⟩
  · rw [lowest, if_neg hn]
    exact Prod.ext rfl hx
  · rw [← toDigits_mul_pow hpos, hvalue]

/-- An integer below `10 ^ 21` has all its digits in its text, a larger one an exponent. -/
theorem shortest_nat (n : ℕ) :
    if n < 10 ^ 21 then shortest n 0 = Nat.toDigits 10 n else 'e' ∈ shortest n 0 := by
  by_cases hzero : n = 0
  · subst hzero
    decide
  obtain ⟨k, x, hlowest, hdigits⟩ := lowest_nat hzero
  have hlen : (Nat.toDigits 10 n).length ≤ 21 ↔ n < 10 ^ 21 :=
    Nat.length_toDigits_le_iff (by decide) (by decide)
  rw [hdigits, List.length_append, List.length_replicate] at hlen
  have hfirst : 0 < (Nat.toDigits 10 k).length := Nat.length_toDigits_pos
  simp only [shortest, hlowest]
  split
  · next hn =>
    have := hlen.mpr hn
    rw [if_neg (by omega), hdigits]
    rfl
  · next hn =>
    have := mt hlen.mp hn
    rw [if_pos (by omega)]
    simp [scientific]

theorem shortest_eq_toDigits_iff :
    shortest m e = Nat.toDigits 10 n ↔ (m : ℚ) * 10 ^ e = n ∧ n < 10 ^ 21 := by
  have hnat := shortest_nat n
  have hint : (n : ℚ) = n * 10 ^ (0 : ℤ) := by simp
  constructor
  · intro h
    have hvalue : (m : ℚ) * 10 ^ e = n := by
      rw [← value_shortest, h, value_of_fixed fun c hc => .inl (isDigit_toDigits n c hc),
        fixedValue_digits (isDigit_toDigits n), Nat.ofDigitChars_ten_toDigits]
    refine ⟨hvalue, ?_⟩
    by_contra hge
    rw [if_neg hge, ← shortest_eq_iff.mpr (hvalue.trans hint), h] at hnat
    exact absurd (isDigit_toDigits n 'e' hnat) (by decide)
  · rintro ⟨hvalue, hlt⟩
    rw [if_pos hlt] at hnat
    rw [shortest_eq_iff.mpr (hvalue.trans hint), hnat]

end Integers

end Decimal
