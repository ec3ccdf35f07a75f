import Mathlib

/-! `strconvFormatInt` of `internal/reports/redact.go`, which writes the digits of an integer from
the last one on into a buffer of 20 bytes. `Int.toInt?_repr` is in `Std`, which only the whole of
Mathlib imports. -/
namespace OtelMagnify.Reports

/-- `buf[pos] = b`; an index outside of the buffer is a panic. -/
def put (buf : List UInt8) (pos : ℕ) (b : UInt8) : Option (List UInt8) :=
  if pos < buf.length then some (buf.set pos b) else none

/-- The digit loop from `pos` on, with the position and the buffer behind it. -/
def formatDigits : ℕ → List UInt8 → Int64 → Option (ℕ × List UInt8)
  | 0, buf, i => if 0 < i then none else some (0, buf)
  | pos + 1, buf, i =>
    if 0 < i then
      (put buf pos (UInt8.ofInt (48 + i % 10).toInt)).bind fun buf => formatDigits pos buf (i / 10)
    else some (pos + 1, buf)

/-- The minus sign in front of the digits. -/
def formatSign : ℕ × List UInt8 → Option (ℕ × List UInt8)
  | (0, _) => none
  | (pos + 1, buf) => (put buf pos 45).map fun buf => (pos, buf)

/-- `string(buf[pos:])`; every byte is an ASCII character. -/
def textFrom (buf : List UInt8) (pos : ℕ) : List Char :=
  (buf.drop pos).map fun b => Char.ofNat b.toNat

def strconvFormatInt (i : Int64) : Option String :=
  if i = 0 then some "0"
  else do
    let digits ← formatDigits 20 (List.replicate 20 0) (if i < 0 then -i else i)
    let (pos, buf) ← if i < 0 then formatSign digits else some digits
    some (String.ofList (textFrom buf pos))

variable {buf : List UInt8} {pos : ℕ} {b : UInt8} {i : Int64}

theorem textFrom_set (h : pos < buf.length) :
    textFrom (buf.set pos b) pos = Char.ofNat b.toNat :: textFrom buf (pos + 1) := by
  unfold textFrom
  rw [List.drop_eq_getElem_cons (by simpa using h), List.getElem_set_self, List.map_cons,
    List.drop_set_of_lt (by omega)]

/-- The digits that the loop writes: none for zero. -/
def digitsOf (n : ℕ) : List Char := if n = 0 then [] else Nat.toDigits 10 n

theorem digitsOf_of_pos {n : ℕ} (h : 0 < n) :
    digitsOf n = digitsOf (n / 10) ++ [Nat.digitChar (n % 10)] := by
  unfold digitsOf
  rw [if_neg h.ne']
  by_cases hlt : n < 10
  · rw [if_pos (Nat.div_eq_of_lt hlt), Nat.toDigits_of_lt_base hlt, Nat.mod_eq_of_lt hlt,
      List.nil_append]
  · rw [if_neg (by omega), Nat.toDigits_of_base_le (by decide) (not_lt.mp hlt)]

theorem toInt_div_ten (h : 0 ≤ i.toInt) : (i / 10).toInt = i.toInt / 10 := by
  have hlt := i.toInt_lt
  rw [Int64.toInt_div]
  change (i.toInt.tdiv 10).bmod (2 ^ 64) = _
  rw [Int.tdiv_eq_ediv_of_nonneg h]
  exact Int.bmod_eq_of_le (by omega) (by omega)

theorem digitByte (h : 0 ≤ i.toInt) :
    Char.ofNat (UInt8.ofInt (48 + i % 10).toInt).toNat = Nat.digitChar (i.toInt.toNat % 10) := by
  have hmod : (i % 10).toInt = ((i.toInt.toNat % 10 : ℕ) : ℤ) := by
    rw [Int64.toInt_mod]
    change i.toInt.tmod 10 = _
    rw [Int.tmod_eq_emod_of_nonneg h]
    omega
  have hsum : (48 + i % 10).toInt = 48 + ((i.toInt.toNat % 10 : ℕ) : ℤ) := by
    rw [Int64.toInt_add, hmod]
    change (48 + ((i.toInt.toNat % 10 : ℕ) : ℤ)).bmod (2 ^ 64) = _
    exact Int.bmod_eq_of_le (by omega) (by omega)
  rw [hsum]
  have hlt : i.toInt.toNat % 10 < 10 := Nat.mod_lt _ (by decide)
  generalize i.toInt.toNat % 10 = d at hlt
  interval_cases d <;> rfl

/-- The loop writes the digits in front of what is there, `k` at most for a number below
`10 ^ k`. -/
theorem formatDigits_eq {m k : ℕ} (hi : 0 ≤ i.toInt) (hlt : i.toInt.toNat < 10 ^ k)
    (hbuf : m + k ≤ buf.length) :
    ∃ pos buf', formatDigits (m + k) buf i = some (pos, buf') ∧ m ≤ pos ∧ pos ≤ buf'.length ∧
      textFrom buf' pos = digitsOf i.toInt.toNat ++ textFrom buf (m + k) := by
  induction k generalizing buf i with
  | zero =>
    have hzero : i.toInt = 0 := by omega
    have hstop : ¬ 0 < i := by
      rw [Int64.lt_iff_toInt_lt, hzero]
      decide
    refine ⟨m, buf, ?_, le_rfl, hbuf, by rw [hzero]; rfl⟩
    cases m <;> exact if_neg hstop
  | succ k ih =>
    by_cases hpos : 0 < i
    · have hn : 0 < i.toInt.toNat := by
        have := Int64.lt_iff_toInt_lt.mp hpos
        change 0 < i.toInt at this
        omega
      have hdiv : (i / 10).toInt.toNat = i.toInt.toNat / 10 := by
        rw [toInt_div_ten hi]
        omega
      have hfits : m + k < buf.length := by omega
      have hroom : m + k ≤ (buf.set (m + k) (UInt8.ofInt (48 + i % 10).toInt)).length := by
        simpa using hfits.le
      obtain ⟨pos, buf', hrun, hm, hle, htext⟩ :=
        ih (i := i / 10) (by rw [toInt_div_ten hi]; omega) (by rw [hdiv]; omega) hroom
      refine ⟨pos, buf', ?_, hm, hle, ?_⟩
      · rw [← Nat.add_assoc, formatDigits, if_pos hpos, put, if_pos hfits]
        exact hrun
      · rw [htext, textFrom_set hfits, hdiv, digitByte hi, digitsOf_of_pos hn, List.append_assoc]
        rfl
    · have hzero : i.toInt.toNat = 0 := by
        have := mt Int64.lt_iff_toInt_lt.mpr hpos
        change ¬ 0 < i.toInt at this
        omega
      refine ⟨m + k + 1, buf, if_neg hpos, by omega, hbuf, ?_⟩
      rw [hzero]
      rfl

/-- The loop on a value without sign leaves room for one more byte. -/
theorem formatDigits_room (hi : 0 ≤ i.toInt) :
    ∃ pos buf, formatDigits 20 (List.replicate 20 0) i = some (pos + 1, buf) ∧ pos < buf.length ∧
      textFrom buf (pos + 1) = digitsOf i.toInt.toNat := by
  have hlt := i.toInt_lt
  have hroom : 1 + 19 ≤ (List.replicate 20 (0 : UInt8)).length := le_rfl
  obtain ⟨pos, buf, hrun, hpos, hle, htext⟩ := formatDigits_eq hi (by omega) hroom
  obtain ⟨pos, rfl⟩ : ∃ k, pos = k + 1 := ⟨pos - 1, by omega⟩
  exact ⟨pos, buf, hrun, hle, by simpa [textFrom] using htext⟩

theorem strconvFormatInt_eq (hexact : (-i).toInt = -i.toInt) :
    strconvFormatInt i = some i.toInt.repr := by
  unfold strconvFormatInt
  split_ifs with hzero hneg
  · rw [hzero]
    rfl
  · have hlt : i.toInt < 0 := Int64.lt_iff_toInt_lt.mp hneg
    obtain ⟨pos, buf, hrun, hpos, htext⟩ := formatDigits_room (i := -i) (by omega)
    obtain ⟨n, hn⟩ := Int.eq_negSucc_of_lt_zero hlt
    rw [hexact, hn] at htext
    have hsign : textFrom (buf.set pos 45) pos = '-' :: Nat.toDigits 10 (n + 1) := by
      rw [textFrom_set hpos, htext]
      rfl
    rw [hrun, Option.bind_eq_bind, Option.bind_some, formatSign, put, if_pos hpos]
    change some (String.ofList (textFrom (buf.set pos 45) pos)) = _
    rw [hsign, hn]
    simp [Int.repr, Nat.repr]
  · have hle : 0 ≤ i.toInt := not_lt.mp fun hlt => hneg (Int64.lt_iff_toInt_lt.mpr hlt)
    have hne : i.toInt ≠ 0 := fun he => hzero (Int64.toInt_inj.mp he)
    obtain ⟨pos, buf, hrun, -, htext⟩ := formatDigits_room hle
    obtain ⟨n, hn⟩ := Int.eq_ofNat_of_zero_le hle
    rw [hn] at htext hne ⊢
    rw [hrun]
    change some (String.ofList (textFrom buf (pos + 1))) = _
    rw [htext, digitsOf, if_neg (by omega)]
    rfl

/-- No integer makes `strconvFormatInt` write outside of its buffer. It gives the decimal text of
every integer but the least, whose negation overflows. -/
theorem format_int_iff (n : Int64) :
    (∃ s, strconvFormatInt n = some s) ∧
      ((∃ s, strconvFormatInt n = some s ∧ s = toString n.toInt ∧ s.toInt? = some n.toInt ∧
          (-n).toInt = -n.toInt) ↔
        n ≠ Int64.minValue) := by
  by_cases hmin : n = Int64.minValue
  · subst hmin
    refine ⟨⟨"-", by decide +kernel⟩, ?_, fun h => absurd rfl h⟩
    rintro ⟨s, -, -, -, hneg⟩
    exact absurd hneg (by decide)
  · have hexact : (-n).toInt = -n.toInt := by
      have hlt := n.toInt_lt
      have hle := n.le_toInt
      have hne : n.toInt ≠ -2 ^ 63 := fun he => hmin (Int64.toInt_inj.mp he)
      rw [Int64.toInt_neg]
      exact Int.bmod_eq_of_le (by omega) (by omega)
    have hformat := strconvFormatInt_eq hexact
    exact ⟨⟨_, hformat⟩, fun _ => hmin, fun _ => ⟨_, hformat, rfl, Int.toInt?_repr _, hexact⟩⟩

theorem format_least_int : strconvFormatInt Int64.minValue = some "-" ∧
    toString Int64.minValue.toInt = "-9223372036854775808" := by
  decide +kernel

end OtelMagnify.Reports
