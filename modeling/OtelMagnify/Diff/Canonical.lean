import OtelMagnify.Lib.Decimal
import OtelMagnify.Lib.Json
import OtelMagnify.Yaml.Value

/-! `canonical`: the JSON text by which two configurations of a component are compared. It is empty
for a value `json.Marshal` fails on. -/
namespace OtelMagnify.Diff
open Yaml GoString

/-- A number as `encoding/json` writes it: an integer, or a `float64` by its shortest decimal. -/
inductive Numeral where
  | int (n : ℤ)
  | decimal (neg : Bool) (mantissa : ℕ) (exponent : ℤ)

inductive Scalar where
  | null
  | bool (b : Bool)
  | num (n : Numeral)
  | str (s : List (Option Char))

/-- `appendStrictRFC3339` rejects a year of more than four digits and an offset of a day or more. -/
def isStrictTime (text : String) : Bool :=
  let l := text.toList
  l.getD 4 ' ' = '-' &&
    (l.getLastD ' ' = 'Z' ||
      (!(l.getD (l.length - 6) ' ').isDigit &&
        Nat.ofDigitChars 10 ((l.drop (l.length - 5)).take 2) 0 < 24))

def runeChar : Rune → Option Char
  | .char c => some c
  | .bad _ => none

def scalarOf : Value → Option Scalar
  | .null => some .null
  | .bool b => some (.bool b)
  | .int n => some (.num (.int n))
  | .uint n => some (.num (.int n))
  | .float (.finite neg m e _) => some (.num (.decimal neg m e))
  | .str s => some (.str (s.toList.map some))
  | .binary b => some (.str ((decode b).map runeChar))
  | .time text => if isStrictTime text then some (.str (text.toList.map some)) else none
  | _ => none

def signed (neg : Bool) (l : List Char) : List Char := if neg then '-' :: l else l

def Numeral.text : Numeral → List Char
  | .int n => signed (n < 0) (Nat.toDigits 10 n.natAbs)
  | .decimal neg m e => signed neg (Decimal.shortest m e)

theorem isNumberChar_of_digit {c : Char} (h : c.isDigit = true) : Json.isNumberChar c = true := by
  simp [Json.isNumberChar, h]

theorem all_signed {l : List Char} (neg : Bool) (h : ∀ c ∈ l, Json.isNumberChar c = true) :
    (signed neg l).all Json.isNumberChar = true := by
  rw [List.all_eq_true]
  intro c hc
  cases neg with
  | false => exact h c hc
  | true =>
    rcases List.mem_cons.mp hc with rfl | hc
    · decide
    · exact h c hc

theorem signed_ne_nil {l : List Char} (neg : Bool) (h : l ≠ []) : signed neg l ≠ [] := by
  cases neg with
  | false => exact h
  | true => exact List.cons_ne_nil _ _

def Numeral.numberText (n : Numeral) : Json.NumberText where
  text := n.text
  ne_nil := by
    cases n with
    | int n => exact signed_ne_nil _ Nat.toDigits_ne_nil
    | decimal neg m e =>
      obtain ⟨c, r, h, -⟩ := Decimal.head_shortest m e
      exact signed_ne_nil _ (h ▸ List.cons_ne_nil c r)
  chars := by
    cases n with
    | int n =>
      exact all_signed _ fun c hc => isNumberChar_of_digit (Decimal.isDigit_toDigits _ c hc)
    | decimal neg m e =>
      refine all_signed _ fun c hc => ?_
      rcases Decimal.mem_shortest m e c hc with h | h
      · exact isNumberChar_of_digit h
      · simp [Json.isNumberChar, h]

def Scalar.json : Scalar → Json.Value
  | .null => .null
  | .bool b => .bool b
  | .num n => .num n.numberText
  | .str s => .str s

mutual

/-- What `json.Marshal` encodes; none where it fails. -/
def toJson : Value → Option Json.Value
  | .list l => (toElements l).map .arr
  | .obj m => (toMembers m).map .obj
  | v => (scalarOf v).map Scalar.json

def toElements : Values → Option Json.Elements
  | .nil => some .nil
  | .cons v l =>
    match toJson v, toElements l with
    | some v, some l => some (.cons v l)
    | _, _ => none

def toMembers : Fields → Option Json.Members
  | .nil => some .nil
  | .cons key v m =>
    match toJson v, toMembers m with
    | some v, some m => some (.cons (key.toList.map some) v m)
    | _, _ => none

end

def canonical (v : Value) : List Char :=
  match toJson v with
  | some j => j.text
  | none => []

section Relation

/-- The two numbers are written alike: they are equal, and an integer and a `float64` lie below
`10 ^ 21`. -/
def Numeral.Same : Numeral → Numeral → Prop
  | .int n, .int n' => n = n'
  | .decimal neg m e, .decimal neg' m' e' => neg = neg' ∧ (m : ℚ) * 10 ^ e = m' * 10 ^ e'
  | .int n, .decimal neg m e | .decimal neg m e, .int n =>
    neg = decide (n < 0) ∧ (m : ℚ) * 10 ^ e = n.natAbs ∧ n.natAbs < 10 ^ 21

def Scalar.Same : Scalar → Scalar → Prop
  | .null, .null => True
  | .bool b, .bool b' => b = b'
  | .num n, .num n' => n.Same n'
  | .str s, .str s' => s = s'
  | _, _ => False

def SameScalar (v w : Value) : Prop :=
  match scalarOf v, scalarOf w with
  | some a, some b => a.Same b
  | _, _ => False

mutual

/-- Nothing in the value makes `json.Marshal` fail: no `map[any]any`, no NaN or infinity, and no time
with an offset of a day. -/
def isEncodable : Value → Bool
  | .list l => areEncodable l
  | .obj m => fieldsEncodable m
  | v => (scalarOf v).isSome

def areEncodable : Values → Bool
  | .nil => true
  | .cons v l => isEncodable v && areEncodable l

def fieldsEncodable : Fields → Bool
  | .nil => true
  | .cons _ v m => isEncodable v && fieldsEncodable m

end

mutual

def SameJson : Value → Value → Prop
  | .list l, .list l' => SameElements l l'
  | .obj m, .obj m' => SameMembers m m'
  | v, w => SameScalar v w

def SameElements : Values → Values → Prop
  | .nil, .nil => True
  | .cons v l, .cons v' l' => SameJson v v' ∧ SameElements l l'
  | _, _ => False

def SameMembers : Fields → Fields → Prop
  | .nil, .nil => True
  | .cons key v m, .cons key' v' m' => key = key' ∧ SameJson v v' ∧ SameMembers m m'
  | _, _ => False

end

end Relation

theorem signed_inj {neg neg' : Bool} {l l' : List Char} (h : ∃ c r, l = c :: r ∧ c.isDigit = true)
    (h' : ∃ c r, l' = c :: r ∧ c.isDigit = true) :
    signed neg l = signed neg' l' ↔ neg = neg' ∧ l = l' := by
  have hne {l : List Char} (h : ∃ c r, l = c :: r ∧ c.isDigit = true) (r : List Char) :
      l ≠ '-' :: r := by
    obtain ⟨c, _, rfl, hdigit⟩ := h
    rintro ⟨⟩
    exact absurd hdigit (by decide)
  cases neg <;> cases neg' <;> simp only [signed, Bool.false_eq_true, if_true, if_false, true_and,
    false_and, iff_false, reduceCtorEq, List.cons.injEq]
  · exact hne h l'
  · exact fun heq => hne h' l heq.symm

theorem head_toDigits (n : ℕ) : ∃ c r, Nat.toDigits 10 n = c :: r ∧ c.isDigit = true := by
  obtain ⟨c, r, h⟩ := List.exists_cons_of_ne_nil (Nat.toDigits_ne_nil (n := n) (b := 10))
  exact ⟨c, r, h, Decimal.isDigit_toDigits n c (h ▸ List.mem_cons_self)⟩

theorem toDigits_inj {n n' : ℕ} : Nat.toDigits 10 n = Nat.toDigits 10 n' ↔ n = n' := by
  refine ⟨fun h => ?_, fun h => h ▸ rfl⟩
  rw [← Nat.ofDigitChars_ten_toDigits (n := n), h, Nat.ofDigitChars_ten_toDigits]

theorem Numeral.text_eq_iff (a b : Numeral) : a.text = b.text ↔ a.Same b := by
  cases a with
  | int n =>
    cases b with
    | int n' =>
      rw [Numeral.text, Numeral.text, signed_inj (head_toDigits _) (head_toDigits _), toDigits_inj,
        Numeral.Same, decide_eq_decide]
      omega
    | decimal neg m e =>
      rw [Numeral.text, Numeral.text, signed_inj (head_toDigits _) (Decimal.head_shortest m e),
        eq_comm (b := neg), eq_comm (b := Decimal.shortest m e), Decimal.shortest_eq_toDigits_iff,
        Numeral.Same]
  | decimal neg m e =>
    cases b with
    | int n =>
      rw [Numeral.text, Numeral.text, signed_inj (Decimal.head_shortest m e) (head_toDigits _),
        Decimal.shortest_eq_toDigits_iff, Numeral.Same]
    | decimal neg' m' e' =>
      rw [Numeral.text, Numeral.text,
        signed_inj (Decimal.head_shortest m e) (Decimal.head_shortest m' e'),
        Decimal.shortest_eq_iff, Numeral.Same]

theorem Scalar.json_eq_iff (a b : Scalar) : a.json = b.json ↔ a.Same b := by
  cases a <;> cases b <;> simp only [Scalar.json, Scalar.Same, reduceCtorEq, Json.Value.bool.injEq,
    Json.Value.num.injEq, Json.Value.str.injEq]
  next n n' =>
    rw [← Numeral.text_eq_iff]
    constructor
    · exact fun h => congrArg Json.NumberText.text h
    · intro h
      simp only [Numeral.numberText, h]

section Scalars

variable {v w : Value} {a b : Scalar}

theorem sameJson_scalar (hv : scalarOf v = some a) (hw : scalarOf w = some b) :
    SameJson v w ↔ a.Same b := by
  have hscalar : SameJson v w = SameScalar v w := by
    cases v with
    | list l => cases hv
    | obj m => cases hv
    | _ => rfl
  rw [hscalar, SameScalar, hv, hw]

theorem not_sameJson_list_scalar {l : Values} (hw : scalarOf w = some b) :
    ¬SameJson (.list l) w ∧ ¬SameJson w (.list l) := by
  cases w with
  | list l => cases hw
  | obj m => cases hw
  | _ => simp [SameJson, SameScalar, scalarOf]

theorem not_sameJson_obj_scalar {m : Fields} (hw : scalarOf w = some b) :
    ¬SameJson (.obj m) w ∧ ¬SameJson w (.obj m) := by
  cases w with
  | list l => cases hw
  | obj m => cases hw
  | _ => simp [SameJson, SameScalar, scalarOf]

/-- A value that can be encoded is a list, a mapping or a scalar. -/
theorem toJson_cases {j : Json.Value} (h : toJson v = some j) :
    (∃ l es, v = .list l ∧ toElements l = some es ∧ j = .arr es) ∨
      (∃ m ms, v = .obj m ∧ toMembers m = some ms ∧ j = .obj ms) ∨
      ∃ a, scalarOf v = some a ∧ j = a.json := by
  cases v with
  | list l =>
    obtain ⟨es, hes, rfl⟩ := Option.map_eq_some_iff.mp h
    exact .inl ⟨l, es, rfl, hes, rfl⟩
  | obj m =>
    obtain ⟨ms, hms, rfl⟩ := Option.map_eq_some_iff.mp h
    exact .inr (.inl ⟨m, ms, rfl, hms, rfl⟩)
  | _ =>
    simp only [toJson, Option.map_eq_some_iff] at h
    obtain ⟨a, ha, rfl⟩ := h
    exact .inr (.inr ⟨a, ha, rfl⟩)

theorem json_ne_nested (a : Scalar) (es : Json.Elements) (ms : Json.Members) :
    a.json ≠ .arr es ∧ a.json ≠ .obj ms := by
  cases a <;> simp [Scalar.json]

end Scalars

theorem toElements_cons {v : Value} {l : Values} {es : Json.Elements}
    (h : toElements (.cons v l) = some es) :
    ∃ j js, toJson v = some j ∧ toElements l = some js ∧ es = .cons j js := by
  rw [toElements] at h
  split at h
  · next j js hj hjs => exact ⟨j, js, hj, hjs, (Option.some.inj h).symm⟩
  · cases h

theorem toMembers_cons {key : String} {v : Value} {m : Fields} {ms : Json.Members}
    (h : toMembers (.cons key v m) = some ms) :
    ∃ j js, toJson v = some j ∧ toMembers m = some js ∧
      ms = .cons (key.toList.map some) j js := by
  rw [toMembers] at h
  split at h
  · next j js hj hjs => exact ⟨j, js, hj, hjs, (Option.some.inj h).symm⟩
  · cases h

theorem map_some_inj {key key' : String} :
    key.toList.map some = key'.toList.map some ↔ key = key' := by
  rw [(Option.some_injective Char).list_map.eq_iff, String.toList_inj]

mutual

theorem toJson_eq_iff (v w : Value) {j j' : Json.Value} (hv : toJson v = some j)
    (hw : toJson w = some j') : j = j' ↔ SameJson v w := by
  rcases toJson_cases hv with ⟨l, es, rfl, hl, rfl⟩ | ⟨m, ms, rfl, hm, rfl⟩ | ⟨a, ha, rfl⟩ <;>
    rcases toJson_cases hw with ⟨l', es', rfl, hl', rfl⟩ | ⟨m', ms', rfl, hm', rfl⟩ | ⟨b, hb, rfl⟩
  · rw [Json.Value.arr.injEq, SameJson]
    exact toElements_eq_iff l l' hl hl'
  · simp [SameJson, SameScalar, scalarOf]
  · exact iff_of_false (json_ne_nested b es .nil).1.symm (not_sameJson_list_scalar hb).1
  · simp [SameJson, SameScalar, scalarOf]
  · rw [Json.Value.obj.injEq, SameJson]
    exact toMembers_eq_iff m m' hm hm'
  · exact iff_of_false (json_ne_nested b .nil ms).2.symm (not_sameJson_obj_scalar hb).1
  · exact iff_of_false (json_ne_nested a es' .nil).1 (not_sameJson_list_scalar ha).2
  · exact iff_of_false (json_ne_nested a .nil ms').2 (not_sameJson_obj_scalar ha).2
  · rw [Scalar.json_eq_iff, sameJson_scalar ha hb]

theorem toElements_eq_iff (l l' : Values) {es es' : Json.Elements} (hl : toElements l = some es)
    (hl' : toElements l' = some es') : es = es' ↔ SameElements l l' := by
  match l, l' with
  | .nil, .nil => simp [SameElements, ← Option.some.inj hl, ← Option.some.inj hl']
  | .nil, .cons w l' =>
    obtain ⟨_, _, -, -, rfl⟩ := toElements_cons hl'
    simp [SameElements, ← Option.some.inj hl]
  | .cons v l, .nil =>
    obtain ⟨_, _, -, -, rfl⟩ := toElements_cons hl
    simp [SameElements, ← Option.some.inj hl']
  | .cons v l, .cons w l' =>
    obtain ⟨j, js, hj, hjs, rfl⟩ := toElements_cons hl
    obtain ⟨j', js', hj', hjs', rfl⟩ := toElements_cons hl'
    rw [Json.Elements.cons.injEq, toJson_eq_iff v w hj hj', toElements_eq_iff l l' hjs hjs',
      SameElements]

theorem toMembers_eq_iff (m m' : Fields) {ms ms' : Json.Members} (hm : toMembers m = some ms)
    (hm' : toMembers m' = some ms') : ms = ms' ↔ SameMembers m m' := by
  match m, m' with
  | .nil, .nil => simp [SameMembers, ← Option.some.inj hm, ← Option.some.inj hm']
  | .nil, .cons key w m' =>
    obtain ⟨_, _, -, -, rfl⟩ := toMembers_cons hm'
    simp [SameMembers, ← Option.some.inj hm]
  | .cons key v m, .nil =>
    obtain ⟨_, _, -, -, rfl⟩ := toMembers_cons hm
    simp [SameMembers, ← Option.some.inj hm']
  | .cons key v m, .cons key' w m' =>
    obtain ⟨j, js, hj, hjs, rfl⟩ := toMembers_cons hm
    obtain ⟨j', js', hj', hjs', rfl⟩ := toMembers_cons hm'
    rw [Json.Members.cons.injEq, toJson_eq_iff v w hj hj', toMembers_eq_iff m m' hjs hjs',
      map_some_inj, SameMembers]

end

mutual

theorem isSome_toJson (v : Value) : (toJson v).isSome = isEncodable v := by
  cases v with
  | list l => rw [toJson, Option.isSome_map, isEncodable, isSome_toElements l]
  | obj m => rw [toJson, Option.isSome_map, isEncodable, isSome_toMembers m]
  | _ => rw [toJson, Option.isSome_map, isEncodable] <;> simp

theorem isSome_toElements (l : Values) : (toElements l).isSome = areEncodable l := by
  cases l with
  | nil => rfl
  | cons v l =>
    rw [toElements, areEncodable, ← isSome_toJson v, ← isSome_toElements l]
    cases toJson v <;> cases toElements l <;> rfl

theorem isSome_toMembers (m : Fields) : (toMembers m).isSome = fieldsEncodable m := by
  cases m with
  | nil => rfl
  | cons key v m =>
    rw [toMembers, fieldsEncodable, ← isSome_toJson v, ← isSome_toMembers m]
    cases toJson v <;> cases toMembers m <;> rfl

end

theorem canonical_eq_iff (v w : Value) :
    canonical v = canonical w ↔
      (isEncodable v = false ∧ isEncodable w = false) ∨
        (isEncodable v = true ∧ isEncodable w = true ∧ SameJson v w) := by
  rw [← isSome_toJson v, ← isSome_toJson w, canonical, canonical]
  cases hv : toJson v with
  | none =>
    cases hw : toJson w with
    | none => simp
    | some j' => simp [(Json.Value.text_ne_nil j').symm]
  | some j =>
    cases hw : toJson w with
    | none => simp [Json.Value.text_ne_nil j]
    | some j' => simp [Json.Value.text_inj, toJson_eq_iff v w hv hw]

end OtelMagnify.Diff
