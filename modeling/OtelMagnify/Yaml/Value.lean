import Mathlib.Data.List.Basic
import Mathlib.Data.Int.Order.Basic
import Mathlib.Data.String.Basic
import OtelMagnify.Lib.GoString

/-! What `yaml.v3` decodes into an `any`. A mapping whose keys are all strings becomes a
`map[string]any`, any other mapping a `map[any]any`. The keys of both stand in increasing order, so
that a map is written in one way; the source goes through those of the former in this order. -/
namespace OtelMagnify.Yaml

/-- A `float64`. A finite one is its sign and its shortest decimal `mantissa * 10 ^ exponent`,
without zeros at the end of the mantissa. -/
inductive Double where
  | nan
  | inf (neg : Bool)
  | finite (neg : Bool) (mantissa : ℕ) (exponent : ℤ)
      (reduced : mantissa % 10 ≠ 0 ∨ mantissa = 0 ∧ exponent = 0)
  deriving DecidableEq, Repr

mutual

/-- `uint` is an integer beyond the range of `int`, `time` a `time.Time` by its RFC 3339 text, and
`binary` a string that is no UTF-8, which only the tag `!!binary` makes. -/
inductive Value where
  | null
  | bool (b : Bool)
  | int (n : ℤ)
  | uint (n : ℕ)
  | float (f : Double)
  | str (s : String)
  | binary (b : List UInt8)
  | time (text : String)
  | list (l : Values)
  | obj (m : Fields)
  | table (m : Pairs)
  deriving DecidableEq, Repr

inductive Values where
  | nil
  | cons (v : Value) (l : Values)
  deriving DecidableEq, Repr

/-- The entries of a `map[string]any`. -/
inductive Fields where
  | nil
  | cons (key : String) (v : Value) (m : Fields)
  deriving DecidableEq, Repr

/-- The entries of a `map[any]any`. -/
inductive Pairs where
  | nil
  | cons (key v : Value) (m : Pairs)
  deriving DecidableEq, Repr

end

/-- Induction on the entries of a mapping alone. -/
@[elab_as_elim, induction_eliminator]
theorem Fields.entriesInduction {motive : Fields → Prop} (nil : motive .nil)
    (cons : ∀ key v m, motive m → motive (.cons key v m)) : ∀ m, motive m
  | .nil => nil
  | .cons key v m => cons key v m (Fields.entriesInduction nil cons m)

namespace Values

def toList : Values → List Value
  | nil => []
  | cons v l => v :: l.toList

def ofList : List Value → Values
  | [] => nil
  | v :: l => cons v (ofList l)

end Values

namespace Fields

def toList : Fields → List (String × Value)
  | nil => []
  | cons key v m => (key, v) :: m.toList

def ofList : List (String × Value) → Fields
  | [] => nil
  | (key, v) :: m => cons key v (ofList m)

def get : Fields → String → Option Value
  | nil, _ => none
  | cons k v m, key => if key = k then some v else m.get key

def keys (m : Fields) : List String := m.toList.map Prod.fst

end Fields

def Pairs.toList : Pairs → List (Value × Value)
  | .nil => []
  | .cons key v m => (key, v) :: m.toList

/-- `v.(map[string]any)` -/
def Value.asMap : Value → Option Fields
  | .obj m => some m
  | _ => none

theorem Value.eq_obj {v : Value} {m : Fields} (h : v.asMap = some m) : v = .obj m := by
  cases v <;> simp_all [asMap]

/-- `v.(string)` -/
def Value.asString : Value → Option GoString
  | .str s => some (.ofString s)
  | .binary b => some (.decode b)
  | _ => none

/-- `m, _ := v.(map[string]any)` and then `m[key]`. -/
def Value.member (v : Value) (key : String) : Option Value := v.asMap.bind (Fields.get · key)

/-- `v.([]any)` of a value that may be missing, and `toAnySlice`. -/
def elements : Option Value → List Value
  | some (.list l) => l.toList
  | _ => []

/-- `toStringSlice` of a value that may be missing: the strings of a list. -/
def toStringSlice (v : Option Value) : List GoString := (elements v).filterMap Value.asString

def Fields.firstKey : Fields → Option String
  | nil => none
  | cons key _ _ => some key

/-- A number for the type of a scalar and then its value, the same for keys that are `==`: `0` and
`-0` are one key. It is empty for what is no key of a map. -/
def Value.keyCode : Value → List ℤ
  | .null => [0]
  | .bool b => [1, b.toInt]
  | .int n => [2, n]
  | .uint n => [3, n]
  | .float .nan => [4]
  | .float (.inf neg) => [5, neg.toInt]
  | .float (.finite neg m e _) => [6, if neg then -m else m, e]
  | .str s => 7 :: s.toList.map fun c => (c.toNat : ℤ)
  | .binary b => 8 :: b.map fun c => (c.toNat : ℤ)
  | .time text => 9 :: text.toList.map fun c => (c.toNat : ℤ)
  | .list _ | .obj _ | .table _ => []

/-- A key that may stand before the keys of `m`. A NaN is not `==` to itself, so a map can have it
several times. -/
def Value.isBefore (key : Value) : Pairs → Bool
  | .nil => true
  | .cons k _ _ => key.keyCode < k.keyCode || (key = .float .nan && k = .float .nan)

mutual

/-- Every map of the value has its keys in increasing order. -/
def Value.isOrdered : Value → Bool
  | .list l => l.isOrdered
  | .obj m => m.isOrdered
  | .table m => m.isOrdered
  | _ => true

def Values.isOrdered : Values → Bool
  | .nil => true
  | .cons v l => v.isOrdered && l.isOrdered

def Fields.isOrdered : Fields → Bool
  | .nil => true
  | .cons key v m => v.isOrdered && m.isOrdered && m.firstKey.all (key < ·)

def Pairs.isOrdered : Pairs → Bool
  | .nil => true
  | .cons key v m => key.keyCode ≠ [] && v.isOrdered && m.isOrdered && key.isBefore m

end

namespace Fields

variable {m : Fields} {key k : String} {v w : Value}

theorem isOrdered_cons (h : (cons key v m).isOrdered = true) :
    v.isOrdered = true ∧ m.isOrdered = true ∧ ∀ k ∈ m.firstKey, key < k := by
  rw [isOrdered, Bool.and_eq_true, Bool.and_eq_true] at h
  exact ⟨h.1.1, h.1.2, fun k hk => by simpa [Option.mem_def.mp hk] using h.2⟩

theorem lt_of_mem (h : (cons key v m).isOrdered = true) (hmem : (k, w) ∈ m.toList) : key < k := by
  induction m generalizing key v with
  | nil => cases hmem
  | cons key' v' m ih =>
    obtain ⟨-, hm, hfirst⟩ := isOrdered_cons h
    have hlt := hfirst key' rfl
    rcases List.mem_cons.mp hmem with heq | hmem
    · cases heq
      exact hlt
    · exact lt_trans hlt (ih hm hmem)

theorem get_eq_some_iff (h : m.isOrdered = true) : m.get key = some v ↔ (key, v) ∈ m.toList := by
  induction m with
  | nil => simp [get, toList]
  | cons k w m ih =>
    obtain ⟨-, hm, -⟩ := isOrdered_cons h
    rw [get, toList, List.mem_cons]
    split
    · next heq =>
      subst heq
      constructor
      · rintro ⟨⟩
        exact .inl rfl
      · rintro (heq | hmem)
        · cases heq
          rfl
        · exact absurd (lt_of_mem h hmem) (lt_irrefl key)
    · next hne =>
      rw [ih hm]
      refine ⟨.inr, fun hor => hor.resolve_left ?_⟩
      rintro ⟨⟩
      exact hne rfl

theorem isOrdered_of_mem (h : m.isOrdered = true) (hmem : (key, v) ∈ m.toList) :
    v.isOrdered = true := by
  induction m with
  | nil => cases hmem
  | cons k w m ih =>
    obtain ⟨hv, hm, -⟩ := isOrdered_cons h
    rcases List.mem_cons.mp hmem with heq | hmem
    · cases heq
      exact hv
    · exact ih hm hmem

theorem isOrdered_of_get (h : m.isOrdered = true) (hget : m.get key = some v) :
    v.isOrdered = true :=
  isOrdered_of_mem h ((get_eq_some_iff h).mp hget)

theorem nodup_keys (h : m.isOrdered = true) : m.keys.Nodup := by
  induction m with
  | nil => exact List.nodup_nil
  | cons k w m ih =>
    obtain ⟨-, hm, -⟩ := isOrdered_cons h
    rw [keys, toList, List.map_cons, List.nodup_cons]
    refine ⟨fun hmem => ?_, ih hm⟩
    obtain ⟨⟨_, _⟩, hentry, rfl⟩ := List.mem_map.mp hmem
    exact lt_irrefl _ (lt_of_mem h hentry)

end Fields

theorem Fields.sizeOf_get_lt {m : Fields} {key : String} {v : Value} (h : m.get key = some v) :
    sizeOf v < sizeOf m := by
  induction m with
  | nil => cases h
  | cons k w m ih =>
    rw [Fields.cons.sizeOf_spec]
    rw [get] at h
    split at h
    · cases h
      omega
    · have hlt := ih h
      omega

/-- Induction on the depth to which a value is made of mappings. A key that is missing stands for a
`null`. -/
@[elab_as_elim]
theorem Value.memberInduction {motive : Value → Prop}
    (step : ∀ v, (∀ m key, v = .obj m → motive ((m.get key).getD .null)) → motive v) (v : Value) :
    motive v := by
  induction hn : sizeOf v using Nat.strong_induction_on generalizing v with
  | _ n ih =>
    refine step v fun m key hv => ?_
    cases hget : m.get key with
    | none => exact step .null fun m key h => by cases h
    | some w =>
      refine ih (sizeOf w) ?_ w rfl
      have hlt := Fields.sizeOf_get_lt hget
      rw [← hn, hv, Value.obj.sizeOf_spec]
      omega

theorem Fields.mem_keys_iff {m : Fields} {key : String} : key ∈ m.keys ↔ (m.get key).isSome = true := by
  induction m with
  | nil => simp [keys, toList, get]
  | cons k v m ih =>
    rw [keys] at ih
    rw [keys, toList, List.map_cons, List.mem_cons, ih, get]
    split
    · next h => simp [h]
    · next h => simp [h]

structure Document where
  root : Fields
  ordered : root.isOrdered = true

/-- `yaml.Unmarshal` into a `map[string]any`: the text of an error, or the document, none for one
that is empty or `null`. -/
abbrev Decoder := String → Except String (Option Document)

end OtelMagnify.Yaml
