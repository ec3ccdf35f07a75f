import OtelMagnify.Diff.Types
import OtelMagnify.Lib.Decimal
import OtelMagnify.Lib.NetUrl

/-! `redaction.go`: what of a configuration may appear in a diff, and the fields two versions of a
component differ in. `sanitizeEndpoint` is from `endpoints.go`. -/
namespace OtelMagnify.Diff
open Yaml GoString

variable (env : Environment)

def ofText (s : GoString) : Value :=
  match s.mapM fun | .char c => some c | .bad _ => none with
  | some l => .str (String.ofList l)
  | none => .binary s.bytes

def secretKeys : List String :=
  ["authorization", "proxy_authorization", "password", "passwd", "token", "access_token",
    "refresh_token", "bearer_token", "secret", "client_secret", "api_key", "apikey", "private_key",
    "key_pem", "cert_pem", "credentials", "cookie", "set_cookie", "x_api_key", "dd_api_key",
    "signalfx_access_token", "x_sf_token", "x_honeycomb_team", "x_otlp_api_key"]

def isSecretKey (k : GoString) : Bool :=
  let k := toLower env.caseTable (replace '-' '_' k)
  secretKeys.any fun s => k = ofString s || contains k s

def isSensitivePath (path : GoString) : Bool :=
  (fields ['.', '/', '[', ']'] (toLower env.caseTable path)).any (isSecretKey env)

def isAuthPath (path : GoString) : Bool :=
  contains path "auth" || contains path "authorization" || contains path "bearer_token" ||
    contains path "api_key" || contains path "client_secret" || contains path "password" ||
    contains path "token"

def looksSecret (s : GoString) : Bool :=
  let l := toLower env.caseTable s
  contains l "bearer " || contains l "secret" || contains l "token" || contains l "api-key" ||
    contains l "apikey"

def redactSecretLikeString (s : GoString) : GoString := if looksSecret env s then maskedValue else s

/-- The query with the values of secret keys masked. -/
def maskQuery (query : GoString) : GoString :=
  let items := NetUrl.parseQuery query
  NetUrl.encodeQuery (items.map Prod.fst) fun key =>
    if isSecretKey env key then [ofString maskedValue]
    else items.filterMap fun (k, v) => if k = key then some v else none

def sanitizeEndpoint (raw : GoString) : GoString :=
  let raw := trimSpace raw
  let added := !contains raw "://"
  let parse := if added then "https://" ++ raw else raw
  match NetUrl.parse env.literal parse with
  | none => redactSecretLikeString env raw
  | some u =>
    let s := ({ u with user := none, rawQuery := maskQuery env u.rawQuery, fragment := {} } :
      NetUrl.URL).string
    if added then trimPrefix s "https://" else s

def sanitizeEndpointIfURL (s : GoString) : GoString :=
  if contains s "://" && (contains s "@" || contains s "?") then sanitizeEndpoint env s else s

def isInsecurePath (path : GoString) : Bool :=
  hasSuffix path ".insecure" || hasSuffix path ".insecure_skip_verify" ||
    contains path "tls.insecure"

def boolBecameTrue (b t : Value) : Bool := t = .bool true && b ≠ .bool true

def redactText (s : GoString) (path : GoString) : Value :=
  if isSensitivePath env path || looksSecret env s then .str maskedValue
  else ofText (sanitizeEndpointIfURL env s)

/-- The path of a member and of an element. -/
def child (path : GoString) (key : String) : GoString := path ++ "." ++ ofString key

def element (path : GoString) (i : ℕ) : GoString := path ++ "[" ++ ofString (toString i) ++ "]"

mutual

def redactValue : Value → GoString → Value
  | .null, _ => .null
  | .obj m, path =>
    if isSensitivePath env path then .str maskedValue else .obj (redactFields m path)
  | .list l, path =>
    if isSensitivePath env path then .str maskedValue else .list (redactItems l path 0)
  | .str s, path => redactText env s path
  | .binary b, path => redactText env (decode b) path
  | v, path => if isSensitivePath env path then .str maskedValue else v

def redactFields : Fields → GoString → Fields
  | .nil, _ => .nil
  | .cons key v m, path =>
    .cons key
      (if contains (toLower env.caseTable path) "headers" && isSecretKey env key then
        .str maskedValue
      else redactValue v (child path key))
      (redactFields m path)

def redactItems : Values → GoString → ℕ → Values
  | .nil, _, _ => .nil
  | .cons v l, path, i => .cons (redactValue v (element path i)) (redactItems l path (i + 1))

end

def doubleEqual : Double → Double → Bool
  | .inf neg, .inf neg' => neg = neg'
  | .finite neg m e _, .finite neg' m' e' _ => m = m' && e = e' && (neg = neg' || m = 0)
  | _, _ => false

/-- `==` on the keys of a `map[any]any`, which are scalars. -/
def keyEqual : Value → Value → Bool
  | .float f, .float g => doubleEqual f g
  | k, k' => k = k'

mutual

def deepEqual : Value → Value → Bool
  | .float f, .float g => doubleEqual f g
  | .list l, .list l' => deepEqualItems l l'
  | .obj m, .obj m' => deepEqualFields m m'
  | .table m, .table m' => deepEqualPairs m m'
  | .list _, _ | .obj _, _ | .table _, _ => false
  | v, v' => v = v'
termination_by structural v => v

def deepEqualItems : Values → Values → Bool
  | .nil, .nil => true
  | .cons v l, .cons v' l' => deepEqual v v' && deepEqualItems l l'
  | _, _ => false
termination_by structural l => l

def deepEqualFields : Fields → Fields → Bool
  | .nil, .nil => true
  | .cons key v m, .cons key' v' m' => key = key' && deepEqual v v' && deepEqualFields m m'
  | _, _ => false
termination_by structural m => m

/-- Keys that are `==` stand at the same place of the two maps. -/
def deepEqualPairs : Pairs → Pairs → Bool
  | .nil, .nil => true
  | .cons key v m, .cons key' v' m' => keyEqual key key' && deepEqual v v' && deepEqualPairs m m'
  | _, _ => false
termination_by structural m => m

end

def fieldRisk (path : GoString) (b t : Value) : Risk :=
  let l := toLower env.caseTable path
  if isAuthPath l || contains l "headers" ||
      isInsecurePath l && boolBecameTrue (redactValue env b path) (redactValue env t path) then .high
  else .low

def fieldChange (path : GoString) (b t : Value) : List FieldChange :=
  if deepEqual b t then []
  else [{ path, before := redactValue env b path, after := redactValue env t path,
          risk := fieldRisk env path b t }]

def unionKeys (m m' : Fields) : List String :=
  ((m.keys ++ m'.keys).dedup).insertionSort (· ≤ ·)

mutual

def walkDiff : GoString → Value → Value → List FieldChange
  | path, .obj bm, .obj tm =>
    let inner := walkFields path bm tm
    (unionKeys bm tm).flatMap fun key =>
      match inner.find? (·.1 = key) with
      | some (_, changes) => changes
      -- a key of the target only: the base has no mapping there
      | none => fieldChange env (child path key) .null ((tm.get key).getD .null)
  | path, b, t => fieldChange env path b t

def walkFields : GoString → Fields → Fields → List (String × List FieldChange)
  | _, .nil, _ => []
  | path, .cons key v m, tm =>
    (key, walkDiff (child path key) v ((tm.get key).getD .null)) :: walkFields path m tm

end

def changedFields (path : GoString) (b t : Value) : List FieldChange :=
  env.sortSlice.sort (fun f g => less f.path g.path) (walkDiff env path b t)

/-- A `float64` with its exact value. -/
inductive Number where
  | nan
  | inf (neg : Bool)
  | finite (q : ℚ)

def number : Value → Option Number
  | .int n => some (.finite (Decimal.binary64 n))
  | .float .nan => some .nan
  | .float (.inf neg) => some (.inf neg)
  | .float (.finite neg m e _) =>
    some (.finite (Decimal.binary64 ((if neg then -1 else 1) * m * 10 ^ e)))
  | _ => none

def strongSamplingChange (b t : Value) : Bool :=
  match number b, number t with
  | some bf, some tf =>
    match bf, tf with
    | .finite bf, .finite tf =>
      if tf = 0 && bf ≠ 0 then true
      else if bf = 0 then false
      else
        let ratio := Decimal.binary64 (tf / bf)
        ratio ≤ 1 / 2 || 2 ≤ ratio || (bf = 100 && tf < 100)
    -- an infinite ratio, or zero; no comparison with a ratio that is no number holds
    | .finite bf, .inf _ => bf ≠ 0
    | .inf _, .finite _ => true
    | .nan, .finite tf => tf = 0
    | _, _ => false
  | _, _ => false

def isSamplingID (id : GoString) : Bool :=
  let l := toLower env.caseTable id
  contains l "sampling" || contains l "probabilistic_sampler" || contains l "tail_sampling"

section Sensitive

variable {env}

/-- The characters that the secret keys are made of. -/
def isKeyChar (c : Char) : Bool := c = '_' || ('a' ≤ c && c ≤ 'z')

theorem isKeyChar_secretKeys {s : String} (hs : s ∈ secretKeys) :
    s ≠ "" ∧ ∀ c ∈ s.toList, isKeyChar c = true := by
  have hall : secretKeys.all (fun s => s ≠ "" && s.toList.all isKeyChar) = true := by
    decide +kernel
  simpa using List.all_eq_true.mp hall s hs

/-- What `toLower` makes of one rune. -/
def lowerRune (table : CaseTable) : Rune → Rune
  | .char c => .char (table.lower c)
  | .bad _ => .char '�'

def underscore (r : Rune) : Rune := if r = .char '-' then .char '_' else r

theorem toLower_eq_map (table : CaseTable) (s : GoString) : toLower table s = s.map (lowerRune table) :=
  List.map_congr_left fun r _ => by cases r <;> rfl

theorem replace_eq_map (s : GoString) : replace '-' '_' s = s.map underscore := rfl

theorem lower_keyChar (table : CaseTable) {c : Char} (hc : isKeyChar c = true) :
    table.lower c = c ∧ c ∉ ['-', '.', '/', '[', ']'] := by
  have hnat : c.toNat = 95 ∨ 97 ≤ c.toNat ∧ c.toNat ≤ 122 := by
    have hbound : c = '_' ∨ ('a' ≤ c ∧ c ≤ 'z') := by simpa [isKeyChar] using hc
    rcases hbound with rfl | ⟨hlo, hhi⟩
    · exact .inl rfl
    · exact .inr ⟨UInt32.le_iff_toNat_le.mp hlo, UInt32.le_iff_toNat_le.mp hhi⟩
  refine ⟨?_, fun hmem => ?_⟩
  · have hupper : ¬(c.val ≥ 'A'.val ∧ c.val ≤ 'Z'.val) := by
      rintro ⟨-, hle⟩
      have hle' : c.toNat ≤ 90 := UInt32.le_iff_toNat_le.mp hle
      omega
    rw [table.ascii c (by omega)]
    exact dif_neg hupper
  · simp only [List.mem_cons, List.not_mem_nil, or_false] at hmem
    rcases hmem with rfl | rfl | rfl | rfl | rfl <;> revert hnat <;> decide

/-- A rune that the comparison with the secret keys turns into one of their characters is one itself
once it is lowered, the hyphen apart. -/
theorem lowerRune_of_keyChar {table : CaseTable} {r : Rune} {c : Char} (hc : isKeyChar c = true)
    (h : lowerRune table (underscore r) = .char c) :
    (∀ sep ∈ ['.', '/', '[', ']'], lowerRune table r ≠ .char sep) ∧
      lowerRune table (underscore (lowerRune table r)) = .char c := by
  obtain ⟨hlower, hnot⟩ := lower_keyChar table hc
  by_cases hr : r = .char '-'
  · subst hr
    have hhyphen : lowerRune table (.char '-') = .char '-' := by
      rw [lowerRune, table.ascii '-' (by decide)]
      rfl
    rw [hhyphen]
    exact ⟨by simp, h⟩
  · rw [underscore, if_neg hr] at h
    have hne : (Rune.char c) ≠ .char '-' := by
      rintro ⟨⟩
      exact hnot (by decide)
    rw [h, underscore, if_neg hne, lowerRune, hlower]
    refine ⟨fun sep hsep heq => ?_, rfl⟩
    cases heq
    exact hnot (List.mem_cons_of_mem _ hsep)

theorem isSecretKey_iff {k : GoString} :
    isSecretKey env k = true ↔
      ∃ s ∈ secretKeys, ofString s <:+: (k.map underscore).map (lowerRune env.caseTable) := by
  simp only [isSecretKey, toLower_eq_map, replace_eq_map, List.any_eq_true, Bool.or_eq_true,
    decide_eq_true_eq, contains]
  constructor
  · rintro ⟨s, hs, heq | hinfix⟩
    · exact ⟨s, hs, heq ▸ List.infix_rfl⟩
    · exact ⟨s, hs, hinfix⟩
  · rintro ⟨s, hs, hinfix⟩
    exact ⟨s, hs, .inr hinfix⟩

/-- A path that runs through a secret key is sensitive. -/
theorem isSensitivePath_of_infix {k path : GoString} (hk : isSecretKey env k = true)
    (h : k <:+: path) : isSensitivePath env path = true := by
  obtain ⟨s, hs, hinfix⟩ := isSecretKey_iff.mp hk
  obtain ⟨hne, hchars⟩ := isKeyChar_secretKeys hs
  rw [List.map_map] at hinfix
  obtain ⟨w, hw, hmap⟩ := List.infix_map_iff.mp hinfix
  have hrunes : ∀ r ∈ w, ∃ c, isKeyChar c = true ∧
      lowerRune env.caseTable (underscore r) = .char c := by
    intro r hr
    have hmem : lowerRune env.caseTable (underscore r) ∈ ofString s :=
      hmap ▸ List.mem_map_of_mem (f := lowerRune env.caseTable ∘ underscore) hr
    obtain ⟨c, hc, heq⟩ := List.mem_map.mp hmem
    exact ⟨c, hchars c hc, heq.symm⟩
  have hsub : w.map (lowerRune env.caseTable) <:+: toLower env.caseTable path := by
    rw [toLower_eq_map]
    exact (hw.trans h).map _
  have hwne : w.map (lowerRune env.caseTable) ≠ [] := by
    intro hnil
    rw [List.map_eq_nil_iff.mp hnil] at hmap
    exact hne (ofString_injective hmap)
  obtain ⟨f, hf, hfinfix⟩ := exists_mem_fields_of_infix ['.', '/', '[', ']'] hwne
    (by
      intro x hx
      obtain ⟨r, hr, rfl⟩ := List.mem_map.mp hx
      obtain ⟨c, hc, heq⟩ := hrunes r hr
      exact (lowerRune_of_keyChar hc heq).1) hsub
  refine List.any_eq_true.mpr ⟨f, hf, isSecretKey_iff.mpr ⟨s, hs, ?_⟩⟩
  have hagain := hfinfix.map (lowerRune env.caseTable ∘ underscore)
  have hsame : w.map ((lowerRune env.caseTable ∘ underscore) ∘ lowerRune env.caseTable) =
      ofString s := by
    rw [hmap]
    refine List.map_congr_left fun r hr => ?_
    obtain ⟨c, hc, heq⟩ := hrunes r hr
    exact (lowerRune_of_keyChar hc heq).2.trans heq.symm
  rw [← hsame, List.map_map, ← List.map_map]
  exact hagain

theorem isSensitivePath_append {path : GoString} {sep : Char} (hsep : sep ∈ ['.', '/', '[', ']'])
    (h : isSensitivePath env path = true) (rest : GoString) :
    isSensitivePath env (path ++ .char sep :: rest) = true := by
  obtain ⟨f, hf, hsecret⟩ := List.any_eq_true.mp h
  refine List.any_eq_true.mpr ⟨f, ?_, hsecret⟩
  have hlower : env.caseTable.lower sep = sep := by
    have hseps : sep = '.' ∨ sep = '/' ∨ sep = '[' ∨ sep = ']' := by simpa using hsep
    rcases hseps with rfl | rfl | rfl | rfl <;> exact env.caseTable.ascii _ (by decide)
  obtain ⟨hmem, hne⟩ := List.mem_filter.mp hf
  refine List.mem_filter.mpr ⟨?_, hne⟩
  rw [toLower_eq_map, List.map_append, List.map_cons, lowerRune, hlower,
    List.splitOnP_append_cons _ _ (by simpa using hsep), List.mem_append]
  exact .inl (toLower_eq_map env.caseTable path ▸ hmem)

theorem isSensitivePath_child {path : GoString} (h : isSensitivePath env path = true)
    (key : String) : isSensitivePath env (child path key) = true := by
  rw [child, List.append_assoc]
  exact isSensitivePath_append (by decide) h _

theorem isSensitivePath_child_secret {key : String} (hkey : isSecretKey env key = true)
    (path : GoString) : isSensitivePath env (child path key) = true :=
  isSensitivePath_of_infix hkey (List.suffix_append _ _).isInfix

end Sensitive

section Walk

variable {env}

theorem mem_unionKeys {m m' : Fields} {key : String} :
    key ∈ unionKeys m m' ↔ key ∈ m.keys ∨ key ∈ m'.keys := by
  rw [unionKeys, List.mem_insertionSort, List.mem_dedup, List.mem_append]

variable (env) in
theorem find?_walkFields (path : GoString) (m tm : Fields) (key : String) :
    ((walkFields env path m tm).find? (·.1 = key)).map Prod.snd =
      (m.get key).map fun v => walkDiff env (child path key) v ((tm.get key).getD .null) := by
  induction m with
  | nil => rfl
  | cons k v m ih =>
    rw [walkFields, List.find?_cons, Fields.get]
    by_cases h : k = key
    · subst h
      simp
    · simpa [h, Ne.symm h] using ih

theorem walkDiff_obj (path : GoString) (bm tm : Fields) :
    walkDiff env path (.obj bm) (.obj tm) = (unionKeys bm tm).flatMap fun key =>
      walkDiff env (child path key) ((bm.get key).getD .null) ((tm.get key).getD .null) := by
  rw [walkDiff]
  refine List.flatMap_congr fun key _ => ?_
  have hfind := find?_walkFields env path bm tm key
  cases hget : bm.get key with
  | none =>
    rw [hget, Option.map_none, Option.map_eq_none_iff] at hfind
    rw [hfind]
    rfl
  | some v =>
    rw [hget, Option.map_some, Option.map_eq_some_iff] at hfind
    obtain ⟨⟨k, changes⟩, hfind, rfl⟩ := hfind
    rw [hfind]
    rfl

theorem walkDiff_of_not_obj {b t : Value} (h : b.asMap = none ∨ t.asMap = none) (path : GoString) :
    walkDiff env path b t = fieldChange env path b t := by
  unfold walkDiff
  split
  · simp [Value.asMap] at h
  · rfl

theorem exists_obj_of_not {b t : Value} (h : ¬(b.asMap = none ∨ t.asMap = none)) :
    ∃ bm tm, b = .obj bm ∧ t = .obj tm := by
  cases b <;> cases t <;> simp_all [Value.asMap]

end Walk

end OtelMagnify.Diff
