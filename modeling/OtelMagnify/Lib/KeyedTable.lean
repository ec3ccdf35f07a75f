import Mathlib.Data.List.MinMax
import Mathlib.Data.List.Nodup
import Mathlib.Order.Lattice

/-! Tables with a primary key: rows in insertion order, no two with the same key.
`INSERT` fails on a key that is present, `UPDATE` rewrites the selected rows without
touching their keys, `DELETE` removes them, and a query may ask for a newest row. -/

@[ext] structure KeyedTable {ρ κ : Type*} (key : ρ → κ) where
  rows : List ρ
  key_nodup : (rows.map key).Nodup

namespace KeyedTable

variable {ρ κ : Type*} {key : ρ → κ}

def empty : KeyedTable key := ⟨[], by simp⟩

variable {τ : Type*} {q r : ρ} {t u : KeyedTable key} {f : ρ → ρ} {hf : ∀ r, key (f r) = key r}
  {p : ρ → Bool} {tie : ℕ} {time : ρ → τ}

theorem eq_of_key_eq (t : KeyedTable key) (hr : r ∈ t.rows) (hq : q ∈ t.rows)
    (h : key r = key q) : r = q :=
  List.inj_on_of_nodup_map t.key_nodup hr hq h

def insert [DecidableEq κ] (t : KeyedTable key) (r : ρ) : Option (KeyedTable key) :=
  if h : key r ∈ t.rows.map key then none
  else some
    { rows := t.rows ++ [r]
      key_nodup := by
        rw [List.map_append, List.nodup_append]
        refine ⟨t.key_nodup, by simp, ?_⟩
        intro a ha b hb hab
        have hb' : b = key r := by simpa using hb
        exact h (hb' ▸ hab ▸ ha) }

theorem insert_rows [DecidableEq κ] (h : t.insert r = some u) : u.rows = t.rows ++ [r] := by
  unfold insert at h
  split at h
  · exact absurd h (by simp)
  · exact (Option.some.inj h) ▸ rfl

theorem key_ne_of_insert [DecidableEq κ]
    (h : t.insert r = some u) : ∀ q ∈ t.rows, key q ≠ key r := by
  intro q hq hk
  unfold insert at h
  split at h
  · exact absurd h (by simp)
  · rename_i hn
    exact hn (List.mem_map.mpr ⟨q, hq, hk⟩)

theorem insert_of_fresh [DecidableEq κ]
    (h : ∀ q ∈ t.rows, key q ≠ key r) : ∃ u, t.insert r = some u := by
  have hn : key r ∉ t.rows.map key := by
    intro hm
    obtain ⟨q, hq, he⟩ := List.mem_map.mp hm
    exact h q hq he
  exact ⟨_, dif_neg hn⟩

def update (t : KeyedTable key) (p : ρ → Bool) (f : ρ → ρ) (hf : ∀ r, key (f r) = key r) :
    KeyedTable key where
  rows := t.rows.map fun r => if p r then f r else r
  key_nodup := by
    have h : (fun r => key (if p r then f r else r)) = key := by
      funext r
      split
      · exact hf r
      · rfl
    simpa [Function.comp_def, h] using t.key_nodup

@[simp] theorem update_rows (t : KeyedTable key) (p : ρ → Bool) (f : ρ → ρ)
    (hf : ∀ r, key (f r) = key r) :
    (t.update p f hf).rows = t.rows.map fun r => if p r then f r else r := rfl

def delete (t : KeyedTable key) (p : ρ → Bool) : KeyedTable key where
  rows := t.rows.filter fun r => !p r
  key_nodup := t.key_nodup.sublist (List.filter_sublist.map key)

theorem update_eq_self (t : KeyedTable key) (f : ρ → ρ) (hf : ∀ r, key (f r) = key r) :
    t.update (fun _ => false) f hf = t := by
  ext1
  simp

theorem map_key_update (t : KeyedTable key) (p : ρ → Bool) (f : ρ → ρ)
    (hf : ∀ r, key (f r) = key r) : (t.update p f hf).rows.map key = t.rows.map key := by
  rw [update_rows, List.map_map]
  refine List.map_congr_left fun r _ => ?_
  rw [Function.comp_apply]
  split
  · exact hf r
  · rfl

theorem mem_of_mem_update (hq : q ∈ (t.update p f hf).rows)
    (hsel : ∀ r, p r = true → key r ≠ key q) : q ∈ t.rows := by
  obtain ⟨r, hr, rfl⟩ := List.mem_map.mp hq
  by_cases hp : p r = true
  · exact absurd (by simp [hp, hf]) (hsel r hp)
  · simpa [hp] using hr

theorem exists_key_eq_of_mem_update (hq : q ∈ (t.update p f hf).rows) :
    ∃ r ∈ t.rows, key q = key r := by
  obtain ⟨r, hr, rfl⟩ := List.mem_map.mp hq
  refine ⟨r, hr, ?_⟩
  split
  · exact hf r
  · rfl

section Get

variable [DecidableEq κ]

def get? (t : KeyedTable key) (k : κ) : Option ρ := t.rows.find? fun r => key r = k

variable {k : κ}

theorem get?_eq_some_iff : t.get? k = some r ↔ r ∈ t.rows ∧ key r = k := by
  constructor
  · intro h
    exact ⟨List.mem_of_find?_eq_some h, by simpa using List.find?_some h⟩
  · rintro ⟨hr, hk⟩
    obtain ⟨q, hq⟩ : ∃ q, t.get? k = some q := by
      rw [← Option.isSome_iff_exists, get?, List.find?_isSome]
      exact ⟨r, hr, by simpa using hk⟩
    have hqk : key q = k := by simpa using List.find?_some hq
    rw [hq, t.eq_of_key_eq (List.mem_of_find?_eq_some hq) hr (hqk.trans hk.symm)]

theorem get?_update (t : KeyedTable key) (p : ρ → Bool) (f : ρ → ρ)
    (hf : ∀ r, key (f r) = key r) (k : κ) :
    (t.update p f hf).get? k = (t.get? k).map fun r => if p r then f r else r := by
  have hk : ∀ r, key (if p r then f r else r) = key r := by
    intro r
    split
    · exact hf r
    · rfl
  rw [get?, update_rows, List.find?_map]
  simp only [Function.comp_def, hk]
  rfl

theorem exists_of_get?_update_ne (h : (t.update p f hf).get? k ≠ t.get? k) :
    ∃ r, t.get? k = some r ∧ p r = true := by
  rw [get?_update] at h
  cases hr : t.get? k with
  | none => simp [hr] at h
  | some r =>
    refine ⟨r, rfl, ?_⟩
    by_contra hnot
    simp [hr, hnot] at h

theorem get?_insert (h : t.insert r = some u) (k : κ) :
    u.get? k = if key r = k then some r else t.get? k := by
  rw [get?, insert_rows h, List.find?_append]
  split
  · rename_i hk
    have hnone : t.rows.find? (fun q => decide (key q = k)) = none := by
      rw [List.find?_eq_none]
      intro q hq hqk
      exact key_ne_of_insert h q hq ((by simpa using hqk : key q = k).trans hk.symm)
    simp [hnone, hk]
  · rename_i hk
    simp [hk, get?]

theorem get?_of_insert (h : t.insert r = some u) (hq : t.get? k = some q) : u.get? k = some q := by
  rw [get?_insert h, if_neg, hq]
  intro hk
  obtain ⟨hmem, hkey⟩ := get?_eq_some_iff.mp hq
  exact key_ne_of_insert h q hmem (hkey.trans hk.symm)

theorem get?_eq_none_of_insert (h : t.insert r = some u)
    (hnone : u.get? k = none) : t.get? k = none := by
  cases hq : t.get? k with
  | none => rfl
  | some q => cases (get?_of_insert h hq).symm.trans hnone

end Get

/-- `SELECT ... WHERE p LIMIT 1`: without an order the query may return any of the rows. -/
def pick (t : KeyedTable key) (tie : ℕ) (p : ρ → Bool) : Option ρ :=
  let candidates := t.rows.filter p
  candidates[tie % candidates.length]?

theorem pick_spec (h : t.pick tie p = some r) : r ∈ t.rows ∧ p r = true :=
  List.mem_filter.mp (List.mem_of_getElem? h)

theorem pick_eq_none_iff : t.pick tie p = none ↔ ∀ r ∈ t.rows, p r = false := by
  constructor
  · intro hnone r hr
    by_contra hp
    have hpos : 0 < (t.rows.filter p).length :=
      List.length_pos_of_mem (List.mem_filter.mpr ⟨hr, by simpa using hp⟩)
    have hle := List.getElem?_eq_none_iff.mp hnone
    exact absurd (Nat.mod_lt tie hpos) (not_lt.mpr hle)
  · intro hall
    cases h : t.pick tie p with
    | none => rfl
    | some r =>
      obtain ⟨hr, hp⟩ := pick_spec h
      rw [hall r hr] at hp
      cases hp

/-- A row that satisfies `p` and is as new as every row that does. -/
def isNewest {τ : Type*} [LinearOrder τ] (t : KeyedTable key) (p : ρ → Bool) (time : ρ → τ)
    (r : ρ) : Bool :=
  p r && t.rows.all fun q => !p q || decide (time q ≤ time r)

variable [LinearOrder τ]

theorem isNewest_iff :
    t.isNewest p time r = true ↔ p r = true ∧ ∀ q ∈ t.rows, p q = true → time q ≤ time r := by
  simp only [isNewest, Bool.and_eq_true, List.all_eq_true, Bool.or_eq_true, Bool.not_eq_true',
    decide_eq_true_eq]
  refine and_congr_right fun _ => forall₂_congr fun q _ => ?_
  cases p q <;> simp

/-- Some row is newest as soon as one is selected. -/
theorem exists_isNewest (time : ρ → τ) (hr : r ∈ t.rows) (hp : p r = true) :
    ∃ q ∈ t.rows, t.isNewest p time q = true := by
  have hne : (t.rows.filter p).argmax time ≠ none := by
    intro hnone
    have hnil := List.argmax_eq_none.mp hnone
    exact List.ne_nil_of_mem (List.mem_filter.mpr ⟨hr, hp⟩) hnil
  obtain ⟨q, hq⟩ := Option.ne_none_iff_exists'.mp hne
  obtain ⟨hmem, hpq⟩ := List.mem_filter.mp (List.argmax_mem hq)
  refine ⟨q, hmem, isNewest_iff.mpr ⟨hpq, fun x hx hpx => ?_⟩⟩
  exact List.le_of_mem_argmax (List.mem_filter.mpr ⟨hx, hpx⟩) hq

/-- `SELECT ... WHERE p ORDER BY time DESC LIMIT 1`. -/
def newest {τ : Type*} [LinearOrder τ] (t : KeyedTable key) (p : ρ → Bool) (time : ρ → τ) :
    Option ρ :=
  t.rows.find? (t.isNewest p time)

/-- The same when `p` selects rows of equal time: the query may return any newest one. -/
def newestAt {τ : Type*} [LinearOrder τ] (t : KeyedTable key) (tie : ℕ) (p : ρ → Bool)
    (time : ρ → τ) : Option ρ :=
  let candidates := t.rows.filter (t.isNewest p time)
  candidates[tie % candidates.length]?

theorem newestAt_eq_pick (t : KeyedTable key) (tie : ℕ) (p : ρ → Bool) (time : ρ → τ) :
    t.newestAt tie p time = t.pick tie (t.isNewest p time) := rfl

theorem newestAt_spec (h : t.newestAt tie p time = some r) : r ∈ t.rows ∧ p r = true := by
  obtain ⟨hr, hn⟩ := pick_spec h
  exact ⟨hr, (isNewest_iff.mp hn).1⟩

/-- The query returns no row exactly when `p` selects none. -/
theorem newestAt_eq_none_iff : t.newestAt tie p time = none ↔ ∀ r ∈ t.rows, p r = false := by
  rw [newestAt_eq_pick, pick_eq_none_iff]
  constructor
  · intro hnone r hr
    by_contra hp
    obtain ⟨q, hq, hn⟩ := exists_isNewest time hr (by simpa using hp)
    rw [hnone q hq] at hn
    cases hn
  · intro hall r hr
    simp [isNewest, hall r hr]

theorem newest_spec (h : t.newest p time = some r) :
    r ∈ t.rows ∧ p r = true ∧ ∀ q ∈ t.rows, p q = true → time q ≤ time r :=
  ⟨List.mem_of_find?_eq_some h, isNewest_iff.mp (List.find?_some h)⟩

theorem newest_update (t : KeyedTable key) (sel : ρ → Bool) (f : ρ → ρ)
    (hf : ∀ r, key (f r) = key r) (hp : ∀ r, p (f r) = p r) (ht : ∀ r, time (f r) = time r) :
    (t.update sel f hf).newest p time =
      (t.newest p time).map fun r => if sel r then f r else r := by
  have hp' : ∀ r, p (if sel r then f r else r) = p r := by
    intro r
    split
    · exact hp r
    · rfl
  have ht' : ∀ r, time (if sel r then f r else r) = time r := by
    intro r
    split
    · exact ht r
    · rfl
  have hn : ∀ r, (t.update sel f hf).isNewest p time (if sel r then f r else r) =
      t.isNewest p time r := by
    intro r
    simp only [isNewest, update_rows, hp', ht', List.all_map, Function.comp_def]
  unfold newest
  rw [update_rows, List.find?_map]
  simp only [Function.comp_def, hn]

theorem newest_insert [DecidableEq κ] (h : t.insert r = some u) (hr : p r = true)
    (hnew : ∀ q ∈ t.rows, p q = true → time q < time r) : u.newest p time = some r := by
  have hrows := insert_rows h
  have hold : ∀ q ∈ t.rows, u.isNewest p time q = false := by
    intro q hq
    by_contra hc
    have hn := isNewest_iff.mp (by simpa using hc)
    have hle := hn.2 r (by simp [hrows]) hr
    exact absurd (hnew q hq hn.1) (not_lt.mpr hle)
  have hself : u.isNewest p time r = true := by
    refine isNewest_iff.mpr ⟨hr, fun q hq hpq => ?_⟩
    rw [hrows, List.mem_append, List.mem_singleton] at hq
    rcases hq with hq | rfl
    · exact le_of_lt (hnew q hq hpq)
    · exact le_rfl
  unfold newest
  rw [hrows, List.find?_append, List.find?_eq_none.mpr fun q hq => by simp [hold q hq]]
  simp [hself]

end KeyedTable
