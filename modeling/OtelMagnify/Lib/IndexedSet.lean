import Mathlib.Data.List.Basic

/-! Sets with an index. The elements are held twice, in one flat collection and grouped by a
key; that the two agree is a field, so every operation has to move both. -/
structure IndexedSet {α κ : Type*} (key : α → κ) where
  all : List α
  byKey : κ → List α
  mem_byKey : ∀ k x, x ∈ byKey k ↔ x ∈ all ∧ key x = k

namespace IndexedSet

variable {α κ : Type*} {key : α → κ}

instance : Membership α (IndexedSet key) := ⟨fun s x => x ∈ s.all⟩

variable {s : IndexedSet key} {x y : α}

theorem mem_iff_mem_all : x ∈ s ↔ x ∈ s.all := Iff.rfl

theorem mem_byKey_iff {k : κ} : x ∈ s.byKey k ↔ x ∈ s ∧ key x = k := s.mem_byKey k x

def empty : IndexedSet key where
  all := []
  byKey := fun _ => []
  mem_byKey := by simp

@[simp] theorem not_mem_empty (x : α) : x ∉ (empty : IndexedSet key) := List.not_mem_nil

variable [DecidableEq α]

instance (s : IndexedSet key) (x : α) : Decidable (x ∈ s) :=
  inferInstanceAs (Decidable (x ∈ s.all))

def erase (s : IndexedSet key) (x : α) : IndexedSet key where
  all := s.all.filter (· ≠ x)
  byKey := fun k => (s.byKey k).filter (· ≠ x)
  mem_byKey := by
    intro k y
    simp only [List.mem_filter, s.mem_byKey]
    tauto

@[simp] theorem mem_erase : y ∈ s.erase x ↔ y ∈ s ∧ y ≠ x := by
  simp [mem_iff_mem_all, erase]

variable [DecidableEq κ]

def insert (s : IndexedSet key) (x : α) : IndexedSet key where
  all := s.all.insert x
  byKey := fun k => if key x = k then (s.byKey k).insert x else s.byKey k
  mem_byKey := by
    intro k y
    split
    · next hk =>
      simp only [List.mem_insert_iff, s.mem_byKey]
      constructor
      · rintro (rfl | h)
        · exact ⟨.inl rfl, hk⟩
        · exact ⟨.inr h.1, h.2⟩
      · rintro ⟨rfl | h, hy⟩
        · exact .inl rfl
        · exact .inr ⟨h, hy⟩
    · next hk =>
      simp only [List.mem_insert_iff, s.mem_byKey]
      constructor
      · exact fun h => ⟨.inr h.1, h.2⟩
      · rintro ⟨rfl | h, hy⟩
        · exact absurd hy hk
        · exact ⟨h, hy⟩

@[simp] theorem mem_insert : y ∈ s.insert x ↔ y = x ∨ y ∈ s := by
  simp [mem_iff_mem_all, insert]

def eraseKey (s : IndexedSet key) (k : κ) : IndexedSet key where
  all := s.all.filter (· ∉ s.byKey k)
  byKey := fun j => if j = k then [] else s.byKey j
  mem_byKey := by
    intro j y
    simp only [List.mem_filter, decide_eq_true_eq, s.mem_byKey]
    split
    · next hj => simp_all
    · next hj =>
      rw [s.mem_byKey]
      constructor
      · exact fun h => ⟨⟨h.1, fun hk => hj (h.2.symm.trans hk.2)⟩, h.2⟩
      · exact fun h => ⟨h.1.1, h.2⟩

@[simp] theorem mem_eraseKey {k : κ} : y ∈ s.eraseKey k ↔ y ∈ s ∧ key y ≠ k := by
  simp only [mem_iff_mem_all, eraseKey, List.mem_filter, decide_eq_true_eq, s.mem_byKey]
  tauto

end IndexedSet
