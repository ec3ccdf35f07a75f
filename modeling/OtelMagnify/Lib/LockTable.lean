import Mathlib.Data.List.Basic
import Mathlib.Data.Nat.Notation

/-! Lock tables. Transactions hold locks of different modes on one object until they end; a lock is
granted when its mode is compatible with those that other transactions hold. -/

/-- The locks that are held, by transaction. Different transactions hold compatible ones. -/
structure LockTable {μ : Type*} (conflicts : μ → μ → Bool) where
  held : List (ℕ × μ) := []
  compatible : ∀ a ∈ held, ∀ b ∈ held, a.1 ≠ b.1 → conflicts a.2 b.2 = false := by simp

namespace LockTable

variable {μ : Type*} {conflicts : μ → μ → Bool} {l l' : LockTable conflicts} {tx tx' : ℕ} {m m' : μ}

def Holds (l : LockTable conflicts) (tx : ℕ) (m : μ) : Prop := (tx, m) ∈ l.held

def grants (l : LockTable conflicts) (tx : ℕ) (m : μ) : Bool :=
  l.held.all fun h => h.1 = tx || (!conflicts m h.2 && !conflicts h.2 m)

theorem compatible_cons (h : l.grants tx m = true) : ∀ a ∈ (tx, m) :: l.held,
    ∀ b ∈ (tx, m) :: l.held, a.1 ≠ b.1 → conflicts a.2 b.2 = false := by
  have hfree : ∀ b ∈ l.held, b.1 ≠ tx → conflicts m b.2 = false ∧ conflicts b.2 m = false := by
    intro b hb hne
    have hb' := List.all_eq_true.1 h b hb
    simpa [hne] using hb'
  intro a ha b hb hne
  rcases List.mem_cons.1 ha with rfl | ha'
  · rcases List.mem_cons.1 hb with rfl | hb'
    · exact absurd rfl hne
    · exact (hfree b hb' (Ne.symm hne)).1
  · rcases List.mem_cons.1 hb with rfl | hb'
    · exact (hfree a ha' hne).2
    · exact l.compatible a ha' b hb' hne

def acquire (l : LockTable conflicts) (tx : ℕ) (m : μ) : Option (LockTable conflicts) :=
  if h : l.grants tx m = true then some ⟨(tx, m) :: l.held, compatible_cons h⟩ else none

def release (l : LockTable conflicts) (tx : ℕ) : LockTable conflicts where
  held := l.held.filter (·.1 ≠ tx)
  compatible a ha b hb := l.compatible a (List.mem_of_mem_filter ha) b (List.mem_of_mem_filter hb)

theorem held_acquire (h : l.acquire tx m = some l') : l'.held = (tx, m) :: l.held := by
  unfold acquire at h
  split_ifs at h
  cases h
  rfl

theorem holds_acquire_self (h : l.acquire tx m = some l') : l'.Holds tx m := by
  rw [Holds, held_acquire h]
  exact List.mem_cons_self

theorem Holds.acquire (hl : l.Holds tx m) (h : l.acquire tx' m' = some l') : l'.Holds tx m := by
  rw [Holds, held_acquire h]
  exact List.mem_cons_of_mem _ hl

theorem Holds.release (hl : l.Holds tx m) (hne : tx ≠ tx') : (l.release tx').Holds tx m :=
  List.mem_filter.2 ⟨hl, by simpa using hne⟩

theorem Holds.compatible (hl : l.Holds tx m) (hl' : l.Holds tx' m') (hne : tx ≠ tx') :
    conflicts m m' = false :=
  l.compatible _ hl _ hl' hne

end LockTable
