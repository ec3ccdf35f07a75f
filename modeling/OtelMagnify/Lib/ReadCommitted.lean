import Mathlib.Data.Nat.Notation
import Mathlib.Logic.Function.Basic
import Mathlib.Data.Option.Basic

/-! Tables under READ COMMITTED. Each key has a committed row; a transaction that writes or locks
a row holds its lock until it ends, with the version it will commit. Other transactions read the
committed rows and wait for the lock. -/
namespace ReadCommitted

structure Table (κ ρ : Type*) where
  row : κ → Option ρ
  lock : κ → Option (ℕ × Option ρ)

namespace Table

variable {κ ρ : Type*} {t t' : Table κ ρ} {tx tx' : ℕ} {k k' : κ} {v : Option ρ}

def ofRows (row : κ → Option ρ) : Table κ ρ := ⟨row, fun _ => none⟩

def isBlocked (t : Table κ ρ) (tx : ℕ) (k : κ) : Bool := (t.lock k).any (·.1 ≠ tx)

/-- What the transaction reads: its own version if it has one, else the committed row. -/
def version (t : Table κ ρ) (tx : ℕ) (k : κ) : Option ρ :=
  match t.lock k with
  | some (holder, v) => if holder = tx then v else t.row k
  | none => t.row k

/-- The transaction takes the lock and writes a version. -/
def put [DecidableEq κ] (t : Table κ ρ) (tx : ℕ) (k : κ) (v : Option ρ) : Table κ ρ :=
  { t with lock := Function.update t.lock k (some (tx, v)) }

def abort (t : Table κ ρ) (tx : ℕ) : Table κ ρ :=
  { t with lock := fun k => (t.lock k).filter (·.1 ≠ tx) }

def commit (t : Table κ ρ) (tx : ℕ) : Table κ ρ := { t.abort tx with row := t.version tx }

/-- A `DELETE` of its own transaction: it waits for the lock of a row that it sees. -/
def delete [DecidableEq κ] (t : Table κ ρ) (k : κ) : Option (Table κ ρ) :=
  if (t.row k).isSome && (t.lock k).isSome then none
  else some { t with row := Function.update t.row k none }

@[simp] theorem row_put [DecidableEq κ] (t : Table κ ρ) (tx : ℕ) (k : κ) (v : Option ρ) :
    (t.put tx k v).row = t.row := rfl

@[simp] theorem row_commit (t : Table κ ρ) (tx : ℕ) : (t.commit tx).row = t.version tx := rfl

/-- An abort forgets what the transaction has just written. -/
theorem abort_put [DecidableEq κ] (hfree : t.isBlocked tx k = false) :
    (t.put tx k v).abort tx = t.abort tx := by
  simp only [abort, put, mk.injEq, true_and]
  funext k'
  by_cases hk : k' = k
  · subst hk
    rw [Function.update_self]
    cases hlock : t.lock k' with
    | none => simp
    | some l =>
      have hl : l.1 = tx := by simpa [isBlocked, hlock] using hfree
      simp [Option.filter, hl]
  · rw [Function.update_of_ne hk]

def Holds (t : Table κ ρ) (tx : ℕ) (k : κ) (v : Option ρ) : Prop := t.lock k = some (tx, v)

theorem holds_put [DecidableEq κ] (t : Table κ ρ) (tx : ℕ) (k : κ) (v : Option ρ) :
    (t.put tx k v).Holds tx k v := Function.update_self ..

theorem Holds.version (h : t.Holds tx k v) : t.version tx k = v := by
  simp only [Table.version, show t.lock k = some (tx, v) from h, if_true]

theorem Holds.isBlocked (h : t.Holds tx k v) : t.isBlocked tx k = false := by
  simp [Table.isBlocked, show t.lock k = some (tx, v) from h]

/-- What the transaction holds, and the rows under its locks, are as they were. -/
structure Spares (t t' : Table κ ρ) (tx : ℕ) : Prop where
  row : ∀ k v, t.Holds tx k v → t'.row k = t.row k
  holds : ∀ k v, t'.Holds tx k v ↔ t.Holds tx k v

theorem Spares.refl (t : Table κ ρ) (tx : ℕ) : t.Spares t tx :=
  ⟨fun _ _ _ => rfl, fun _ _ => .rfl⟩

theorem put_spares [DecidableEq κ] (hne : tx ≠ tx') (hfree : t.isBlocked tx k = false)
    (v : Option ρ) : t.Spares (t.put tx k v) tx' := by
  refine ⟨fun _ _ _ => rfl, fun k' v' => ?_⟩
  by_cases hk : k' = k
  · subst hk
    have hput : (t.put tx k' v).lock k' = some (tx, v) := Function.update_self ..
    rw [Holds, hput, Holds]
    constructor
    · intro h
      cases h
      exact absurd rfl hne
    · intro h
      simp [isBlocked, h, hne.symm] at hfree
  · simp [Holds, put, hk]

theorem abort_spares (hne : tx ≠ tx') (t : Table κ ρ) : t.Spares (t.abort tx) tx' := by
  refine ⟨fun _ _ _ => rfl, fun k v => ?_⟩
  rw [Holds, abort, Option.filter_eq_some_iff, Holds]
  exact and_iff_left (by simpa using hne.symm)

theorem commit_spares (hne : tx ≠ tx') (t : Table κ ρ) : t.Spares (t.commit tx) tx' := by
  refine ⟨fun k v h => ?_, (abort_spares hne t).holds⟩
  rw [row_commit, Table.version, show t.lock k = some (tx', v) from h]
  exact if_neg hne.symm

/-- A delete waits for the lock of a row that it sees, and sees no other row. -/
theorem delete_spares [DecidableEq κ] (h : t.delete k = some t') (tx : ℕ) : t.Spares t' tx := by
  unfold delete at h
  split at h
  · cases h
  · next hfree =>
    cases h
    refine ⟨fun k' v hv => ?_, fun _ _ => .rfl⟩
    by_cases hk : k' = k
    · subst hk
      rw [show t.lock k' = some (tx, v) from hv] at hfree
      simp only [Option.isSome_some, Bool.and_true, Bool.not_eq_true, Option.isSome_eq_false_iff,
        Option.isNone_iff_eq_none] at hfree
      simp [hfree]
    · exact Function.update_of_ne hk ..

/-- What a transaction has done to a table: nothing, or one row, with the committed version that
it found and the one that it will commit. -/
inductive Staged (t : Table κ ρ) (tx : ℕ) : Option (κ × Option ρ × Option ρ) → Prop where
  | none (h : ∀ k v, ¬ t.Holds tx k v) : Staged t tx .none
  | some {k : κ} {old v : Option ρ} (hrow : t.row k = old) (hself : t.Holds tx k v)
      (honly : ∀ k' v', t.Holds tx k' v' → k' = k) : Staged t tx (.some (k, old, v))

theorem Staged.spared {w : Option (κ × Option ρ × Option ρ)} (h : t.Staged tx w)
    (hs : t.Spares t' tx) : t'.Staged tx w := by
  cases h with
  | none h => exact .none fun k v hv => h k v ((hs.holds k v).mp hv)
  | some hrow hself honly =>
    exact .some ((hs.row _ _ hself).trans hrow) ((hs.holds _ _).mpr hself)
      fun k' v' hv => honly k' v' ((hs.holds k' v').mp hv)

theorem holds_put_iff [DecidableEq κ] {v' : Option ρ} :
    (t.put tx k v).Holds tx k' v' ↔ if k' = k then v' = v else t.Holds tx k' v' := by
  by_cases hk : k' = k
  · subst hk
    simp [Holds, put, eq_comm]
  · simp [Holds, put, hk]

theorem Staged.put [DecidableEq κ] (h : t.Staged tx .none) (k : κ) (v : Option ρ) :
    (t.put tx k v).Staged tx (.some (k, t.row k, v)) := by
  cases h with
  | none h =>
    refine .some rfl (holds_put t tx k v) fun k' v' hv => ?_
    by_contra hne
    rw [holds_put_iff, if_neg hne] at hv
    exact h k' v' hv

theorem Staged.reput [DecidableEq κ] {old : Option ρ} (h : t.Staged tx (.some (k, old, v)))
    (v' : Option ρ) : (t.put tx k v').Staged tx (.some (k, old, v')) := by
  cases h with
  | some hrow hself honly =>
    refine .some hrow (holds_put t tx k v') fun k' v'' hv => ?_
    by_contra hne
    rw [holds_put_iff, if_neg hne] at hv
    exact hne (honly k' v'' hv)

theorem version_of_not_holds (h : ∀ v, ¬ t.Holds tx k v) : t.version tx k = t.row k := by
  unfold Table.version
  split
  · next holder v hlock =>
    rw [if_neg]
    rintro rfl
    exact h v hlock
  · rfl

def apply [DecidableEq κ] (row : κ → Option ρ) : Option (κ × Option ρ × Option ρ) → κ → Option ρ
  | .none => row
  | .some (k, _, v) => Function.update row k v

/-- A commit writes what was staged. -/
theorem Staged.row_commit [DecidableEq κ] {w : Option (κ × Option ρ × Option ρ)}
    (h : t.Staged tx w) : (t.commit tx).row = apply t.row w := by
  cases h with
  | none h => exact funext fun k => version_of_not_holds (h k)
  | @some k old v hrow hself honly =>
    funext k'
    by_cases hk : k' = k
    · subst hk
      rw [Table.row_commit, hself.version, apply, Function.update_self]
    · rw [Table.row_commit, apply, Function.update_of_ne hk]
      exact version_of_not_holds fun v' hv => hk (honly k' v' hv)

end Table

end ReadCommitted
