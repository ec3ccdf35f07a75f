import Mathlib.Data.List.Basic

/-! Interleavings of sequential programs. A schedule is a list of calls, each made by one
owner; it interleaves the owners' programs when every owner's calls, in the order they were
made, are its program. `erase` forgets what a schedule is free to choose, such as clocks. -/
namespace Interleaving

variable {ι β γ : Type*} [DecidableEq ι]

def Interleaves (owner : β → ι) (erase : β → γ) (prog : ι → List γ) (l : List β) : Prop :=
  ∀ i, (l.filter fun b => decide (owner b = i)).map erase = prog i

variable {erase : β → γ} {l : List β} {owner : β → ι} {prog : ι → List γ}

theorem Interleaves.getLast?
    (h : Interleaves owner erase prog l) {b : β} (hb : l.getLast? = some b) :
    (prog (owner b)).getLast? = some (erase b) := by
  obtain ⟨pre, rfl⟩ := List.getLast?_eq_some_iff.mp hb
  rw [← h (owner b), List.filter_append, List.map_append]
  simp

theorem Interleaves.eq_nil_iff
    (h : Interleaves owner erase prog l) : l = [] ↔ ∀ i, prog i = [] := by
  constructor
  · rintro rfl i
    simpa using (h i).symm
  · intro hnil
    cases l with
    | nil => rfl
    | cons b l =>
      have hb := h (owner b)
      simp [hnil] at hb

theorem Interleaves.filterMap_eq {δ : Type*} (h : Interleaves owner erase prog l) (i : ι)
    (f : γ → Option δ) :
    (l.filterMap fun b => if owner b = i then f (erase b) else none) =
      (prog i).filterMap f := by
  rw [← h i, List.filterMap_map, List.filterMap_filter]
  simp

end Interleaving
