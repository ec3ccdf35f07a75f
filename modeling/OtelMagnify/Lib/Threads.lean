import Mathlib.Data.List.Basic

/-! Thread pools. The threads of a concurrent system are a list, each thread's state at its
index: a thread is started by appending it and moves by replacing its entry. -/
namespace Threads

variable {τ : Type*} {l : List τ} {t : ℕ} {x y : τ}

theorem mem_start (h : y ∈ l ++ [x]) : y ∈ l ∨ y = x := by
  simpa using h

theorem countP_set_add (h : l[t]? = some x) (y : τ) (p : τ → Bool) :
    (l.set t y).countP p + (if p x then 1 else 0) = l.countP p + (if p y then 1 else 0) := by
  obtain ⟨hlt, hget⟩ := List.getElem?_eq_some_iff.mp h
  have hpos : p x = true → 0 < l.countP p := fun hp =>
    List.countP_pos_iff.mpr ⟨x, List.mem_of_getElem? h, hp⟩
  rw [List.countP_set hlt, hget]
  by_cases hp : p x = true
  · have := hpos hp
    simp only [hp, if_true]
    omega
  · simp [hp]

end Threads
