import Mathlib.Data.Option.Basic

/-! Sequences of checks in `Except`: what a passed sequence has checked, and a rule for what
every error of a sequence satisfies. -/
namespace Checks

universe u v

variable {ε : Type u} {α β : Type v}

def require (o : Option α) (e : ε) : Except ε α :=
  match o with
  | some a => .ok a
  | none => .error e

section Passed

variable {b : β}

theorem require_eq_ok {o : Option β} {e : ε} : require o e = .ok b ↔ o = some b := by
  cases o <;> simp [require]

theorem bind_eq_ok {x : Except ε α} {f : α → Except ε β} :
    x >>= f = .ok b ↔ ∃ a, x = .ok a ∧ f a = .ok b := by
  cases x with
  | error e =>
    constructor
    · rintro ⟨⟩
    · rintro ⟨_, ⟨⟩, -⟩
  | ok a =>
    constructor
    · exact fun h => ⟨a, rfl, h⟩
    · rintro ⟨_, ⟨⟩, h⟩
      exact h

theorem check_eq_ok {p : Prop} [Decidable p] {e : ε} {f : PUnit → Except ε β} {x : Except ε β} :
    (if p then throw e >>= f else x) = .ok b ↔ ¬ p ∧ x = .ok b := by
  split
  · next hp =>
    constructor
    · rintro ⟨⟩
    · exact fun h => absurd hp h.1
  · next hp => exact ⟨fun h => ⟨hp, h⟩, fun h => h.2⟩

theorem mapError_eq_ok {ε' : Type*} {x : Except ε α} {f : ε → ε'} {a : α}
    (h : x.mapError f = .ok a) : x = .ok a := by
  cases x <;> cases h
  rfl

end Passed

/-- Every error that the computation can end with satisfies `P`. -/
def AllErrors (P : ε → Prop) (x : Except ε α) : Prop := ∀ e, x = .error e → P e

namespace AllErrors

variable {P : ε → Prop} {e : ε} {x : Except ε α}

theorem ok (a : α) : AllErrors P (pure a : Except ε α) := by
  rintro _ ⟨⟩

theorem require {o : Option α} (he : o = none → P e) : AllErrors P (require o e) := by
  cases o with
  | some a => rintro _ ⟨⟩
  | none =>
    rintro _ ⟨⟩
    exact he rfl

theorem bind {f : α → Except ε β} (hx : AllErrors P x)
    (hf : ∀ a, x = .ok a → AllErrors P (f a)) : AllErrors P (x >>= f) := by
  cases x with
  | error e' =>
    rintro _ ⟨⟩
    exact hx e' rfl
  | ok a => exact hf a rfl

theorem check {p : Prop} [Decidable p] {f : PUnit → Except ε α} (he : p → P e)
    (hx : ¬ p → AllErrors P x) : AllErrors P (if p then throw e >>= f else x) := by
  by_cases hp : p
  · rw [if_pos hp]
    rintro _ ⟨⟩
    exact he hp
  · rw [if_neg hp]
    exact hx hp

end AllErrors

end Checks
