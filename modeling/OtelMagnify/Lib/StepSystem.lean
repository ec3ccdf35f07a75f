import Mathlib.Data.Option.Basic
import Mathlib.Data.List.Basic

/-! Labelled step systems. A system is a partial step function on states; the label
carries every choice the environment makes, so a list of labels is a whole run. -/
namespace StepSystem

variable {σ α : Type*}

def run (step : σ → α → Option σ) : σ → List α → Option σ
  | s, [] => some s
  | s, a :: as => (step s a).bind fun t => run step t as

/-- The outcome of a run on fixed labels is found by evaluation. -/
instance decidableExistsEqSome (x : Option α) (P : α → Prop) [DecidablePred P] :
    Decidable (∃ a, x = some a ∧ P a) :=
  inferInstanceAs (Decidable (∃ a ∈ x, P a))

variable {as : List α} {s : σ} {step : σ → α → Option σ}

theorem run_cons_eq_some {u : σ} {a : α} :
    run step s (a :: as) = some u ↔ ∃ t, step s a = some t ∧ run step t as = some u := by
  simp [run, Option.bind_eq_some_iff]

/-- Every step of the run meets the guard `G` in the state it starts from. -/
def Meets (step : σ → α → Option σ) (G : σ → α → Prop) : σ → List α → Prop
  | _, [] => True
  | s, a :: as => G s a ∧ ∀ t, step s a = some t → Meets step G t as

instance decidableMeets (step : σ → α → Option σ) (G : σ → α → Prop)
    [∀ s a, Decidable (G s a)] : ∀ s as, Decidable (Meets step G s as)
  | _, [] => isTrue trivial
  | s, a :: as =>
    match h : step s a with
    | none => decidable_of_iff (G s a) (by simp [Meets, h])
    | some t =>
      have := decidableMeets step G t as
      decidable_of_iff (G s a ∧ Meets step G t as) (by simp [Meets, h])

/-- The invariant rule for runs whose steps all meet a guard. -/
theorem run_invariant_of_meets {G : σ → α → Prop} {P : σ → Prop}
    (hstep : ∀ s a t, P s → G s a → step s a = some t → P t) {u : σ}
    (hs : P s) (hG : Meets step G s as) (h : run step s as = some u) : P u := by
  induction as generalizing s with
  | nil =>
    have hu : s = u := Option.some.inj h
    exact hu ▸ hs
  | cons a as ih =>
    obtain ⟨t, ht, hr⟩ := run_cons_eq_some.mp h
    exact ih (hstep s a t hs hG.1 ht) (hG.2 t ht) hr

theorem map_run {τ : Type*} {step' : τ → α → Option τ} {f : σ → τ}
    (hstep : ∀ s a, (step s a).map f = step' (f s) a) (s : σ) (as : List α) :
    (run step s as).map f = run step' (f s) as := by
  induction as generalizing s with
  | nil => rfl
  | cons a as ih =>
    rw [run, run, ← hstep]
    cases step s a with
    | none => rfl
    | some t => exact ih t

section Related

variable {τ β : Type*}

theorem rel_bind {α' β' : Type*} {R : α → β → Prop} {S : α' → β' → Prop} {x : Option α}
    {y : Option β} {f : α → Option α'} {g : β → Option β'} (h : Option.Rel R x y)
    (hfg : ∀ a b, R a b → Option.Rel S (f a) (g b)) : Option.Rel S (x.bind f) (y.bind g) := by
  cases h with
  | none => exact .none
  | some hab => exact hfg _ _ hab

theorem rel_map {α' β' : Type*} {R : α → β → Prop} {S : α' → β' → Prop} {x : Option α}
    {y : Option β} {f : α → α'} {g : β → β'} (h : Option.Rel R x y)
    (hfg : ∀ a b, R a b → S (f a) (g b)) : Option.Rel S (x.map f) (y.map g) := by
  cases h with
  | none => exact .none
  | some hab => exact .some (hfg _ _ hab)

theorem run_rel {step' : τ → β → Option τ} {R : σ → τ → Prop} {A : α → β → Prop}
    (hstep : ∀ s t a b, R s t → A a b → Option.Rel R (step s a) (step' t b)) {t : τ}
    {bs : List β} (hR : R s t) (hA : List.Forall₂ A as bs) :
    Option.Rel R (run step s as) (run step' t bs) := by
  induction hA generalizing s t with
  | nil => exact .some hR
  | cons hab _ ih => exact rel_bind (hstep _ _ _ _ hR hab) fun _ _ hR' => ih hR'

end Related

def Reachable (step : σ → α → Option σ) (s₀ s : σ) : Prop := ∃ as, run step s₀ as = some s

theorem Reachable.project {τ β : Type*} {step' : τ → β → Option τ}
    {f : σ → τ} (hstep : ∀ s a t, step s a = some t → f t = f s ∨ ∃ b, step' (f s) b = some (f t))
    {s₀ : σ} (h : Reachable step s₀ s) : Reachable step' (f s₀) (f s) := by
  obtain ⟨as, hr⟩ := h
  induction as generalizing s₀ with
  | nil =>
    cases hr
    exact ⟨[], rfl⟩
  | cons a as ih =>
    obtain ⟨t, ht, hr⟩ := run_cons_eq_some.mp hr
    obtain ⟨bs, hbs⟩ := ih hr
    rcases hstep s₀ a t ht with he | ⟨b, hb⟩
    · exact ⟨bs, he ▸ hbs⟩
    · exact ⟨b :: bs, run_cons_eq_some.mpr ⟨f t, hb, hbs⟩⟩

theorem meets_true (step : σ → α → Option σ) (s : σ) (as : List α) :
    Meets step (fun _ _ => True) s as := by
  induction as generalizing s with
  | nil => trivial
  | cons a as ih => exact ⟨trivial, fun t _ => ih t⟩

theorem Reachable.invariant {P : σ → Prop} {s₀ : σ} (h : Reachable step s₀ s) (h₀ : P s₀)
    (hstep : ∀ s a t, P s → step s a = some t → P t) : P s := by
  obtain ⟨as, hr⟩ := h
  exact run_invariant_of_meets (fun s a t hs _ ht => hstep s a t hs ht) h₀
    (meets_true step s₀ as) hr

end StepSystem
