import OtelMagnify.Lib.StepSystem
import Mathlib.Data.List.Forall2

/-! Threads over a shared state. A program says how one thread moves and how threads arrive; a
pool interleaves them. Invariants of a pool are proved thread by thread: a property of the shared
state, one of each thread against the shared state, and one of any two threads. -/

structure Pool (σ τ : Type*) where
  shared : σ
  threads : List τ

namespace Pool

/-- `resume` moves one thread and may start another; `arrive` is a step of the environment and
may start one. -/
structure Program (σ τ α ε : Type*) where
  resume : σ → τ → α → Option (σ × τ × Option τ)
  arrive : σ → ε → Option (σ × Option τ)

inductive Label (α ε : Type*) where
  | resume (i : ℕ) (a : α)
  | arrive (e : ε)

variable {σ τ α ε : Type*}

def Program.step (P : Program σ τ α ε) (p : Pool σ τ) : Label α ε → Option (Pool σ τ)
  | .resume i a =>
    p.threads[i]?.bind fun t =>
      (P.resume p.shared t a).map fun m => ⟨m.1, p.threads.set i m.2.1 ++ m.2.2.toList⟩
  | .arrive e => (P.arrive p.shared e).map fun m => ⟨m.1, p.threads ++ m.2.toList⟩

variable {i : ℕ} {p p' : Pool σ τ} {t u t' : τ} {l : List τ} {new : Option τ} {P : Program σ τ α ε}

theorem Program.step_resume_eq_some {a : α} :
    P.step p (.resume i a) = some p' ↔
      ∃ t s t' new, p.threads[i]? = some t ∧ P.resume p.shared t a = some (s, t', new) ∧
        p' = ⟨s, p.threads.set i t' ++ new.toList⟩ := by
  simp only [step, Option.bind_eq_some_iff, Option.map_eq_some_iff]
  constructor
  · rintro ⟨t, ht, ⟨s, t', new⟩, hm, rfl⟩
    exact ⟨t, s, t', new, ht, hm, rfl⟩
  · rintro ⟨t, s, t', new, ht, hm, rfl⟩
    exact ⟨t, ht, _, hm, rfl⟩

/-- The step of a thread that is at the same place before and after it. -/
theorem Program.resume_of_step {a : α}
    (ht : p.threads[i]? = some t) (hs : P.step p (.resume i a) = some p')
    (hu : p'.threads[i]? = some u) : ∃ new, P.resume p.shared t a = some (p'.shared, u, new) := by
  obtain ⟨t₀, s, t', new, ht₀, hm, rfl⟩ := step_resume_eq_some.mp hs
  cases ht₀.symm.trans ht
  obtain ⟨hlt, -⟩ := List.getElem?_eq_some_iff.mp ht
  rw [List.getElem?_append_left (by simpa using hlt), List.getElem?_set_self hlt] at hu
  cases hu
  exact ⟨new, hm⟩

theorem Program.step_arrive_eq_some {e : ε} :
    P.step p (.arrive e) = some p' ↔
      ∃ s new, P.arrive p.shared e = some (s, new) ∧ p' = ⟨s, p.threads ++ new.toList⟩ := by
  simp only [step, Option.map_eq_some_iff]
  constructor
  · rintro ⟨⟨s, new⟩, hm, rfl⟩
    exact ⟨s, new, hm, rfl⟩
  · rintro ⟨s, new, hm, rfl⟩
    exact ⟨_, hm, rfl⟩

section Related

variable {σ' τ' ε' : Type*} {RS : σ → σ' → Prop} {RT : τ → τ' → Prop}

/-- Two moves lead to related states and threads, and start related threads. -/
def MoveRel (RS : σ → σ' → Prop) (RT : τ → τ' → Prop) (m : σ × τ × Option τ)
    (m' : σ' × τ' × Option τ') : Prop :=
  RS m.1 m'.1 ∧ RT m.2.1 m'.2.1 ∧ Option.Rel RT m.2.2 m'.2.2

/-- Two pools are related thread by thread. -/
structure Rel (RS : σ → σ' → Prop) (RT : τ → τ' → Prop) (p : Pool σ τ) (q : Pool σ' τ') :
    Prop where
  shared : RS p.shared q.shared
  threads : List.Forall₂ RT p.threads q.threads

inductive LabelRel (RE : ε → ε' → Prop) : Label α ε → Label α ε' → Prop where
  | resume (i : ℕ) (a : α) : LabelRel RE (.resume i a) (.resume i a)
  | arrive {e : ε} {e' : ε'} (h : RE e e') : LabelRel RE (.arrive e) (.arrive e')

theorem forall₂_getElem? {l' : List τ'} (h : List.Forall₂ RT l l') (i : ℕ) :
    Option.Rel RT l[i]? l'[i]? := by
  induction h generalizing i with
  | nil => exact .none
  | cons hx _ ih =>
    cases i with
    | zero => exact .some hx
    | succ i => exact ih i

theorem forall₂_set {l' : List τ'} (h : List.Forall₂ RT l l') {x : τ} {x' : τ'}
    (hx : RT x x') (i : ℕ) : List.Forall₂ RT (l.set i x) (l'.set i x') := by
  induction h generalizing i with
  | nil => exact .nil
  | cons hy hl ih =>
    cases i with
    | zero => exact .cons hx hl
    | succ i => exact .cons hy (ih i)

theorem forall₂_toList {x : Option τ} {y : Option τ'} (h : Option.Rel RT x y) :
    List.Forall₂ RT x.toList y.toList := by
  cases h with
  | none => exact .nil
  | some hxy => exact .cons hxy .nil

/-- Programs whose moves and arrivals are related keep their pools related. -/
theorem Program.step_rel {P' : Program σ' τ' α ε'} {RE : ε → ε' → Prop}
    (hresume : ∀ s s' t t' a, RS s s' → RT t t' →
      Option.Rel (MoveRel RS RT) (P.resume s t a) (P'.resume s' t' a))
    (harrive : ∀ s s' e e', RS s s' → RE e e' →
      Option.Rel (fun m m' => RS m.1 m'.1 ∧ Option.Rel RT m.2 m'.2) (P.arrive s e)
        (P'.arrive s' e'))
    (p : Pool σ τ) (q : Pool σ' τ') (l : Label α ε) (l' : Label α ε') (hpq : Rel RS RT p q)
    (hl : LabelRel RE l l') : Option.Rel (Rel RS RT) (P.step p l) (P'.step q l') := by
  cases hl with
  | resume i a =>
    refine StepSystem.rel_bind (forall₂_getElem? hpq.threads i) fun t t' ht => ?_
    refine StepSystem.rel_map (hresume _ _ _ _ a hpq.shared ht) fun m m' hm => ?_
    exact ⟨hm.1, List.rel_append (forall₂_set hpq.threads hm.2.1 i) (forall₂_toList hm.2.2)⟩
  | arrive h =>
    refine StepSystem.rel_map (harrive _ _ _ _ hpq.shared h) fun m m' hm => ?_
    exact ⟨hm.1, List.rel_append hpq.threads (forall₂_toList hm.2)⟩

end Related

structure Holds (I : σ → Prop) (Ok : σ → τ → Prop) (Apart : τ → τ → Prop) (p : Pool σ τ) :
    Prop where
  shared : I p.shared
  thread : ∀ t ∈ p.threads, Ok p.shared t
  apart : p.threads.Pairwise Apart

/-- What the steps of a run may be asked for: of the thread that moves, of a thread that is there
while another one moves, of an arrival, and of a thread that is there at an arrival. -/
structure Guards (σ τ α ε : Type*) where
  mover : σ → τ → α → Prop := fun _ _ _ => True
  bystander : σ → τ → σ → Prop := fun _ _ _ => True
  arrival : σ → ε → Prop := fun _ _ => True
  present : σ → τ → ε → Prop := fun _ _ _ => True

/-- The step from `p` to `p'` is as the guards ask. -/
def Guards.Meets (G : Guards σ τ α ε) (p p' : Pool σ τ) : Label α ε → Prop
  | .resume i a => (∀ t, p.threads[i]? = some t → G.mover p.shared t a) ∧
      ∀ u ∈ p.threads, G.bystander p.shared u p'.shared
  | .arrive e => G.arrival p.shared e ∧ ∀ u ∈ p.threads, G.present p.shared u e

/-- A program keeps an invariant under guards when each move keeps it for the thread that moves,
for the one it starts, and for every other thread. -/
structure KeepsUnder (P : Program σ τ α ε) (G : Guards σ τ α ε) (I : σ → Prop)
    (Ok : σ → τ → Prop) (Apart : τ → τ → Prop) : Prop where
  symm : ∀ t u, Apart t u → Apart u t
  resume : ∀ s t a s' t' new, I s → Ok s t → G.mover s t a → P.resume s t a = some (s', t', new) →
    I s' ∧ Ok s' t' ∧ ∀ n ∈ new, Ok s' n ∧ Apart t' n
  others : ∀ s t a s' t' new u, I s → Ok s t → P.resume s t a = some (s', t', new) →
    Ok s u → Apart t u → G.bystander s u s' → Ok s' u ∧ Apart t' u ∧ ∀ n ∈ new, Apart n u
  arrive : ∀ s e s' new, I s → G.arrival s e → P.arrive s e = some (s', new) →
    I s' ∧ ∀ n ∈ new, Ok s' n
  arriveOthers : ∀ s e s' new u, I s → P.arrive s e = some (s', new) → Ok s u →
    G.present s u e → Ok s' u ∧ ∀ n ∈ new, Apart n u

structure Keeps (P : Program σ τ α ε) (I : σ → Prop) (Ok : σ → τ → Prop)
    (Apart : τ → τ → Prop) : Prop where
  symm : ∀ t u, Apart t u → Apart u t
  resume : ∀ s t a s' t' new, I s → Ok s t → P.resume s t a = some (s', t', new) →
    I s' ∧ Ok s' t' ∧ ∀ n ∈ new, Ok s' n ∧ Apart t' n
  others : ∀ s t a s' t' new u, I s → Ok s t → P.resume s t a = some (s', t', new) →
    Ok s u → Apart t u → Ok s' u ∧ Apart t' u ∧ ∀ n ∈ new, Apart n u
  arrive : ∀ s e s' new, I s → P.arrive s e = some (s', new) → I s' ∧ ∀ n ∈ new, Ok s' n
  arriveOthers : ∀ s e s' new u, I s → P.arrive s e = some (s', new) → Ok s u →
    Ok s' u ∧ ∀ n ∈ new, Apart n u

theorem mem_set_append
    (h : u ∈ l.set i t' ++ new.toList) : (∃ j, j ≠ i ∧ l[j]? = some u) ∨ u = t' ∨ u ∈ new := by
  rcases List.mem_append.mp h with h | h
  · obtain ⟨j, hj⟩ := List.mem_iff_getElem?.mp h
    by_cases hi : i = j
    · subst hi
      rw [List.getElem?_set_self'] at hj
      obtain ⟨x, -, hx⟩ := Option.map_eq_some_iff.mp hj
      exact .inr (.inl hx.symm)
    · rw [List.getElem?_set_ne hi] at hj
      exact .inl ⟨j, fun e => hi e.symm, hj⟩
  · exact .inr (.inr (Option.mem_toList.mp h))

variable {P : Program σ τ α ε} {G : Guards σ τ α ε} {I : σ → Prop} {Ok : σ → τ → Prop}
  {Apart : τ → τ → Prop}

theorem Keeps.keepsUnder (hP : Keeps P I Ok Apart) (G : Guards σ τ α ε) :
    KeepsUnder P G I Ok Apart where
  symm := hP.symm
  resume s t a s' t' new hI ht _ hm := hP.resume s t a s' t' new hI ht hm
  others s t a s' t' new u hI ht hm hu happ _ := hP.others s t a s' t' new u hI ht hm hu happ
  arrive s e s' new hI _ hm := hP.arrive s e s' new hI hm
  arriveOthers s e s' new u hI hm hu _ := hP.arriveOthers s e s' new u hI hm hu

/-- Two threads at different places are apart, in either order. -/
theorem Holds.apart_of_ne (h : Holds I Ok Apart p)
    (symm : ∀ t u, Apart t u → Apart u t) {j : ℕ} (hne : j ≠ i)
    (ht : p.threads[i]? = some t) (hu : p.threads[j]? = some u) : Apart t u := by
  obtain ⟨hi, rfl⟩ := List.getElem?_eq_some_iff.mp ht
  obtain ⟨hj, rfl⟩ := List.getElem?_eq_some_iff.mp hu
  have hpair := List.pairwise_iff_getElem.mp h.apart
  rcases Nat.lt_or_gt_of_ne hne with hlt | hlt
  · exact symm _ _ (hpair j i hj hi hlt)
  · exact hpair i j hi hj hlt

theorem pairwise_set (symm : ∀ t u, Apart t u → Apart u t)
    (h : l.Pairwise Apart) (hi : ∀ j u, j ≠ i → l[j]? = some u → Apart t' u) :
    (l.set i t').Pairwise Apart := by
  rw [List.pairwise_iff_getElem] at h ⊢
  intro a b ha hb hab
  rw [List.length_set] at ha hb
  rw [List.getElem_set, List.getElem_set]
  split
  · next hia =>
    have hne : i ≠ b := by omega
    rw [if_neg hne]
    exact hi b _ hne.symm (List.getElem?_eq_getElem hb)
  · next hia =>
    split
    · next hib => exact symm _ _ (hi a _ (fun e => hia e.symm) (List.getElem?_eq_getElem ha))
    · exact h a b ha hb hab

theorem KeepsUnder.step (hP : KeepsUnder P G I Ok Apart) {l : Label α ε}
    (h : Holds I Ok Apart p) (hG : G.Meets p p' l) (hs : P.step p l = some p') :
    Holds I Ok Apart p' := by
  cases l with
  | resume i a =>
    obtain ⟨t, s, t', new, ht, hm, rfl⟩ := Program.step_resume_eq_some.mp hs
    obtain ⟨hmover, hG⟩ := hG
    have hok : Ok p.shared t := h.thread t (List.mem_of_getElem? ht)
    obtain ⟨hI, hself, hnew⟩ := hP.resume _ _ _ _ _ _ h.shared hok (hmover t ht) hm
    have hother : ∀ j u, j ≠ i → p.threads[j]? = some u →
        Ok s u ∧ Apart t' u ∧ ∀ n ∈ new, Apart n u := fun j u hj hu =>
      hP.others _ _ _ _ _ _ u h.shared hok hm (h.thread u (List.mem_of_getElem? hu))
        (h.apart_of_ne hP.symm hj ht hu) (hG u (List.mem_of_getElem? hu))
    refine ⟨hI, ?_, ?_⟩
    · intro u hu
      rcases mem_set_append hu with ⟨j, hj, hju⟩ | rfl | hn
      · exact (hother j u hj hju).1
      · exact hself
      · exact (hnew u hn).1
    · refine List.pairwise_append.mpr ⟨?_, ?_, ?_⟩
      · exact pairwise_set hP.symm h.apart fun j u hj hu => (hother j u hj hu).2.1
      · cases new <;> simp
      · intro u hu n hn
        have hn' := Option.mem_toList.mp hn
        have hu' : u ∈ p.threads.set i t' ++ (none : Option τ).toList := by simpa using hu
        rcases mem_set_append hu' with ⟨j, hj, hju⟩ | rfl | hx
        · exact hP.symm _ _ ((hother j u hj hju).2.2 n hn')
        · exact (hnew n hn').2
        · cases hx
  | arrive e =>
    obtain ⟨s, new, hm, rfl⟩ := Program.step_arrive_eq_some.mp hs
    obtain ⟨harrival, hG⟩ := hG
    obtain ⟨hI, hnew⟩ := hP.arrive _ _ _ _ h.shared harrival hm
    refine ⟨hI, ?_, ?_⟩
    · intro u hu
      rcases List.mem_append.mp hu with hu | hu
      · exact (hP.arriveOthers _ _ _ _ u h.shared hm (h.thread u hu) (hG u hu)).1
      · exact hnew u (Option.mem_toList.mp hu)
    · refine List.pairwise_append.mpr ⟨h.apart, ?_, ?_⟩
      · cases new <;> simp
      · intro u hu n hn
        exact hP.symm _ _ ((hP.arriveOthers _ _ _ _ u h.shared hm (h.thread u hu) (hG u hu)).2 n
          (Option.mem_toList.mp hn))

theorem Guards.meets_default (p p' : Pool σ τ) (l : Label α ε) :
    Guards.Meets {} p p' l := by
  cases l <;> exact ⟨by intros; trivial, by intros; trivial⟩

theorem Keeps.step (hP : Keeps P I Ok Apart) {l : Label α ε}
    (h : Holds I Ok Apart p) (hs : P.step p l = some p') : Holds I Ok Apart p' :=
  (hP.keepsUnder {}).step h (Guards.meets_default p p' l) hs

theorem Keeps.reachable (hP : Keeps P I Ok Apart) {p₀ : Pool σ τ}
    (h : StepSystem.Reachable P.step p₀ p) (h₀ : Holds I Ok Apart p₀) : Holds I Ok Apart p :=
  h.invariant h₀ fun _ _ _ hh hs => hP.step hh hs

section Covered

variable {β : Type*} {need : σ → β → Prop} {duty : τ → Option β}

/-- Whatever the shared state needs is the duty of some thread. -/
def Covered (need : σ → β → Prop) (duty : τ → Option β) (p : Pool σ τ) : Prop :=
  ∀ x, need p.shared x → ∃ t ∈ p.threads, duty t = some x

/-- A step keeps the needs covered when each need after it is a duty of the thread that moved, or
was there before and was not a duty of that thread. -/
theorem Covered.resume (h : Covered need duty p) {s' : σ} (ht : p.threads[i]? = some t)
    (hm : ∀ x, need s' x → duty t' = some x ∨ need p.shared x ∧ duty t ≠ some x) :
    Covered need duty ⟨s', p.threads.set i t' ++ new.toList⟩ := by
  intro x hx
  rcases hm x hx with hd | ⟨hold, hne⟩
  · refine ⟨t', List.mem_append_left _ (List.mem_of_getElem? (i := i) ?_), hd⟩
    rw [List.getElem?_set_self', ht]
    rfl
  · obtain ⟨u, hu, hd⟩ := h x hold
    obtain ⟨j, hj⟩ := List.mem_iff_getElem?.mp hu
    have hij : i ≠ j := by
      rintro rfl
      rw [ht] at hj
      cases hj
      exact hne hd
    refine ⟨u, List.mem_append_left _ (List.mem_of_getElem? (i := j) ?_), hd⟩
    rw [List.getElem?_set_ne hij, hj]

theorem Covered.arrive (h : Covered need duty p) {s' : σ}
    (hm : ∀ x, need s' x → need p.shared x ∨ ∃ n ∈ new, duty n = some x) :
    Covered need duty ⟨s', p.threads ++ new.toList⟩ := by
  intro x hx
  rcases hm x hx with hold | ⟨n, hn, hd⟩
  · obtain ⟨u, hu, hd⟩ := h x hold
    exact ⟨u, List.mem_append_left _ hu, hd⟩
  · exact ⟨n, List.mem_append_right _ (Option.mem_toList.mpr hn), hd⟩

end Covered

end Pool
