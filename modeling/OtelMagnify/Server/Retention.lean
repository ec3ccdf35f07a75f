import OtelMagnify.Server.Liveness

/-! Live workloads keep a row that says so and sets no retention deadline, as long as a grace
callback marks only workloads without an instance. The callback checks that before it writes, and
an instance that binds in between breaks it. -/
namespace OtelMagnify.Server
open Push Token StepSystem

structure Workload.Fresh (row : Workload) : Prop where
  status : row.status ≠ .disconnected
  retentionUntil : row.retentionUntil = none

/-- The instance is bound to the workload, whose row does not show it yet. -/
structure Shared.Behind (σ : Shared) (b : String × String) : Prop where
  bound : σ.registry.uidToWL b.1 = some b.2
  stale : ∀ row, σ.rows b.2 = some row → ¬ row.Fresh

namespace Thread

/-- The instance and the workload that a description is about to write. -/
def describes : Thread → Option (String × String)
  | handler h (.cancelling w) => some (h.uid, w)
  | handler h (.describing w) => some (h.uid, w)
  | handler h (.aggregating w _) => some (h.uid, w)
  | handler h (.upserting w _) => some (h.uid, w)
  | _ => none

/-- The copy of the row that the goroutine holds does not bring a deadline back. -/
def Clean : Thread → Prop
  | handler _ (.upserting _ row) => row.Fresh
  | handler _ (.refreshAggregating _ row) => row.retentionUntil = none
  | handler _ (.refreshUpserting _ row) => row.Fresh
  | handler _ (.reportUpserting _ row) => row.Fresh
  | _ => True

end Thread

variable {σ σ' : Shared} {t t' : Thread} {new : Option Thread} {c : Choice} {h : Handler}
  {w x u : String} {row : Workload}
  {stage : HandlerStage} {b : String × String} {p : State} {a : Action}

theorem Thread.Clean.fresh (hclean : (Thread.handler h stage).Clean)
    (hs : stage.upserts = some (w, row)) : row.Fresh := by
  cases stage <;> cases hs <;> exact hclean

theorem Shared.Behind.of_eq (hb : σ'.Behind b)
    (hreg : σ'.registry.uidToWL b.1 = σ.registry.uidToWL b.1)
    (hrow : σ'.rows b.2 = σ.rows b.2) : σ.Behind b where
  bound := hreg ▸ hb.bound
  stale := hrow ▸ hb.stale

/-- What a step has to give: an instance that is behind after it is described by the goroutine,
or was behind and left to another one. -/
def Describes (σ : Shared) (t : Thread) (σ' : Shared) (t' : Thread) : Prop :=
  ∀ b, σ'.Behind b → t'.describes = some b ∨ σ.Behind b ∧ t.describes ≠ some b

theorem Describes.of_none (ht : t.describes = none)
    (h : ∀ b, σ'.Behind b → t'.describes = some b ∨ σ.Behind b) : Describes σ t σ' t' :=
  fun b hb => (h b hb).imp_right fun hold => ⟨hold, by simp [ht]⟩

theorem Describes.of_frame (hf : Frame σ σ') (ht : t.describes = none) : Describes σ t σ' t' :=
  .of_none ht fun _ hb => .inr (hb.of_eq (by rw [hf.uidToWL]) (by rw [hf.rows]))

/-- The row of one workload is written, and is fresh. -/
theorem Describes.of_fresh (hreg : σ'.registry.uidToWL = σ.registry.uidToWL)
    (hrow : ∀ x, x ≠ w → σ'.rows x = σ.rows x) (hfresh : σ'.rows w = some row) (hf : row.Fresh)
    (ht : ∀ b, t.describes = some b → b.2 = w) : Describes σ t σ' t' := by
  intro b hb
  have hne : b.2 ≠ w := by
    intro he
    exact hb.stale row (he ▸ hfresh) hf
  exact .inr ⟨hb.of_eq (by rw [hreg]) (hrow _ hne), fun hd => hne (ht b hd)⟩

theorem Workload.Fresh.upsertWorkload (hf : row.Fresh) (rows : Workloads) (w : String) :
    ∃ row', rows.upsertWorkload w row w = some row' ∧ row'.Fresh :=
  ⟨_, Function.update_self _ _ _, hf.status, hf.retentionUntil⟩

theorem describes_upsert (hs : stage.upserts = some (w, row))
    (hf : row.Fresh) (hok : ∀ w row, stage = .upserting w row → c.ok = true) :
    Describes σ (.handler h stage) (σ.upsertWorkload c.ok w row) t' := by
  unfold Shared.upsertWorkload
  split
  · obtain ⟨row', hrow', hf'⟩ := hf.upsertWorkload σ.rows w
    refine .of_fresh rfl (fun x hx => upsertWorkload_rows hx) hrow' hf' ?_
    intro b hb
    cases stage <;> cases hs <;> cases hb
    rfl
  · next hnot =>
    refine .of_frame (.refl σ) ?_
    cases stage <;> cases hs
    · exact absurd (hok w row rfl) hnot
    · rfl
    · rfl

theorem describes_accept :
    Describes σ (.handler h .accepted) (h.accept σ).1 (.handler h (h.accept σ).2) := by
  refine .of_none rfl fun b hb => ?_
  rcases h.accept_cases σ with ⟨desc, ins, -, he⟩ | ⟨-, he⟩
  · rw [he] at hb ⊢
    by_cases hu : b.1 = h.uid
    · left
      have hbound := hb.bound
      simp only [Registry.bindInstance, hu, Function.update_self] at hbound
      exact congrArg some (Prod.ext hu.symm (Option.some.inj hbound))
    · exact .inr (hb.of_eq (Function.update_of_ne hu _ _) rfl)
  · rw [he] at hb
    exact .inr hb

open Workloads

theorem describes_clear :
    Describes σ (.handler h (.clearing w))
      { σ with rows := clearWorkloadRetention σ.rows w } t' := by
  refine .of_none rfl fun b hb => .inr ⟨hb.bound, fun row hrow hf => ?_⟩
  by_cases hx : b.2 = w
  · subst hx
    refine hb.stale { row with retentionUntil := none } ?_ ⟨hf.status, rfl⟩
    simp [clearWorkloadRetention, hrow]
  · exact hb.stale row ((Function.update_of_ne hx _ _).trans hrow) hf

theorem describes_unbind (inv : Inv σ) {kind : Closing} {s : Session} :
    Describes σ (.closer kind s .unbinding) (σ.unbind s).1 t' := by
  refine .of_none rfl fun b hb => .inr ⟨?_, ?_⟩
  · have hbound := hb.bound
    dsimp only [Shared.unbind] at hbound
    split at hbound
    · exact hbound
    · dsimp only at hbound
      rw [(inv.unbindInstance _).1] at hbound
      by_cases hu : b.1 = (σ.info s).uid
      · rw [hu, Function.update_self] at hbound
        cases hbound
      · rwa [Function.update_of_ne hu] at hbound
  · have hstale := hb.stale
    dsimp only [Shared.unbind] at hstale
    split at hstale <;> exact hstale

theorem describes_mark (hcount : σ.registry.count w = 0) (deadline : Push.Time) :
    Describes σ (.graceMark w)
      { σ with rows := markWorkloadDisconnected σ.rows w deadline } t' := by
  refine .of_none rfl fun b hb => .inr ?_
  have hne : b.2 ≠ w := by
    rintro rfl
    have hpos := Registry.count_pos_iff.mpr ⟨b.1, hb.bound⟩
    exact hpos.ne' hcount
  exact hb.of_eq rfl (Function.update_of_ne hne _ _)

theorem describes_frame (hw : t.writes = false)
    (hm : resume σ t c = some (σ', t', new)) (ht : t.describes = some b) :
    t'.describes = some b := by
  cases t with
  | handler h stage =>
    cases stage with
    | describing w | aggregating w prev =>
      cases hm
      exact ht
    | cancelling w | upserting w row => cases hw
    | _ => cases ht
  | _ => cases ht

theorem describes_resume (inv : Inv σ) (hclean : t.Clean)
    (hup : ∀ h w row, t = .handler h (.upserting w row) → c.ok = true)
    (hmark : ∀ w, t = .graceMark w → σ.registry.count w = 0)
    (hm : resume σ t c = some (σ', t', new)) : Describes σ t σ' t' := by
  rcases resume_effect hm with ⟨hw, hf⟩ | hwrite
  · intro b hb
    by_cases ht : t.describes = some b
    · exact .inl (describes_frame hw hm ht)
    · exact .inr ⟨hb.of_eq (by rw [hf.uidToWL]) (by rw [hf.rows]), ht⟩
  cases hwrite with
  | accept h => exact describes_accept
  | cancel h w =>
    intro b hb
    by_cases hd : some (h.uid, w) = some b
    · exact .inl hd
    · exact .inr ⟨hb.of_eq rfl rfl, hd⟩
  | upsert h stage w row _ hs =>
    exact describes_upsert hs (hclean.fresh hs) fun w row he => hup h w row (he ▸ rfl)
  | clear h w =>
    split
    · exact describes_clear
    · exact .of_frame (.refl σ) rfl
  | unbind kind s => exact describes_unbind inv
  | schedule kind s w => exact .of_none rfl fun b hb => .inr (hb.of_eq rfl rfl)
  | mark w =>
    split
    · exact describes_mark (hmark w rfl) _
    · exact .of_frame (.refl σ) rfl

theorem getWorkload_eq_some {ok : Bool} (h : σ.getWorkload ok w = some row) :
    σ.rows w = some row := by
  unfold Shared.getWorkload at h
  split at h
  · exact h
  · cases h

theorem Thread.clean_of_holds (h : t.holds = none) : t.Clean := by
  cases t with
  | handler h' stage => cases stage <;> trivial
  | _ => trivial

theorem clean_hold {stage' : HandlerStage} (hok : Ok σ (.handler h stage))
    (hclean : (Thread.handler h stage).Clean)
    (hfresh : ∀ w row, stage.workload = some w → (Thread.handler h stage).describes = none →
      σ.rows w = some row → row.Fresh)
    (hold : Hold σ c h stage stage') : (Thread.handler h stage').Clean := by
  have halive : ∀ w, stage.workload = some w → σ.registry.aggregatedStatus w ≠ .disconnected := by
    intro w hw
    have hbound := hok.bound h.uid w (by simp [Thread.bound, hw])
    exact Registry.aggregatedStatus_ne_disconnected hbound
  cases hold with
  | describe w => trivial
  | draft w prev => exact ⟨halive w rfl, rfl⟩
  | refresh w row hrow => exact (hfresh w row rfl rfl (getWorkload_eq_some hrow)).retentionUntil
  | aggregate w row => exact ⟨halive w rfl, hclean⟩
  | report w snap row hrow =>
    have hf := hfresh w row rfl rfl (getWorkload_eq_some hrow)
    exact ⟨hf.status, hf.retentionUntil⟩

theorem clean_resume (hok : Ok σ t) (hclean : t.Clean)
    (hfresh : ∀ u w row, t.bound = some (u, w) → t.describes = none → σ.rows w = some row →
      row.Fresh)
    (hm : resume σ t c = some (σ', t', new)) : t'.Clean ∧ ∀ n ∈ new, n.Clean := by
  rcases resume_hold hm with ⟨hnone, hnew⟩ | ⟨h, stage, stage', rfl, rfl, rfl, rfl, hold⟩
  · exact ⟨Thread.clean_of_holds hnone, fun n hn => Thread.clean_of_holds (hnew n hn)⟩
  · refine ⟨clean_hold hok hclean (fun w row hw => ?_) hold, by simp⟩
    exact hfresh h.uid w row (by simp [Thread.bound, hw])

def Shared.deadline (σ : Shared) (w : String) : Option Push.Time :=
  (σ.rows w).bind Workload.retentionUntil

theorem deadline_of_rows (hrow : σ'.rows x = σ.rows x) : σ'.deadline x = σ.deadline x := by
  rw [Shared.deadline, Shared.deadline, hrow]

theorem deadline_upsert (ok : Bool) (hf : row.Fresh) :
    (σ.upsertWorkload ok w row).deadline x = σ.deadline x ∨
      (σ.upsertWorkload ok w row).deadline x = none := by
  unfold Shared.upsertWorkload
  split
  · by_cases hx : x = w
    · subst hx
      obtain ⟨row', hrow', hf'⟩ := hf.upsertWorkload σ.rows x
      right
      simp [Shared.deadline, hrow', hf'.retentionUntil]
    · exact .inl (deadline_of_rows (upsertWorkload_rows hx))
  · exact .inl rfl

theorem deadline_resume (hclean : t.Clean) (hm : resume σ t c = some (σ', t', new)) (x : String) :
    σ'.deadline x = σ.deadline x ∨ σ'.deadline x = none ∨ t = .graceMark x := by
  rcases resume_effect hm with ⟨-, hf⟩ | hwrite
  · exact .inl (deadline_of_rows (by rw [hf.rows]))
  cases hwrite with
  | accept h =>
    rcases h.accept_cases σ with ⟨desc, ins, -, he⟩ | ⟨-, he⟩
    · rw [he]
      exact .inl rfl
    · rw [he]
      exact .inl rfl
  | cancel | schedule => exact .inl rfl
  | upsert h stage w row _ hs =>
    exact (deadline_upsert c.ok (hclean.fresh hs)).imp_right .inl
  | clear h w =>
    split
    · by_cases hx : x = w
      · subst hx
        refine .inr (.inl ?_)
        cases hr : σ.rows x <;> simp [Shared.deadline, clearWorkloadRetention, hr]
      · exact .inl (deadline_of_rows (Function.update_of_ne hx _ _))
    · exact .inl rfl
  | unbind kind s =>
    refine .inl (deadline_of_rows ?_)
    dsimp only [Shared.unbind]
    split <;> rfl
  | mark w =>
    by_cases hx : x = w
    · exact .inr (.inr (hx ▸ rfl))
    · refine .inl (deadline_of_rows ?_)
      split
      · exact Function.update_of_ne hx _ _
      · rfl

/-- The rows of live workloads are fresh, or about to be written. -/
structure Refreshed (p : State) : Prop where
  owned : Owned p
  covered : Pool.Covered Shared.Behind Thread.describes p
  clean : ∀ t ∈ p.threads, t.Clean

/-- The upsert of a description succeeds, and a grace callback marks a workload only while it has
no instance. -/
def keepsFresh (p : State) : Action → Bool
  | .resume i c =>
    match p.threads[i]? with
    | some (.handler _ (.upserting _ _)) => c.ok
    | some (.graceMark w) => p.shared.registry.count w = 0
    | _ => true
  | .arrive _ => true

theorem Thread.bound_of_describes (hd : t.describes = some b) : t.bound = some b := by
  cases t with
  | handler h stage => cases stage <;> cases hd <;> rfl
  | _ => cases hd

/-- A workload has a fresh row when a handler works on one of its instances and is not the one
that describes it: the message gate keeps the two apart. -/
theorem Refreshed.fresh (hp : Refreshed p) {i : ℕ} (ht : p.threads[i]? = some t)
    (hb : t.bound = some (u, w)) (hd : t.describes = none) (hrow : p.shared.rows w = some row) :
    row.Fresh := by
  by_contra hstale
  have hbound := (hp.owned.thread t (List.mem_of_getElem? ht)).bound u w hb
  have hbehind : p.shared.Behind (u, w) := by
    refine ⟨hbound, fun row' hrow' => ?_⟩
    rw [hrow] at hrow'
    cases hrow'
    exact hstale
  obtain ⟨t', ht', hd'⟩ := hp.covered _ hbehind
  obtain ⟨j, hj⟩ := List.mem_iff_getElem?.mp ht'
  have hij : j ≠ i := by
    rintro rfl
    rw [ht] at hj
    cases hj
    rw [hd] at hd'
    cases hd'
  obtain ⟨s, hclaim, hgate⟩ := Thread.claim_of_bound hb
  obtain ⟨s', hclaim', hgate'⟩ := Thread.claim_of_bound (Thread.bound_of_describes hd')
  obtain ⟨huid, hne⟩ := (hp.owned.thread t (List.mem_of_getElem? ht)).claim s u hclaim
  obtain ⟨huid', -⟩ := (hp.owned.thread t' ht').claim s' u hclaim'
  have hss : s = s' := hp.owned.shared.uid_inj hne huid huid'
  exact (hp.owned.apart_of_ne (fun _ _ h => h.symm) hij ht hj).gate s hgate (hss ▸ hgate')

theorem behind_arrive {e : Event} (hm : arrive σ e = some (σ', new))
    (hb : σ'.Behind b) : σ.Behind b := by
  cases arrive_effect hm with
  | frame _ hf hconns hreg => exact hb.of_eq (by rw [hf.uidToWL]) (by rw [hf.rows])
  | fire | stop => exact hb.of_eq rfl rfl
  | janitor now =>
    refine ⟨hb.bound, fun row hrow hf => ?_⟩
    refine hb.stale (if row.archivedAt = none ∧ row.retentionUntil.any (· < now) = true then
      { row with archivedAt := some now } else row) ?_ ?_
    · simp only [archiveExpiredWorkloads, hrow, Option.map_some]
    · split
      · exact ⟨hf.status, hf.retentionUntil⟩
      · exact hf

theorem deadline_arrive {e : Event} (hm : arrive σ e = some (σ', new)) (x : String) :
    σ'.deadline x = σ.deadline x := by
  cases arrive_effect hm with
  | frame _ hf hconns hreg => exact deadline_of_rows (by rw [hf.rows])
  | fire | stop => rfl
  | janitor now =>
    cases hr : σ.rows x with
    | none => simp [Shared.deadline, archiveExpiredWorkloads, hr]
    | some row =>
      simp only [Shared.deadline, archiveExpiredWorkloads, hr, Option.map_some,
        Option.bind_some]
      split <;> rfl

theorem refreshed_step {p' : State} (hp : Refreshed p)
    (hkeep : keepsFresh p a = true) (hs : step p a = some p') : Refreshed p' := by
  have howned := program_keeps.step hp.owned hs
  cases a with
  | resume i c =>
    obtain ⟨t, σ', t', new, ht, hm, rfl⟩ := Pool.Program.step_resume_eq_some.mp hs
    simp only [keepsFresh, ht] at hkeep
    have hmem := List.mem_of_getElem? ht
    have hclean := hp.clean t hmem
    obtain ⟨hclean', hnew⟩ := clean_resume (hp.owned.thread t hmem) hclean
      (fun u w row hb hd hrow => hp.fresh ht hb hd hrow) hm
    refine ⟨howned, hp.covered.resume ht (describes_resume hp.owned.shared hclean ?_ ?_ hm), ?_⟩
    · rintro h w row rfl
      exact hkeep
    · rintro w rfl
      exact of_decide_eq_true hkeep
    · intro n hn
      rcases Pool.mem_set_append hn with ⟨j, -, hj⟩ | rfl | hn
      · exact hp.clean n (List.mem_of_getElem? hj)
      · exact hclean'
      · exact hnew n hn
  | arrive e =>
    obtain ⟨σ', new, hm, rfl⟩ := Pool.Program.step_arrive_eq_some.mp hs
    refine ⟨howned, hp.covered.arrive fun b hb => .inl (behind_arrive hm hb), ?_⟩
    intro n hn
    rcases List.mem_append.mp hn with hn | hn
    · exact hp.clean n hn
    · exact Thread.clean_of_holds (arrive_holds hm n (Option.mem_toList.mp hn))

theorem refreshed_initial (retention : Push.Time) (rows : Workloads) :
    Refreshed (initial retention rows) where
  owned := owned_initial retention rows
  covered _ hb := nomatch hb.bound
  clean _ ht := nomatch ht

/-- The workload whose deadline a grace callback stamps in the step. -/
def marks (p : State) : Action → Option String
  | .resume i c =>
    match p.threads[i]? with
    | some (.graceMark w) => if c.ok then some w else none
    | _ => none
  | .arrive _ => none

/-- A server that is watched: `liveSince w` is whether the workload has had a live instance ever
since before its deadline was set. -/
structure Watched where
  state : State
  liveSince : String → Bool

namespace Watched

def initial (retention : Push.Time) (rows : Workloads) : Watched where
  state := Server.initial retention rows
  liveSince := fun _ => false

def step (o : Watched) (a : Action) : Option Watched :=
  (Server.step o.state a).map fun p =>
    { state := p
      liveSince := fun w =>
        decide (0 < p.shared.registry.count w) &&
          if marks o.state a = some w ∨ p.shared.deadline w ≠ o.state.shared.deadline w then
            decide (0 < o.state.shared.registry.count w)
          else o.liveSince w }

/-- To watch a server changes nothing. -/
theorem state_run (o : Watched) (acts : List Action) :
    (run step o acts).map state = run Server.step o.state acts :=
  map_run (fun o a => by simp [step, Option.map_map, Function.comp_def]) o acts

end Watched

theorem count_eq_zero_of_set {p' : State} (hp : Refreshed p)
    (hkeep : keepsFresh p a = true) (hs : step p a = some p') (hd : p'.shared.deadline w ≠ none)
    (hset : marks p a = some w ∨ p'.shared.deadline w ≠ p.shared.deadline w) :
    p.shared.registry.count w = 0 := by
  cases a with
  | resume i c =>
    obtain ⟨t, σ', t', new, ht, hm, rfl⟩ := Pool.Program.step_resume_eq_some.mp hs
    simp only [keepsFresh, ht] at hkeep
    simp only [marks, ht] at hset
    have hmark : t = .graceMark w := by
      rcases hset with hset | hset
      · split at hset
        · next v he =>
          split at hset
          · cases hset
            exact Option.some.inj he
          · cases hset
        · cases hset
      · rcases deadline_resume (hp.clean t (List.mem_of_getElem? ht)) hm w with h | h | h
        · exact absurd h hset
        · exact absurd h hd
        · exact h
    subst hmark
    exact of_decide_eq_true hkeep
  | arrive e =>
    obtain ⟨σ', new, hm, rfl⟩ := Pool.Program.step_arrive_eq_some.mp hs
    rcases hset with hset | hset
    · cases hset
    · exact absurd (deadline_arrive hm w) hset

/-- A workload with a deadline has been without an instance since before it was set. -/
structure Watched.Sound (o : Watched) : Prop where
  refreshed : Refreshed o.state
  deadline : ∀ w, o.state.shared.deadline w ≠ none → o.liveSince w = false

theorem Watched.Sound.step {o o' : Watched} (ho : o.Sound)
    (hkeep : keepsFresh o.state a = true) (hs : o.step a = some o') : o'.Sound := by
  obtain ⟨p, hp, rfl⟩ := Option.map_eq_some_iff.mp hs
  refine ⟨refreshed_step ho.refreshed hkeep hp, fun w hd => ?_⟩
  dsimp only at hd ⊢
  rw [Bool.and_eq_false_iff]
  right
  split
  · next hset => simp [count_eq_zero_of_set ho.refreshed hkeep hp hd hset]
  · next hset =>
    have hsame : p.shared.deadline w = o.state.shared.deadline w :=
      not_not.mp fun h => hset (.inr h)
    exact ho.deadline w (hsame ▸ hd)

theorem Watched.Sound.initial (retention : Push.Time) (rows : Workloads) :
    (Watched.initial retention rows).Sound :=
  ⟨refreshed_initial retention rows, fun _ _ => rfl⟩

theorem Thread.describes_eq_none (h : t.inProgress = false) : t.describes = none := by
  cases t with
  | handler h' stage => cases h
  | _ => rfl

/-- A workload that the janitor archives had a deadline. -/
theorem deadline_of_archived {now : Push.Time} {row' : Workload} (hrow : σ.rows w = some row)
    (hopen : row.archivedAt = none)
    (hrow' : archiveExpiredWorkloads σ.rows now w = some row')
    (harch : row'.archivedAt ≠ none) : σ.deadline w ≠ none := by
  intro hnone
  have hret : row.retentionUntil = none := by
    simpa [Shared.deadline, hrow] using hnone
  simp only [archiveExpiredWorkloads, hrow, hret, Option.map_some, Option.any_none,
    Bool.false_eq_true, and_false, if_false] at hrow'
  cases hrow'
  exact harch hopen

theorem live_workloads_not_disconnected {retention : Push.Time} {rows : Workloads}
    {acts : List Action} {o : Watched}
    (hkeep : Meets Watched.step (fun o a => keepsFresh o.state a = true)
      (Watched.initial retention rows) acts)
    (hrun : run Watched.step (Watched.initial retention rows) acts = some o) :
    ((∀ t ∈ o.state.threads, t.inProgress = false) →
      ∀ w, 0 < o.state.shared.registry.count w →
        ∃ row, o.state.shared.rows w = some row ∧ row.status ≠ .disconnected ∧
          row.retentionUntil = none) ∧
    ∀ now p, step o.state (.arrive (.janitor now)) = some p →
      ∀ w row row', o.state.shared.rows w = some row → row.archivedAt = none →
        p.shared.rows w = some row' → row'.archivedAt ≠ none → o.liveSince w = false := by
  have ho : o.Sound := run_invariant_of_meets (fun _ _ _ ho hk hs => ho.step hk hs)
    (.initial retention rows) hkeep hrun
  refine ⟨fun hidle w hlive => ?_, ?_⟩
  · obtain ⟨u, hu⟩ := Registry.count_pos_iff.mp hlive
    by_contra hnot
    have hbehind : o.state.shared.Behind (u, w) :=
      ⟨hu, fun row hrow hf => hnot ⟨row, hrow, hf.status, hf.retentionUntil⟩⟩
    obtain ⟨t, ht, hduty⟩ := ho.refreshed.covered _ hbehind
    rw [Thread.describes_eq_none (hidle t ht)] at hduty
    cases hduty
  · intro now p hp w row row' hrow hopen hrow' harch
    cases hp
    exact ho.deadline w (deadline_of_archived hrow hopen hrow' harch)

/-- An instance leaves, its grace timer fires, and the callback has checked the registry. -/
def firedRun : List Action :=
  closedInstanceRun ++ [.arrive (.fire (hash24 "host||n1") 1), advance 0 2]

/-- The callback marks the workload, and only then the instance comes back. -/
def reconnectedRun : List Action :=
  let b : Session := ⟨1, "t", none⟩
  firedRun ++ [advance 10 2, .arrive (.connect b 10),
    .arrive (.message b (describedFrom "n1") true)] ++ List.replicate 19 (advance 10 3)

theorem live_workloads_not_disconnected_reconnected :
    ∃ o row, run Watched.step (Watched.initial 5 fun _ => none) reconnectedRun = some o ∧
      0 < o.state.shared.registry.count (hash24 "host||n1") ∧
      o.state.shared.rows (hash24 "host||n1") = some row ∧ row.status ≠ .disconnected ∧
      row.retentionUntil = none := by
  obtain ⟨o, ho, hidle, hlive⟩ : ∃ o,
      run Watched.step (Watched.initial 5 fun _ => none) reconnectedRun = some o ∧
        (∀ t ∈ o.state.threads, t.inProgress = false) ∧
        0 < o.state.shared.registry.count (hash24 "host||n1") := by
    decide +kernel
  obtain ⟨row, hrow, hfresh⟩ :=
    (live_workloads_not_disconnected (by decide +kernel) ho).1 hidle _ hlive
  exact ⟨o, row, ho, hlive, hrow, hfresh⟩

/-- The instance comes back after the check of the callback and before its write. -/
def markedLiveRun : List Action :=
  let b : Session := ⟨1, "t", none⟩
  firedRun ++ [.arrive (.connect b 10), .arrive (.message b (describedFrom "n1") true)] ++
    List.replicate 19 (advance 10 3) ++ [advance 10 2]

/-- The live workload stays disconnected with a deadline, and the janitor archives it. -/
theorem grace_callback_marks_live_workload :
    ∃ o p row row', run Watched.step (Watched.initial 5 fun _ => none) markedLiveRun = some o ∧
      (∀ t ∈ o.state.threads, t.inProgress = false) ∧
      0 < o.state.shared.registry.count (hash24 "host||n1") ∧
      o.state.shared.rows (hash24 "host||n1") = some row ∧ row.status = .disconnected ∧
      row.retentionUntil = some 15 ∧ row.archivedAt = none ∧
      o.liveSince (hash24 "host||n1") = true ∧
      step o.state (.arrive (.janitor 20)) = some p ∧
      p.shared.rows (hash24 "host||n1") = some row' ∧ row'.archivedAt = some 20 := by
  refine (exists_congr fun o => exists_comm).mp ?_
  simp only [exists_and_left]
  decide +kernel

end OtelMagnify.Server
