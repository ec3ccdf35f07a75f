import OtelMagnify.Server.Frame
import OtelMagnify.Server.Reachable

/-! Stored liveness: a row that says connected or degraded has a live instance, a pending grace
timer, or a goroutine that is about to settle it. A description that moves the last instance of a
workload to another one breaks this. -/
namespace OtelMagnify.Server
open Push Token StepSystem

/-- The row of the workload shows it alive, and nothing will correct that. -/
structure Shared.Stale (σ : Shared) (w : String) : Prop where
  running : σ.stopping = false
  alive : ∃ row, σ.rows w = some row ∧ row.status ≠ .disconnected
  unbound : ∀ u, σ.registry.uidToWL u ≠ some w
  unarmed : σ.grace.timers w = none

/-- The workload that a release or a grace callback is about to settle. -/
def Thread.settles : Thread → Option String
  | closer _ _ (.counting w) => some w
  | closer _ _ (.scheduling w) => some w
  | graceCheck w => some w
  | graceMark w => some w
  | _ => none

variable {σ σ' : Shared} {t t' : Thread} {new : Option Thread} {c : Choice} {h : Handler}
  {w x : String}

theorem Shared.Stale.of_eq (hst : σ'.Stale x) (hstop : σ'.stopping = σ.stopping)
    (hrow : σ'.rows x = σ.rows x) (hreg : σ'.registry.uidToWL = σ.registry.uidToWL)
    (htimer : σ'.grace.timers x = σ.grace.timers x) : σ.Stale x where
  running := hstop ▸ hst.running
  alive := hrow ▸ hst.alive
  unbound := hreg ▸ hst.unbound
  unarmed := htimer ▸ hst.unarmed

theorem Shared.Stale.of_frame (hst : σ'.Stale x) (hf : Frame σ σ') : σ.Stale x :=
  hst.of_eq hf.stopping (by rw [hf.rows]) hf.uidToWL (by rw [hf.grace])

theorem Shared.Stale.count_eq_zero (hst : σ.Stale x) : σ.registry.count x = 0 := by
  by_contra hne
  obtain ⟨u, hu⟩ := Registry.count_pos_iff.mp (Nat.pos_of_ne_zero hne)
  exact hst.unbound u hu

/-- What a step has to give: a workload that is stale after it is settled by the goroutine, or
was stale and left to another one. -/
def Settles (σ : Shared) (t : Thread) (σ' : Shared) (t' : Thread) : Prop :=
  ∀ x, σ'.Stale x → t'.settles = some x ∨ σ.Stale x ∧ t.settles ≠ some x

theorem Settles.of_none (ht : t.settles = none)
    (h : ∀ x, σ'.Stale x → t'.settles = some x ∨ σ.Stale x) : Settles σ t σ' t' :=
  fun x hx => (h x hx).imp_right fun hold => ⟨hold, by simp [ht]⟩

theorem Settles.of_frame (hf : Frame σ σ') (ht : t.settles = none) : Settles σ t σ' t' :=
  .of_none ht fun _ hx => .inr (hx.of_frame hf)

/-- A handler writes the row and cancels the timer of the workload its instance is bound to. -/
theorem Settles.of_bound {stage : HandlerStage} (hok : Ok σ (.handler h stage))
    (hw : stage.workload = some w) (hstop : σ'.stopping = σ.stopping)
    (hrow : ∀ x, x ≠ w → σ'.rows x = σ.rows x)
    (hreg : σ'.registry.uidToWL = σ.registry.uidToWL)
    (htimer : ∀ x, x ≠ w → σ'.grace.timers x = σ.grace.timers x) :
    Settles σ (.handler h stage) σ' t' := by
  refine .of_none rfl fun x hx => .inr ?_
  have hbound : σ.registry.uidToWL h.uid = some w := hok.bound _ _ (by simp [Thread.bound, hw])
  have hne : x ≠ w := by
    rintro rfl
    exact hx.unbound h.uid (hreg ▸ hbound)
  exact hx.of_eq hstop (hrow x hne) hreg (htimer x hne)

/-- The description moves the last instance of a workload to another workload. -/
def Handler.leavesEmpty (h : Handler) (σ : Shared) : Bool :=
  match h.msg.agentDescription, σ.registry.lookupWorkload h.uid with
  | some desc, some old =>
    old ≠ (fingerprint desc.attrs h.uid).id &&
      (σ.registry.instances old).all (·.instanceUID = h.uid)
  | _, _ => false

theorem settles_accept (hkeep : h.leavesEmpty σ = false) :
    Settles σ (.handler h .accepted) (h.accept σ).1 t' := by
  refine .of_none rfl fun x hx => .inr ?_
  rcases h.accept_cases σ with ⟨desc, ins, hdesc, he⟩ | ⟨-, he⟩
  · rw [he] at hx
    refine ⟨hx.running, hx.alive, ?_, hx.unarmed⟩
    intro u hu
    have hmoved := hx.unbound u
    by_cases huid : u = h.uid
    · -- the instance leaves `x`, where the guard promises another one
      subst huid
      have hxw : x ≠ (fingerprint desc.attrs h.uid).id := by
        intro he
        exact hmoved (he ▸ Function.update_self _ _ _)
      simp only [Handler.leavesEmpty, hdesc, Registry.lookupWorkload, hu, hxw, ne_eq,
        not_false_eq_true, decide_true, Bool.true_and, List.all_eq_false,
        decide_eq_true_eq] at hkeep
      obtain ⟨i, hi, hne⟩ := hkeep
      refine hx.unbound i.instanceUID ((Function.update_of_ne hne _ _).trans ?_)
      exact (σ.registry.uidToWL_eq_some _ _).mpr ⟨i, hi, rfl⟩
    · exact hmoved ((Function.update_of_ne huid _ _).trans hu)
  · exact he ▸ hx

theorem HandlerStage.workload_of_upserts {stage : HandlerStage} {row : Workload}
    (hs : stage.upserts = some (w, row)) : stage.workload = some w := by
  cases stage <;> cases hs <;> rfl

theorem upsertWorkload_rows {rows : Workloads} {row : Workload} (hx : x ≠ w) :
    rows.upsertWorkload w row x = rows x :=
  Function.update_of_ne hx _ _

/-- A release leaves the workload of its instance to be counted. -/
theorem settles_unbind (inv : Inv σ) {kind : Closing} {s : Session} :
    Settles σ (.closer kind s .unbinding) (σ.unbind s).1 (.closer kind s (σ.unbind s).2) := by
  refine .of_none rfl fun x hx => ?_
  dsimp only [Shared.unbind] at hx ⊢
  split at hx
  · next hcond =>
    rw [if_pos hcond]
    exact .inr ⟨hx.running, hx.alive, hx.unbound, hx.unarmed⟩
  · next hcond =>
    rw [if_neg hcond]
    obtain ⟨hreg, hleft⟩ := inv.unbindInstance (σ.info s).uid
    by_cases hux : σ.registry.uidToWL (σ.info s).uid = some x
    · left
      have hne : x ≠ "" := (inv.bound _ _ hux).1
      simp [hleft, hux, hne, Thread.settles]
    · refine .inr ⟨hx.running, hx.alive, fun u hu => ?_, hx.unarmed⟩
      have hne : u ≠ (σ.info s).uid := by
        rintro rfl
        exact hux hu
      refine hx.unbound u ?_
      dsimp only
      rw [hreg, Function.update_of_ne hne, hu]

theorem settles_schedule (hstopped : σ.grace.stopped = true → σ.stopping = true)
    {kind : Closing} {s : Session} :
    Settles σ (.closer kind s (.scheduling w)) { σ with grace := σ.grace.schedule w } t' := by
  intro x hx
  have hrun : σ.grace.stopped ≠ true := fun hs => by
    have hrunning : σ.stopping = false := hx.running
    rw [hstopped hs] at hrunning
    cases hrunning
  have harm := hx.unarmed
  have hxw : x ≠ w := by
    rintro rfl
    simp [Grace.schedule, hrun] at harm
  refine .inr ⟨hx.of_eq rfl rfl rfl ?_, fun he => hxw (Option.some.inj he).symm⟩
  simp [Grace.schedule, hrun, hxw]

theorem settles_mark (deadline : Push.Time) :
    Settles σ (.graceMark w)
      { σ with rows := Workloads.markWorkloadDisconnected σ.rows w deadline } t' := by
  intro x hx
  have hxw : x ≠ w := by
    rintro rfl
    obtain ⟨row, hrow, halive⟩ := hx.alive
    simp only [Workloads.markWorkloadDisconnected, Function.update_self,
      Option.map_eq_some_iff] at hrow
    obtain ⟨old, -, rfl⟩ := hrow
    exact halive rfl
  exact .inr ⟨hx.of_eq rfl (Function.update_of_ne hxw _ _) rfl rfl,
    fun he => hxw (Option.some.inj he).symm⟩

theorem settles_frame (hw : t.writes = false) (hst : σ.Stale x)
    (hm : resume σ t c = some (σ', t', new)) (ht : t.settles = some x) : t'.settles = some x := by
  cases t with
  | closer kind s stage =>
    cases stage with
    | counting w =>
      cases ht
      cases hm
      simp [hst.count_eq_zero, Thread.settles]
    | scheduling w => cases hw
    | _ => cases ht
  | graceCheck w =>
    cases ht
    cases hm
    simp [hst.count_eq_zero, Thread.settles]
  | graceMark w => cases hw
  | _ => cases ht

/-- A step of the server keeps every workload settled, unless it moves the last instance of a
workload away or fails to mark one. -/
theorem settles_resume (inv : Inv σ) (hok : Ok σ t)
    (hstopped : σ.grace.stopped = true → σ.stopping = true)
    (hkeep : ∀ h, t = .handler h .accepted → h.leavesEmpty σ = false)
    (hmark : ∀ w, t = .graceMark w → c.ok = true)
    (hm : resume σ t c = some (σ', t', new)) : Settles σ t σ' t' := by
  rcases resume_effect hm with ⟨hw, hf⟩ | hwrite
  · intro x hx
    have hst := hx.of_frame hf
    by_cases ht : t.settles = some x
    · exact .inl (settles_frame hw hst hm ht)
    · exact .inr ⟨hst, ht⟩
  cases hwrite with
  | accept h => exact settles_accept (hkeep h rfl)
  | cancel h w =>
    exact .of_bound hok rfl rfl (fun _ _ => rfl) rfl fun x hx => Function.update_of_ne hx _ _
  | upsert h stage w row _ hs =>
    unfold Shared.upsertWorkload
    split
    · exact .of_bound hok (HandlerStage.workload_of_upserts hs) rfl
        (fun x hx => upsertWorkload_rows hx) rfl fun _ _ => rfl
    · exact .of_frame (.refl σ) rfl
  | clear h w =>
    split
    · exact .of_bound hok rfl rfl (fun x hx => Function.update_of_ne hx _ _) rfl fun _ _ => rfl
    · exact .of_frame (.refl σ) rfl
  | unbind kind s => exact settles_unbind inv
  | schedule kind s w => exact settles_schedule hstopped
  | mark w =>
    rw [hmark w rfl, if_pos rfl]
    exact settles_mark _

theorem settles_arrive {e : Event} (hm : arrive σ e = some (σ', new)) (hx : σ'.Stale x) :
    σ.Stale x ∨ ∃ n ∈ new, n.settles = some x := by
  cases arrive_effect hm with
  | frame _ hf hconns hreg => exact .inl (hx.of_frame hf)
  | fire w =>
    by_cases hxw : x = w
    · subst hxw
      exact .inr ⟨.graceCheck x, rfl, rfl⟩
    · exact .inl (hx.of_eq rfl rfl rfl (Function.update_of_ne hxw _ _))
  | janitor now =>
    refine .inl ⟨hx.running, ?_, hx.unbound, hx.unarmed⟩
    obtain ⟨row, hrow, halive⟩ := hx.alive
    obtain ⟨old, hold, rfl⟩ := Option.map_eq_some_iff.mp hrow
    refine ⟨old, hold, fun he => halive ?_⟩
    split <;> exact he
  | stop => cases hx.running

/-- The timers are stopped only with the server. -/
def Shared.StopsWithServer (σ : Shared) : Prop := σ.grace.stopped = true → σ.stopping = true

theorem Shared.StopsWithServer.resume (hs : σ.StopsWithServer)
    (hm : resume σ t c = some (σ', t', new)) : σ'.StopsWithServer := by
  rcases resume_effect hm with ⟨-, hf⟩ | hwrite
  · rw [StopsWithServer, hf.grace, hf.stopping]
    exact hs
  cases hwrite with
  | accept h =>
    rcases h.accept_cases σ with ⟨desc, ins, -, he⟩ | ⟨-, he⟩
    · rw [he]
      exact hs
    · rw [he]
      exact hs
  | cancel => exact hs
  | upsert h stage w row _ _ =>
    unfold Shared.upsertWorkload
    split <;> exact hs
  | clear | mark => split <;> exact hs
  | unbind kind s =>
    unfold Shared.unbind
    dsimp only
    split <;> exact hs
  | schedule kind s w =>
    unfold Grace.schedule
    split <;> exact hs

theorem Shared.StopsWithServer.arrive (hs : σ.StopsWithServer) {e : Event}
    (hm : arrive σ e = some (σ', new)) : σ'.StopsWithServer := by
  cases arrive_effect hm with
  | frame _ hf hconns hreg =>
    rw [StopsWithServer, hf.grace, hf.stopping]
    exact hs
  | fire | janitor => exact hs
  | stop => exact fun _ => rfl

/-- Every row that shows a workload alive is right, or is about to be corrected. -/
structure Settled (p : State) : Prop where
  owned : Owned p
  stopped : p.shared.StopsWithServer
  covered : Pool.Covered Shared.Stale Thread.settles p

/-- The step moves no last instance of a workload to another workload, and a grace callback that
marks a workload succeeds. -/
def keepsSettled (p : State) : Action → Bool
  | .resume i c =>
    match p.threads[i]? with
    | some (.handler h .accepted) => !h.leavesEmpty p.shared
    | some (.graceMark _) => c.ok
    | _ => true
  | .arrive _ => true

theorem settled_step {p p' : State} {a : Action} (hp : Settled p) (hkeep : keepsSettled p a = true)
    (hs : step p a = some p') : Settled p' := by
  have howned := program_keeps.step hp.owned hs
  cases a with
  | resume i c =>
    obtain ⟨t, σ', t', new, ht, hm, rfl⟩ := Pool.Program.step_resume_eq_some.mp hs
    simp only [keepsSettled, ht] at hkeep
    refine ⟨howned, hp.stopped.resume hm, hp.covered.resume ht ?_⟩
    refine settles_resume hp.owned.shared (hp.owned.thread t (List.mem_of_getElem? ht)) hp.stopped
      ?_ ?_ hm
    · rintro h rfl
      simpa using hkeep
    · rintro w rfl
      exact hkeep
  | arrive e =>
    obtain ⟨σ', new, hm, rfl⟩ := Pool.Program.step_arrive_eq_some.mp hs
    exact ⟨howned, hp.stopped.arrive hm, hp.covered.arrive fun x hx => settles_arrive hm hx⟩

theorem settled_initial (retention : Push.Time) {rows : Workloads}
    (hrows : ∀ w row, rows w = some row → row.status = .disconnected) :
    Settled (initial retention rows) where
  owned := owned_initial retention rows
  stopped h := nomatch h
  covered x hx := by
    obtain ⟨row, hrow, halive⟩ := hx.alive
    exact absurd (hrows x row hrow) halive

namespace Thread

/-- A message handler, a session release or a grace callback that has not finished. -/
def inProgress : Thread → Bool
  | arriving _ _ _ | handler _ _ | closer _ _ _ | graceCheck _ | graceMark _ => true
  | _ => false

theorem settles_eq_none (h : t.inProgress = false) : t.settles = none := by
  cases t <;> first | rfl | cases h

end Thread

theorem no_stale_liveness {retention : Push.Time} {rows : Workloads} {acts : List Action}
    {p : State} (hrows : ∀ w row, rows w = some row → row.status = .disconnected)
    (hkeep : Meets step (fun p a => keepsSettled p a = true) (initial retention rows) acts)
    (hrun : run step (initial retention rows) acts = some p)
    (hidle : ∀ t ∈ p.threads, t.inProgress = false) (hstop : p.shared.stopping = false)
    (w : String) (row : Workload) (hrow : p.shared.rows w = some row)
    (halive : row.status = .connected ∨ row.status = .degraded) :
    0 < p.shared.registry.count w ∨ p.shared.grace.timers w ≠ none := by
  have hp : Settled p := run_invariant_of_meets (fun _ _ _ hp hk hs => settled_step hp hk hs)
    (settled_initial retention hrows) hkeep hrun
  by_contra hnot
  obtain ⟨hcount, htimer⟩ := not_or.mp hnot
  have hstale : p.shared.Stale w :=
    { running := hstop
      alive := ⟨row, hrow, by rcases halive with h | h <;> rw [h] <;> decide⟩
      unbound := fun u hu => hcount (Registry.count_pos_iff.mpr ⟨u, hu⟩)
      unarmed := not_not.mp htimer }
  obtain ⟨t, ht, hduty⟩ := hp.covered w hstale
  rw [Thread.settles_eq_none (hidle t ht)] at hduty
  cases hduty

/-- A description of the instance whose bytes are all `7`. -/
def describedFrom (host : String) : AgentMessage where
  instanceUid := List.replicate 16 7
  agentDescription := some ⟨[("host.name", host)], []⟩
  capabilities := 2

/-- A step at the given time, with a store and a transport that work. -/
def advance (now : Push.Time) (i : ℕ) : Action := .resume i ⟨now, true, true, .delivered⟩

def closedInstanceRun : List Action :=
  let a : Session := ⟨0, "t", none⟩
  [.arrive (.connect a 0), .arrive (.message a (describedFrom "n1") true)] ++
    List.replicate 19 (advance 0 0) ++ [.arrive (.close a)] ++ List.replicate 3 (advance 0 1) ++
    [.arrive (.tokens (.finishRemove a))] ++ List.replicate 8 (advance 0 1)

theorem no_stale_liveness_closed :
    ∃ p, run step (initial 0 fun _ => none) closedInstanceRun = some p ∧
      p.shared.registry.count (hash24 "host||n1") = 0 ∧
      (0 < p.shared.registry.count (hash24 "host||n1") ∨
        p.shared.grace.timers (hash24 "host||n1") ≠ none) := by
  obtain ⟨p, hp, hidle, hstop, hcount, row, hrow, hstatus⟩ :
      ∃ p, run step (initial 0 fun _ => none) closedInstanceRun = some p ∧
        (∀ t ∈ p.threads, t.inProgress = false) ∧ p.shared.stopping = false ∧
        p.shared.registry.count (hash24 "host||n1") = 0 ∧
        ∃ row, p.shared.rows (hash24 "host||n1") = some row ∧ row.status = .connected := by
    decide +kernel
  have hnone : ∀ w row, (fun _ => none : Workloads) w = some row → row.status = .disconnected :=
    fun _ _ h => nomatch h
  exact ⟨p, hp, hcount, no_stale_liveness hnone (by decide +kernel) hp hidle hstop _ row hrow
    (.inl hstatus)⟩

def movedInstanceRun : List Action :=
  let a : Session := ⟨0, "t", none⟩
  [.arrive (.connect a 0), .arrive (.message a (describedFrom "n1") true)] ++
    List.replicate 19 (advance 0 0) ++ [.arrive (.message a (describedFrom "n2") true)] ++
    List.replicate 17 (advance 0 1)

theorem movedInstanceRun_ok (i : ℕ) (c : Choice) (h : .resume i c ∈ movedInstanceRun) :
    c.ok = true := by
  simp only [movedInstanceRun, advance, List.mem_append, List.mem_cons, List.mem_replicate,
    Pool.Label.resume.injEq, reduceCtorEq, List.not_mem_nil] at h
  rcases h with ((h | h) | h) | h <;> simp_all

/-- The workload of the first host stays connected for good, without instance and timer. -/
theorem moved_instance_leaves_stale_row :
    (∀ i c, .resume i c ∈ movedInstanceRun → c.ok = true) ∧
    ∃ p row, run step (initial 0 fun _ => none) movedInstanceRun = some p ∧
      (∀ t ∈ p.threads, t.inProgress = false) ∧ p.shared.stopping = false ∧
      p.shared.rows (hash24 "host||n1") = some row ∧ row.status = .connected ∧
      p.shared.registry.count (hash24 "host||n1") = 0 ∧
      p.shared.grace.timers (hash24 "host||n1") = none := by
  refine ⟨movedInstanceRun_ok, ?_⟩
  simp only [exists_and_left]
  decide +kernel

end OtelMagnify.Server
