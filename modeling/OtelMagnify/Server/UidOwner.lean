import OtelMagnify.Server.Frame
import OtelMagnify.Server.Reachable

/-! Instance uids: the session in `conns` is the only one that binds and unbinds a uid. -/
namespace OtelMagnify.Server
open Push Token StepSystem

structure Registry.SameAt (r r' : Registry) (u : String) : Prop where
  lookupWorkload : r'.lookupWorkload u = r.lookupWorkload u
  instances : ∀ w i, i.instanceUID = u → (i ∈ r'.instances w ↔ i ∈ r.instances w)

theorem Registry.SameAt.refl (r : Registry) (u : String) : r.SameAt r u :=
  ⟨rfl, fun _ _ _ => .rfl⟩

theorem Registry.sameAt_unbindInstance (r : Registry) {u uid : String} (h : u ≠ uid) :
    r.SameAt (r.unbindInstance uid).1 u := by
  unfold unbindInstance
  split
  · exact .refl r u
  split
  · exact .refl r u
  refine ⟨Function.update_of_ne h _ _, ?_⟩
  rintro w i rfl
  simp only [Registry.instances, remove]
  split
  · simp [without, h]
  · rfl

def closing (p : State) : Action → Option Session
  | .resume i _ => p.threads[i]?.bind Thread.closes
  | .arrive (.close s) => some s
  | .arrive (.onDisabled _ s) => some s
  | .arrive _ => none

/-- The session whose release takes its locked section in the step. -/
def releasing (p : State) : Action → Option Session
  | .resume i _ =>
    match p.threads[i]? with
    | some (.closer _ s .unbinding) => some s
    | _ => none
  | .arrive _ => none

/-- The session and the uid for which the step calls `BindInstance`. -/
def binding (p : State) : Action → Option (Session × String)
  | .resume i _ =>
    match p.threads[i]? with
    | some (.handler h .accepted) => h.msg.agentDescription.map fun _ => (h.session, h.uid)
    | _ => none
  | .arrive _ => none

theorem releasing_eq_some {p : State} {a : Action} {s : Session} (h : releasing p a = some s) :
    ∃ i c kind, a = .resume i c ∧ p.threads[i]? = some (.closer kind s .unbinding) := by
  cases a with
  | resume i c =>
    simp only [releasing] at h
    split at h
    · next kind s' ht =>
      cases h
      exact ⟨i, c, kind, rfl, ht⟩
    · cases h
  | arrive e => cases h

theorem binding_eq_some {p : State} {a : Action} {s : Session} {u : String} :
    binding p a = some (s, u) ↔
      ∃ i c h, a = .resume i c ∧ p.threads[i]? = some (.handler h .accepted) ∧
        h.msg.agentDescription.isSome = true ∧ h.session = s ∧ h.uid = u := by
  constructor
  · intro hb
    cases a with
    | resume i c =>
      simp only [binding] at hb
      split at hb
      · next h ht =>
        obtain ⟨desc, hdesc, hsu⟩ := Option.map_eq_some_iff.mp hb
        cases hsu
        exact ⟨i, c, h, rfl, ht, by rw [hdesc]; rfl, rfl, rfl⟩
      · cases hb
    | arrive e => cases hb
  · rintro ⟨i, c, h, rfl, ht, hdesc, rfl, rfl⟩
    obtain ⟨desc, hdesc⟩ := Option.isSome_iff_exists.mp hdesc
    simp [binding, ht, hdesc]

variable {σ σ' : Shared} {t' : Thread} {new : Option Thread} {c : Choice} {kind : Closing}
  {s : Session} {h : Handler} {u : String}

/-- What the release of the owner of a uid does. -/
theorem unbind_owner (inv : Inv σ) (hu : σ.conns u = some s) :
    (σ.unbind s).1.conns u = none ∧ (σ.unbind s).1.registry.lookupWorkload u = none := by
  obtain ⟨hne, rfl⟩ := (inv.conns u s).mp hu
  have hcond : ¬ ((σ.info s).uid = "" ∨ σ.conns (σ.info s).uid ≠ some s) := by
    rintro (h | h)
    · exact hne h
    · exact h hu
  have hreg := (inv.unbindInstance (σ.info s).uid).1
  simp only [Shared.unbind, if_neg hcond, Registry.lookupWorkload, hreg, Function.update_self,
    and_self]

theorem unbind_other (hu : σ.conns u ≠ some s) :
    (σ.unbind s).1.conns u = σ.conns u ∧ σ.registry.SameAt (σ.unbind s).1.registry u := by
  dsimp only [Shared.unbind]
  split
  · exact ⟨rfl, .refl _ _⟩
  · next hcond =>
    have hne : u ≠ (σ.info s).uid := by
      rintro rfl
      exact hcond (.inr hu)
    exact ⟨Function.update_of_ne hne _ _, Registry.sameAt_unbindInstance _ hne⟩

theorem closer_other {stage : CloserStage} (hu : σ.conns u ≠ some s)
    (hm : resumeCloser σ kind s stage c = some (σ', t', new)) :
    σ'.conns u = σ.conns u ∧ σ.registry.SameAt σ'.registry u := by
  by_cases hw : stage.writes = false
  · obtain ⟨-, hconns, hreg⟩ := resumeCloser_frame hw hm
    rw [hconns, hreg]
    exact ⟨rfl, .refl _ _⟩
  cases stage with
  | unbinding =>
    cases hm
    exact unbind_other hu
  | scheduling w =>
    cases hm
    exact ⟨rfl, .refl _ _⟩
  | _ => exact absurd rfl hw

theorem closing_other {p p' : State} {a : Action} (hs : step p a = some p')
    (hc : closing p a = some s) (hu : p.shared.conns u ≠ some s) :
    p'.shared.conns u = p.shared.conns u ∧
      p.shared.registry.SameAt p'.shared.registry u := by
  cases a with
  | resume i c =>
    obtain ⟨t, σ', t', new, ht, hm, rfl⟩ := Pool.Program.step_resume_eq_some.mp hs
    simp only [closing, ht, Option.bind_some] at hc
    cases t with
    | closer kind s' stage =>
      cases hc
      exact closer_other hu hm
    | _ => cases hc
  | arrive e =>
    obtain ⟨σ', new, hm, rfl⟩ := Pool.Program.step_arrive_eq_some.mp hs
    obtain ⟨hconns, hreg⟩ := arrive_registry hm
    rw [hconns, hreg]
    exact ⟨rfl, .refl _ _⟩

theorem accept_owner (inv : Inv σ) (hok : Ok σ (.handler h .accepted))
    (hd : h.msg.agentDescription.isSome = true) :
    (σ.info h.session).releaseOnce = .idle ∧ h.session ∉ σ.released ∧
      (h.accept σ).1.conns h.uid = some h.session ∧
      (h.accept σ).1.binder h.uid = some h.session := by
  obtain ⟨huid, hne⟩ := hok.claimed_uid rfl
  refine ⟨?_, fun hrel => hok.not_quiet (inv.released _ hrel).1, ?_⟩
  · by_contra hbegun
    exact hok.not_quiet (inv.begun _ hbegun)
  · rcases h.accept_cases σ with ⟨desc, ins, -, he⟩ | ⟨hnone, -⟩
    · rw [he]
      exact ⟨(inv.conns _ _).mpr ⟨hne, huid⟩, Function.update_self _ _ _⟩
    · rw [hnone] at hd
      cases hd

theorem bound_of_resume {t : Thread} (inv : Inv σ) {w : String}
    (hm : resume σ t c = some (σ', t', new)) (hw : σ'.registry.lookupWorkload u = some w) :
    σ.registry.lookupWorkload u = some w ∨
      ∃ h, t = .handler h .accepted ∧ h.msg.agentDescription.isSome = true ∧ h.uid = u := by
  rcases resume_effect hm with ⟨-, hf⟩ | hwrite
  · rw [Registry.lookupWorkload, hf.uidToWL] at hw
    exact .inl hw
  cases hwrite with
  | accept h =>
    rcases h.accept_cases σ with ⟨desc, ins, hdesc, he⟩ | ⟨-, he⟩
    · rw [he] at hw
      by_cases hu : u = h.uid
      · exact .inr ⟨h, rfl, by simp [hdesc], hu.symm⟩
      · exact .inl ((Function.update_of_ne hu _ _).symm.trans hw)
    · rw [he] at hw
      exact .inl hw
  | cancel | schedule => exact .inl hw
  | upsert h stage v row _ hs =>
    unfold Shared.upsertWorkload at hw
    split at hw <;> exact .inl hw
  | clear | mark => split at hw <;> exact .inl hw
  | unbind kind s =>
    by_cases hu : σ.conns u = some s
    · rw [(unbind_owner inv hu).2] at hw
      cases hw
    · rw [(unbind_other hu).2.lookupWorkload] at hw
      exact .inl hw

theorem instance_uid_ownership {retention : Push.Time} {rows : Workloads} {p : State}
    (h : Reachable step (initial retention rows) p) :
    (∀ u s, p.shared.conns u = some s → (p.shared.info s).uid = u ∧ s ∉ p.shared.released) ∧
    (∀ u w, p.shared.registry.lookupWorkload u = some w →
      ∃ s, p.shared.binder u = some s ∧ p.shared.conns u = some s) ∧
    ∀ a p', step p a = some p' →
      (∀ s u, binding p a = some (s, u) →
        (p.shared.info s).releaseOnce = .idle ∧ s ∉ p.shared.released ∧
          p'.shared.conns u = some s ∧ p'.shared.binder u = some s) ∧
      (∀ u w, p'.shared.registry.lookupWorkload u = some w →
        p.shared.registry.lookupWorkload u = some w ∨ ∃ s, binding p a = some (s, u)) ∧
      (∀ s u, releasing p a = some s → p.shared.conns u = some s →
        p'.shared.conns u = none ∧ p'.shared.registry.lookupWorkload u = none) ∧
      ∀ s u, closing p a = some s → p.shared.conns u ≠ some s →
        p'.shared.conns u = p.shared.conns u ∧
          p.shared.registry.SameAt p'.shared.registry u := by
  have hown := owned_of_reachable h
  have inv := hown.shared
  refine ⟨?_, ?_, fun a p' hs => ⟨?_, ?_, ?_, fun s u => closing_other hs⟩⟩
  · intro u s hu
    obtain ⟨hne, huid⟩ := (inv.conns u s).mp hu
    refine ⟨huid, fun hrel => hne ?_⟩
    rw [← huid, (inv.released s hrel).2]
  · intro u w hw
    obtain ⟨-, s, hs⟩ := inv.bound u w hw
    exact ⟨s, hs, inv.binder u s hs⟩
  · intro s u hb
    obtain ⟨i, c, h, rfl, ht, hdesc, rfl, rfl⟩ := binding_eq_some.mp hb
    obtain ⟨t, σ', t', new, ht', hm, rfl⟩ := Pool.Program.step_resume_eq_some.mp hs
    rw [ht] at ht'
    cases ht'
    cases hm
    exact accept_owner inv (hown.thread _ (List.mem_of_getElem? ht)) hdesc
  · intro u w hw
    cases a with
    | resume i c =>
      obtain ⟨t, σ', t', new, ht, hm, rfl⟩ := Pool.Program.step_resume_eq_some.mp hs
      refine (bound_of_resume inv hm hw).imp_right ?_
      rintro ⟨h, rfl, hdesc, huid⟩
      exact ⟨h.session, binding_eq_some.mpr ⟨i, c, h, rfl, ht, hdesc, rfl, huid⟩⟩
    | arrive e =>
      obtain ⟨σ', new, hm, rfl⟩ := Pool.Program.step_arrive_eq_some.mp hs
      exact .inl ((arrive_registry hm).2 ▸ hw)
  · intro s u hr hu
    obtain ⟨i, c, kind, rfl, ht⟩ := releasing_eq_some hr
    obtain ⟨t, σ', t', new, ht', hm, rfl⟩ := Pool.Program.step_resume_eq_some.mp hs
    rw [ht] at ht'
    cases ht'
    cases hm
    exact unbind_owner inv hu

/-- Session `a` owns a uid, session `b` sends a description with the same uid and is
disconnected. -/
def duplicateUidRun : List Action :=
  let a : Session := ⟨0, "t", none⟩
  let b : Session := ⟨1, "u", none⟩
  let msg : AgentMessage :=
    { instanceUid := List.replicate 16 7
      agentDescription := some ⟨[("host.name", "n1")], []⟩
      capabilities := 2 }
  let go (i : ℕ) : Action := .resume i ⟨0, true, true, .delivered⟩
  [.arrive (.connect a 0), .arrive (.message a msg true), go 0, go 0, go 0, go 0, go 0, go 0,
    .arrive (.connect b 0), .arrive (.message b msg true), go 1, go 1, go 1, go 1, go 1, go 1, go 1,
    .arrive (.tokens (.finishRemove b)), go 1, go 1, go 1]

theorem instance_uid_ownership_duplicate :
    ∃ p p', run step (initial 0 fun _ => none) duplicateUidRun = some p ∧
      releasing p (.resume 1 ⟨0, true, true, .delivered⟩) = some ⟨1, "u", none⟩ ∧
      step p (.resume 1 ⟨0, true, true, .delivered⟩) = some p' ∧
      p'.shared.conns (Sha256.hexEncode (List.replicate 16 7)) = some ⟨0, "t", none⟩ ∧
      p.shared.registry.SameAt p'.shared.registry (Sha256.hexEncode (List.replicate 16 7)) := by
  refine ⟨_, _, rfl, rfl, rfl, ?_⟩
  exact ((@instance_uid_ownership 0 (fun _ => none) _ ⟨duplicateUidRun, rfl⟩).2.2
    (.resume 1 ⟨0, true, true, .delivered⟩) _ rfl).2.2.2 ⟨1, "u", none⟩
    (Sha256.hexEncode (List.replicate 16 7)) rfl (by decide)

/-- Messages are handled in turn: a handler that has claimed its uid owns it, its session is not
released before it is done, and the binding that it has made stays; and no two handlers work on one
session, or on one uid, at a time. -/
theorem handlers_take_turns {retention : Push.Time} {rows : Workloads} {p : State}
    (hp : Reachable step (initial retention rows) p) :
    (∀ h stage, .handler h stage ∈ p.threads → stage.isClaimed = true →
      p.shared.conns h.uid = some h.session ∧ h.session ∉ p.shared.released ∧
        ∀ w, stage.workload = some w → p.shared.registry.uidToWL h.uid = some w) ∧
    ∀ (i j : ℕ) h h' stage stage', p.threads[i]? = some (.handler h stage) →
      p.threads[j]? = some (.handler h' stage') →
      (h.session = h'.session ∧ stage.inGate = true ∧ stage'.inGate = true ∨
        h.uid = h'.uid ∧ stage.isClaimed = true ∧ stage'.isClaimed = true) → i = j := by
  have hown := owned_of_reachable hp
  refine (and_iff_left_of_imp fun howns i j h h' stage stage' hi hj hsame => ?_).mpr ?_
  · have hin : ∀ stage : HandlerStage, stage.isClaimed = true → stage.inGate = true := by
      intro stage hc
      cases stage <;> first | rfl | cases hc
    obtain ⟨hs, hg, hg'⟩ : h.session = h'.session ∧ stage.inGate = true ∧ stage'.inGate = true := by
      refine hsame.elim id fun ⟨hu, hc, hc'⟩ => ⟨?_, hin _ hc, hin _ hc'⟩
      -- the two handlers own one uid
      have hconns := (howns h stage (List.mem_of_getElem? hi) hc).1
      rw [hu, (howns h' stage' (List.mem_of_getElem? hj) hc').1] at hconns
      exact (Option.some.inj hconns).symm
    by_contra hne
    have hapart := hown.apart_of_ne program_keeps.symm (Ne.symm hne) hi hj
    exact hapart.gate h.session (if_pos hg) (hs ▸ if_pos hg')
  · intro h stage hmem hclaimed
    obtain ⟨huid, hne⟩ := (hown.thread _ hmem).claim _ _ (if_pos hclaimed)
    refine ⟨(hown.shared.conns _ _).mpr ⟨hne, huid⟩, fun hreleased => hne ?_, fun w hw => ?_⟩
    · rw [← huid, (hown.shared.released _ hreleased).2]
    · refine (hown.thread _ hmem).bound _ _ ?_
      rw [Thread.bound, hw, Option.map_some]

theorem handlers_take_turns_duplicate :
    ∃ p h w, run step (initial 0 fun _ => none) (duplicateUidRun.take 8) = some p ∧
      .handler h (.cancelling w) ∈ p.threads ∧ p.shared.registry.uidToWL h.uid = some w := by
  refine ⟨_, _, _, rfl, List.mem_singleton_self _, ?_⟩
  exact ((@handlers_take_turns 0 (fun _ => none) _ ⟨duplicateUidRun.take 8, rfl⟩).1 _ _
    (List.mem_singleton_self _) rfl).2.2 _ rfl

end OtelMagnify.Server
