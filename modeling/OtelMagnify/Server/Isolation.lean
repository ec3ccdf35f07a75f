import OtelMagnify.Server.Calls

/-! Isolation of configs between workloads. `PushConfig` reads the binding of an instance once;
the session is looked up, leased and written to later. A config reaches an instance of its own
workload as long as the uid is neither moved to another workload nor claimed anew on the way. -/
namespace OtelMagnify.Server
open Push Token StepSystem

/-- The uid and the workload for which the step calls `BindInstance`. -/
def binds (p : State) : Action → Option (String × String)
  | .resume i _ =>
    match p.threads[i]? with
    | some (.handler h .accepted) =>
      h.msg.agentDescription.map fun desc => (h.uid, (fingerprint desc.attrs h.uid).id)
    | _ => none
  | .arrive _ => none

def claims (p : State) : Action → Option String
  | .resume i _ =>
    match p.threads[i]? with
    | some (.handler h .claiming) =>
      if (p.shared.info h.session).uid = "" ∧ p.shared.conns h.uid = none then some h.uid else none
    | _ => none
  | .arrive _ => none

namespace Calls

/-- The instances to which a call is about to send, with its workload. -/
def inFlight (r : Calls) : List (String × String) :=
  r.calls.flatMap fun c =>
    (c.rest ++ (c.sending.toList.filter fun x => (r.thread x.thread).any Thread.sends).map
      Sending.uid).map (·, c.workload)

/-- What the step sends: the workload for which it is sent and the session to which it goes. -/
def sends (r : Calls) : CallAction → Option (String × Session)
  | .server (.resume i _) =>
    match r.thread i with
    | some (.sending l) =>
      (r.calls.find? fun c => c.sending.any fun x => x.thread = i).map fun c =>
        (c.workload, l.session)
    | _ => none
  | _ => none

/-- No instance to which a call is about to send is moved to another workload, and its uid is not
claimed by another session. -/
def Steady (r : Calls) : CallAction → Prop
  | .server b => ∀ f ∈ r.inFlight,
      (∀ x ∈ binds r.server b, x.1 = f.1 → x.2 = f.2) ∧ claims r.server b ≠ some f.1
  | _ => True

instance (r : Calls) : (a : CallAction) → Decidable (r.Steady a)
  | .server b => inferInstanceAs (Decidable (∀ f ∈ r.inFlight,
      (∀ x ∈ binds r.server b, x.1 = f.1 → x.2 = f.2) ∧ claims r.server b ≠ some f.1))
  | .call _ _ _ | .next _ _ | .load _ | .finish _ | .count | .discount _ => isTrue trivial

end Calls

section Uid

variable {σ σ' : Shared} {t t' u : Thread} {c : Choice} {new : Option Thread} {w x : String}

theorem claim_uid {h : Handler} (inv : Inv σ) (x : String) :
    (h.claim σ).1.registry = σ.registry ∧ ((h.claim σ).1.conns x = σ.conns x ∨
      h.uid = x ∧ (σ.info h.session).uid = "" ∧ σ.conns x = none) := by
  dsimp only [Handler.claim]
  split_ifs with hmsg hadm howner huid hother
  · exact ⟨rfl, .inl rfl⟩
  · exact ⟨rfl, .inl rfl⟩
  · exact ⟨rfl, .inl rfl⟩
  · exact ⟨rfl, .inl rfl⟩
  · exact ⟨rfl, .inl rfl⟩
  · refine ⟨rfl, ?_⟩
    by_cases hx : x = h.uid
    · subst hx
      refine .inr ⟨rfl, not_not.mp huid, ?_⟩
      cases hs : σ.conns h.uid with
      | none => rfl
      | some s =>
        have hsame : s = h.session := by simpa [hs] using hother
        obtain ⟨hne, hown⟩ := (inv.conns h.uid s).mp hs
        exact absurd (hown.symm.trans (hsame ▸ not_not.mp huid)) hne
    · exact .inl (Function.update_of_ne hx _ _)

/-- What a step of a goroutine does to the binding and the owner of a uid: nothing, or it binds
it, claims it for a session, or releases the session that owns it. -/
theorem resume_uid (inv : Inv σ) (hok : Ok σ t) (hm : resume σ t c = some (σ', t', new))
    (x : String) :
    (σ'.registry.uidToWL x = σ.registry.uidToWL x ∧ σ'.conns x = σ.conns x) ∨
      (∃ h desc, t = .handler h .accepted ∧ h.msg.agentDescription = some desc ∧ h.uid = x ∧
        σ'.registry.uidToWL x = some (fingerprint desc.attrs x).id) ∨
      (∃ h, t = .handler h .claiming ∧ h.uid = x ∧ (σ.info h.session).uid = "" ∧
        σ.conns x = none) ∨
      (∃ kind s, t = .closer kind s .unbinding ∧ σ.conns x = some s ∧ σ.Quiet s ∧
        σ'.conns x = none) := by
  cases t with
  | handler h stage =>
    by_cases hs : stage = .claiming
    · subst hs
      cases hm
      obtain ⟨hreg, hconns⟩ := claim_uid (h := h) inv x
      rcases hconns with hconns | ⟨hx, huid, hnone⟩
      · exact .inl ⟨by rw [hreg], hconns⟩
      · exact .inr (.inr (.inl ⟨h, rfl, hx, huid, hnone⟩))
    have hconns : σ'.conns x = σ.conns x := by rw [(resumeHandler_sessions hm).conns hs]
    rcases resume_effect hm with ⟨-, hf⟩ | hwrite
    · exact .inl ⟨by rw [hf.uidToWL], hconns⟩
    cases hwrite with
    | accept h =>
      rcases h.accept_cases σ with ⟨desc, ins, hdesc, he⟩ | ⟨-, he⟩
      · by_cases hx : x = h.uid
        · subst hx
          refine .inr (.inl ⟨h, desc, rfl, hdesc, rfl, ?_⟩)
          rw [he]
          exact Function.update_self _ _ _
        · refine .inl ⟨?_, hconns⟩
          rw [he]
          exact Function.update_of_ne hx _ _
      · exact .inl ⟨by rw [he], hconns⟩
    | cancel => exact .inl ⟨rfl, hconns⟩
    | upsert h stage v row _ hs =>
      refine .inl ⟨?_, hconns⟩
      unfold Shared.upsertWorkload
      split <;> rfl
    | clear h v =>
      refine .inl ⟨?_, hconns⟩
      split <;> rfl
  | closer kind s stage =>
    by_cases hx : σ.conns x = some s ∧ stage = .unbinding
    · obtain ⟨hx, rfl⟩ := hx
      cases hm
      exact .inr (.inr (.inr ⟨kind, s, rfl, hx, hok.closer_quiet rfl, (unbind_owner inv hx).1⟩))
    left
    by_cases hw : stage.writes = false
    · obtain ⟨hf, hconns, -⟩ := resumeCloser_frame hw hm
      exact ⟨by rw [hf.uidToWL], by rw [hconns]⟩
    cases stage with
    | unbinding =>
      cases hm
      obtain ⟨hconns, hsame⟩ := unbind_other (s := s) (u := x) fun h => hx ⟨h, rfl⟩
      exact ⟨hsame.lookupWorkload, hconns⟩
    | scheduling v =>
      cases hm
      exact ⟨rfl, rfl⟩
    | _ => exact absurd rfl hw
  | graceMark v =>
    cases hm
    left
    split <;> exact ⟨rfl, rfl⟩
  | finished => cases hm
  | _ =>
    cases hm
    exact .inl ⟨rfl, rfl⟩

/-- The uid is bound to the workload, or nobody owns it. -/
def Reserved (σ : Shared) (w x : String) : Prop :=
  σ.registry.uidToWL x = some w ∨ σ.conns x = none

/-- What a send for the workload relies on. -/
def Promised (σ : Shared) (w x : String) : Thread → Prop
  | .lookingUp _ => Reserved σ w x
  | .acquiring s => σ.registry.uidToWL x = some w ∨ σ.Quiet s
  | .sending _ => σ.registry.uidToWL x = some w
  | _ => True

/-- What the guard says of an instance that is in flight when the goroutine moves. -/
structure Kept (σ : Shared) (t : Thread) (w x : String) : Prop where
  bind : ∀ h desc, t = .handler h .accepted → h.msg.agentDescription = some desc → h.uid = x →
    (fingerprint desc.attrs x).id = w
  claim : ∀ h, t = .handler h .claiming → h.uid = x → (σ.info h.session).uid = "" →
    σ.conns x ≠ none

theorem Reserved.resume (h : Reserved σ w x) (inv : Inv σ) (hok : Ok σ t) (hk : Kept σ t w x)
    (hm : resume σ t c = some (σ', t', new)) : Reserved σ' w x := by
  rcases resume_uid inv hok hm x with ⟨hreg, hconns⟩ | ⟨g, desc, ht, hdesc, hx, hb⟩ |
    ⟨g, ht, hx, huid, hnone⟩ | ⟨kind, s, -, -, -, hconns⟩
  · rwa [Reserved, hreg, hconns]
  · exact .inl (hb.trans (by rw [hk.bind g desc ht hdesc hx]))
  · exact absurd hnone (hk.claim g ht hx huid)
  · exact .inr hconns

/-- A binding in flight stays, or its session is being released. -/
theorem bound_resume (h : σ.registry.uidToWL x = some w) (inv : Inv σ) (hok : Ok σ t)
    (hk : Kept σ t w x) (hm : resume σ t c = some (σ', t', new)) :
    σ'.registry.uidToWL x = some w ∨ ∃ s, (σ.info s).uid = x ∧ x ≠ "" ∧ σ.Quiet s := by
  rcases resume_uid inv hok hm x with ⟨hreg, -⟩ | ⟨g, desc, ht, hdesc, hx, hb⟩ |
    ⟨g, ht, hx, huid, hnone⟩ | ⟨kind, s, -, hs, hq, -⟩
  · exact .inl (hreg.trans h)
  · exact .inl (hb.trans (by rw [hk.bind g desc ht hdesc hx]))
  · exact absurd hnone (hk.claim g ht hx huid)
  · exact .inr ⟨s, ((inv.conns x s).mp hs).2, ((inv.conns x s).mp hs).1, hq⟩

theorem Promised.others (h : Promised σ w x u) (hf : Follows σ x u) (inv : Inv σ) (hok : Ok σ t)
    (hu : Ok σ u) (hc : Change σ σ' t) (hk : u.sends = true → Kept σ t w x)
    (hm : resume σ t c = some (σ', t', new)) : Promised σ' w x u := by
  cases hf with
  | lookingUp => exact Reserved.resume h inv hok (hk rfl) hm
  | acquiring s huid =>
    rcases h with h | hq
    · rcases bound_resume h inv hok (hk rfl) hm with hb | ⟨s', hs', hne, hq⟩
      · exact .inl hb
      · refine .inr (huid.elim (fun hs => ?_) fun hq => hq.change hc)
        rw [← inv.uid_inj hne hs' hs]
        exact hq.change hc
    · exact .inr (hq.change hc)
  | sending l huid =>
    rcases bound_resume h inv hok (hk rfl) hm with hb | ⟨s', hs', hne, hq⟩
    · exact hb
    · have hsame := inv.uid_inj hne hs' huid
      exact absurd hsame.symm (hq.not_leased (hu.lease l rfl).1)
  | sent | closer | finished => trivial

theorem Promised.resume (h : Promised σ w x t) (hf : Follows σ x t)
    (hm : resume σ t c = some (σ', t', new)) : Promised σ' w x t' := by
  cases hf with
  | lookingUp =>
    cases hm
    cases hs : σ.conns x with
    | none => trivial
    | some s => exact .inl (h.resolve_right fun hn => by simp [hs] at hn)
  | acquiring s huid =>
    cases hm
    rcases Manager.acquire_spec σ.tokens s c.now with ⟨hs, he⟩ | ⟨hl, -⟩
    · rw [he]
      exact h.resolve_right fun hq => hq.detached hs
    · rw [hl]
      trivial
  | sending l huid =>
    cases hm
    trivial
  | sent l failed =>
    cases hm
    cases failed <;> trivial
  | closer s stage =>
    rcases resumeCloser_thread hm with rfl | ⟨stage', rfl⟩ <;> trivial
  | finished => cases hm

end Uid

namespace Calls

variable {r r' : Calls} {a : CallAction}

structure Isolated (r : Calls) : Prop where
  owned : Owned r.server
  linked : r.Linked
  rest : ∀ c ∈ r.calls, ∀ x ∈ c.rest, Reserved r.server.shared c.workload x
  sending : ∀ c ∈ r.calls, ∀ x, c.sending = some x → ∀ t, r.thread x.thread = some t →
    Promised r.server.shared c.workload x.uid t

theorem isolated_initial (retention : Push.Time) (rows : Workloads) :
    (initial retention rows).Isolated where
  owned := owned_initial retention rows
  linked _ h := nomatch h
  rest _ h := nomatch h
  sending _ h := nomatch h

theorem mem_inFlight_of_rest {c : PushCall} {x : String} (hc : c ∈ r.calls) (hx : x ∈ c.rest) :
    (x, c.workload) ∈ r.inFlight :=
  List.mem_flatMap.mpr ⟨c, hc, List.mem_map.mpr ⟨x, List.mem_append_left _ hx, rfl⟩⟩

theorem mem_inFlight_of_sending {c : PushCall} {x : Sending} {t : Thread} (hc : c ∈ r.calls)
    (hx : c.sending = some x) (ht : r.thread x.thread = some t) (hs : t.sends = true) :
    (x.uid, c.workload) ∈ r.inFlight := by
  refine List.mem_flatMap.mpr ⟨c, hc, List.mem_map.mpr ⟨x.uid, List.mem_append_right _ ?_, rfl⟩⟩
  simp [hx, ht, hs]

theorem Steady.kept {i : ℕ} {c : Choice} {t : Thread} (hG : r.Steady (.server (.resume i c)))
    (ht : r.thread i = some t) {x w : String} (hf : (x, w) ∈ r.inFlight) :
    Kept r.server.shared t w x := by
  obtain ⟨hbind, hclaim⟩ := hG (x, w) hf
  have ht : r.server.threads[i]? = some t := ht
  constructor
  · rintro h desc rfl hdesc rfl
    exact hbind (h.uid, (fingerprint desc.attrs h.uid).id) (by simp [binds, ht, hdesc]) rfl
  · rintro h rfl rfl huid hnone
    exact hclaim (by simp [claims, ht, huid, hnone])

theorem Isolated.resume {i : ℕ} {c : Choice} (hr : r.Isolated) (howned : Owned r'.server)
    (hlinked : r'.Linked) (hG : r.Steady (.server (.resume i c)))
    (h : r.resume i c = some r') : r'.Isolated := by
  obtain ⟨t, σ', t', new, ht, -, hm, hr'⟩ := resume_eq_some h
  have hserver : r'.server = ⟨σ', r.server.threads.set i t' ++ new.toList⟩ := by rw [hr']
  have hcalls : r'.calls = r.calls := by rw [hr']
  have hshared : r'.server.shared = σ' := by rw [hserver]
  have inv := hr.owned.shared
  have hok : ∀ u j, r.thread j = some u → Ok r.server.shared u := fun u j hu =>
    hr.owned.thread u (List.mem_of_getElem? hu)
  have hc := (good_resume inv (hok t i ht) hm).change
  refine ⟨howned, hlinked, ?_, ?_⟩
  · rw [hcalls, hshared]
    intro d hd x hx
    have hkept := hG.kept ht (mem_inFlight_of_rest hd hx)
    exact (hr.rest d hd x hx).resume inv (hok t i ht) hkept hm
  · rw [hcalls, hshared]
    intro d hd x hx u' hu'
    obtain ⟨-, u, hu, hf⟩ := hr.linked d hd x hx
    have hpromised := hr.sending d hd x hx u hu
    rcases thread_resume ht hu hserver with ⟨-, rfl, hj⟩ | ⟨-, hj⟩
    · cases hj.symm.trans hu'
      exact hpromised.resume hf hm
    · cases hj.symm.trans hu'
      refine hpromised.others hf inv (hok t i ht) (hok _ _ hu) hc (fun hs => ?_) hm
      exact hG.kept ht (mem_inFlight_of_sending hd hx hu hs)

theorem Isolated.arrive {e : Event} (hr : r.Isolated) (howned : Owned r'.server)
    (hlinked : r'.Linked) (h : r.arrive e = some r') : r'.Isolated := by
  obtain ⟨σ', new, hm, -, rfl⟩ := arrive_eq_some h
  have hchange := (arrives hr.owned.shared hm).change
  obtain ⟨hconns, hreg⟩ := arrive_registry hm
  refine ⟨howned, hlinked, ?_, ?_⟩
  · intro d hd x hx
    simpa only [Reserved, hconns, hreg] using hr.rest d hd x hx
  · intro d hd x hx u' hu'
    obtain ⟨-, u, hu, hf⟩ := hr.linked d hd x hx
    have hpromised := hr.sending d hd x hx u hu
    cases (thread_append { r with server := ⟨σ', _⟩ } hu rfl).symm.trans hu'
    cases hf with
    | lookingUp => simpa only [Promised, Reserved, hconns, hreg] using hpromised
    | acquiring s _ =>
      refine hpromised.imp (fun hb => ?_) fun hq => hq.change hchange
      simpa only [hreg] using hb
    | sending l _ => simpa only [Promised, hreg] using hpromised
    | sent | closer | finished => trivial

theorem reserved_of_mem_targets {w target x : String} (h : x ∈ r.targets w target) :
    Reserved r.server.shared w x := by
  unfold targets at h
  dsimp only at h
  split at h
  · split at h
    · next hb =>
      obtain rfl := List.mem_singleton.mp h
      exact .inl hb.1
    · cases h
  · obtain ⟨i, hi, rfl⟩ := List.mem_map.mp h
    exact .inl ((r.server.shared.registry.uidToWL_eq_some _ _).mpr ⟨i, hi, rfl⟩)

theorem Isolated.of_calls (hr : r.Isolated) (hserver : r'.server = r.server)
    (hlinked : r'.Linked) (h : ∀ c ∈ r'.calls, c ∈ r.calls ∨
      ((∀ x ∈ c.rest, Reserved r.server.shared c.workload x) ∧
        ∀ x, c.sending = some x → ∀ t, r.thread x.thread = some t →
          Promised r.server.shared c.workload x.uid t)) : r'.Isolated where
  owned := hserver ▸ hr.owned
  linked := hlinked
  rest c hc x hx := by
    rw [hserver]
    exact (h c hc).elim (fun hc => hr.rest c hc x hx) fun hc => hc.1 x hx
  sending c hc x hx t ht := by
    rw [thread, hserver] at ht
    rw [hserver]
    exact (h c hc).elim (fun hc => hr.sending c hc x hx t ht) fun hc => hc.2 x hx t ht

theorem Isolated.set_call {k : ℕ} {d : PushCall} (hr : r.Isolated)
    (hlinked : Linked { r with calls := r.calls.set k d })
    (hrest : ∀ x ∈ d.rest, Reserved r.server.shared d.workload x)
    (hsending : ∀ x, d.sending = some x → ∀ t, r.thread x.thread = some t →
      Promised r.server.shared d.workload x.uid t) :
    Isolated { r with calls := r.calls.set k d } := by
  refine hr.of_calls rfl hlinked fun c hc => (List.mem_or_eq_of_mem_set hc).imp_right ?_
  rintro rfl
  exact ⟨hrest, hsending⟩

theorem Isolated.next {k : ℕ} {uid : String} (hr : r.Isolated) (howned : Owned r'.server)
    (hlinked : r'.Linked) (h : r.next k uid = some r') : r'.Isolated := by
  obtain ⟨c, hc, hnone, huid, rfl | ⟨-, rfl⟩⟩ := next_eq_some h
  · refine hr.set_call hlinked (fun x hx => ?_) fun x hx => by simp [hnone] at hx
    exact hr.rest c (List.mem_of_getElem? hc) x (List.mem_of_mem_erase hx)
  · refine ⟨howned, hlinked, fun d hd x hx => ?_, ?_⟩
    · rcases List.mem_or_eq_of_mem_set hd with hd | rfl
      · exact hr.rest d hd x hx
      · exact hr.rest c (List.mem_of_getElem? hc) x (List.mem_of_mem_erase hx)
    · intro d hd x hx t' ht'
      rcases List.mem_or_eq_of_mem_set hd with hd | rfl
      · obtain ⟨-, t, ht, -⟩ := hr.linked d hd x hx
        cases (thread_append { r with server := ⟨_, _⟩ } ht rfl).symm.trans ht'
        exact hr.sending d hd x hx _ ht
      · cases hx
        have hnew : t' = .lookingUp uid := by simpa [thread] using ht'.symm
        subst hnew
        exact hr.rest c (List.mem_of_getElem? hc) uid huid

theorem Isolated.step (hr : r.Isolated) (hG : r.Steady a) (h : r.step a = some r') :
    r'.Isolated := by
  have howned := owned_step hr.owned h
  have hlinked := hr.linked.step hr.owned h
  cases a with
  | server b =>
    cases b with
    | resume i c => exact hr.resume howned hlinked hG h
    | arrive e => exact hr.arrive howned hlinked h
  | call caller w target =>
    obtain ⟨-, rfl⟩ := call_eq_some h
    refine hr.of_calls rfl hlinked fun d hd => ?_
    refine (List.mem_append.mp hd).imp_right fun hd => ?_
    obtain rfl := List.mem_singleton.mp hd
    exact ⟨fun x hx => reserved_of_mem_targets hx, fun x hx => nomatch hx⟩
  | next k uid => exact hr.next howned hlinked h
  | load k =>
    obtain ⟨c, x, s, hc, hx, -, -, ⟨-, rfl⟩ | ⟨-, rfl⟩⟩ := load_eq_some h
    · refine hr.set_call hlinked (hr.rest c (List.mem_of_getElem? hc)) ?_
      rintro y ⟨⟩
      exact hr.sending c (List.mem_of_getElem? hc) x hx
    · exact hr.set_call hlinked (hr.rest c (List.mem_of_getElem? hc)) nofun
  | finish k =>
    obtain ⟨c, x, hc, -, -, rfl⟩ := finish_eq_some h
    exact hr.set_call hlinked (hr.rest c (List.mem_of_getElem? hc)) nofun
  | count =>
    obtain ⟨g, -, rfl⟩ := Option.map_eq_some_iff.mp h
    exact hr.of_calls rfl hlinked fun d hd => .inl hd
  | discount i =>
    obtain ⟨u, -, rfl⟩ := Option.map_eq_some_iff.mp h
    exact hr.of_calls rfl hlinked fun d hd => .inl hd

theorem sends_eq_some {w : String} {s : Session} (h : r.sends a = some (w, s)) :
    ∃ c ∈ r.calls, ∃ x l, c.workload = w ∧ c.sending = some x ∧
      r.thread x.thread = some (.sending l) ∧ l.session = s := by
  cases a with
  | server b =>
    cases b with
    | resume i c =>
      simp only [sends] at h
      split at h
      · next l hl =>
        obtain ⟨d, hd, he⟩ := Option.map_eq_some_iff.mp h
        cases he
        have hany := List.find?_some hd
        obtain ⟨x, hx, hi⟩ := (Option.any_eq_true _ _).mp hany
        obtain rfl := of_decide_eq_true hi
        exact ⟨d, List.mem_of_find?_eq_some hd, x, l, rfl, hx, hl, rfl⟩
      · cases h
    | arrive e => cases h
  | _ => cases h

/-- In every run in which no instance in flight is moved to another workload or claimed anew,
every config goes to a session whose instance is bound to the workload of the call when it is
sent. -/
theorem config_isolation {retention : Push.Time} {rows : Workloads} {as : List CallAction}
    (hsteady : Meets step Steady (initial retention rows) as)
    (hrun : run step (initial retention rows) as = some r) {w : String} {s : Session}
    (hsend : r.sends a = some (w, s)) :
    r.server.shared.registry.lookupWorkload (r.server.shared.info s).uid = some w := by
  have hr : r.Isolated := run_invariant_of_meets (fun _ _ _ hr hG hs => hr.step hG hs)
    (isolated_initial retention rows) hsteady hrun
  obtain ⟨c, hc, x, l, rfl, hx, ht, rfl⟩ := sends_eq_some hsend
  obtain ⟨-, t, ht', hf⟩ := hr.linked c hc x hx
  cases ht'.symm.trans ht
  cases hf with
  | sending l huid =>
    rw [huid]
    exact hr.sending c hc x hx _ ht

def describe (s : Session) (host : String) : CallAction :=
  .server (.arrive (.message s
    { instanceUid := List.replicate 16 7
      agentDescription := some ⟨[("host.name", host)], []⟩
      capabilities := 2 } true))

/-- An agent describes itself on a host; a push to it looks the binding up, finds the session and
takes a lease. -/
def pushRun : List CallAction :=
  let a : Session := ⟨0, "t", none⟩
  [.server (.arrive (.connect a 0)), describe a "n1", go 0, .count, go 0, go 0, go 0, go 0, go 0,
    .call none (hash24 "host||n1") uid7, .next 0 uid7, go 1, go 1, .count]

theorem config_isolation_push :
    ∃ r, run step (initial 0 fun _ => none) pushRun = some r ∧
      r.sends (go 1) = some (hash24 "host||n1", ⟨0, "t", none⟩) ∧
      r.server.shared.registry.lookupWorkload (r.server.shared.info ⟨0, "t", none⟩).uid =
        some (hash24 "host||n1") := by
  obtain ⟨r, hr, hsend⟩ : ∃ r, run step (initial 0 fun _ => none) pushRun = some r ∧
      r.sends (go 1) = some (hash24 "host||n1", ⟨0, "t", none⟩) := by
    decide +kernel
  exact ⟨r, hr, hsend, config_isolation (by decide +kernel) hr hsend⟩

/-- The agent describes itself on another host between the look-up of the push and its send. -/
def reboundRun : List CallAction :=
  let a : Session := ⟨0, "t", none⟩
  [.server (.arrive (.connect a 0)), describe a "n1", go 0, .count] ++ List.replicate 16 (go 0) ++
    [.call none (hash24 "host||n1") uid7, .next 0 uid7, describe a "n2", go 2, .count, go 2, go 2,
      go 2, go 1, go 1, .count]

/-- The config of the first host goes to an instance that is bound to the second one. -/
theorem push_follows_rebound_instance :
    ∃ r w', run step (initial 0 fun _ => none) reboundRun = some r ∧
      r.sends (go 1) = some (hash24 "host||n1", ⟨0, "t", none⟩) ∧ (r.step (go 1)).isSome = true ∧
      r.server.shared.registry.lookupWorkload (r.server.shared.info ⟨0, "t", none⟩).uid =
        some w' ∧ w' ≠ hash24 "host||n1" := by
  simp only [exists_and_left]
  decide +kernel

end Calls

end OtelMagnify.Server
