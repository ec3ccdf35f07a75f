import OtelMagnify.Server.Ownership

/-! The steps of `onSessionMessage` keep the ownership of leases, gates, uids and bindings. -/
namespace OtelMagnify.Server
open Push Token

variable {σ : Shared} {h : Handler} {stage : HandlerStage} {c : Choice}

theorem Ok.handler_of_lease (hg : stage.inGate = false)
    (hl : h.lease ∈ σ.tokens.leases ∧ ∀ s, (σ.info s).httpLease ≠ some h.lease) :
    Ok σ (.handler h stage) := by
  have hclaim : stage.isClaimed = false := by cases stage <;> first | rfl | cases hg
  have hw : stage.workload = none := by cases stage <;> first | rfl | cases hg
  exact .handler hl (by simp [hg]) (by simp [hclaim]) (by simp [hw])

theorem Ok.not_quiet (hok : Ok σ (.handler h stage)) : ¬ σ.Quiet h.session := fun hq =>
  hq.not_leased hok.handler_lease.1 rfl

variable {l : Lease} {w : String}

theorem Inv.connected_of_lease (inv : Inv σ) (hl : l ∈ σ.tokens.leases) :
    l.session ∈ σ.connected := by
  have hv := inv.tokens.valid l.session
  have hleased : (σ.tokens.view l.session).leased = true :=
    Manager.isLeased_iff.mpr ⟨l, hl, rfl⟩
  refine inv.tracked _ (of_decide_eq_true (p := l.session ∈ σ.tokens.tracked) ?_)
  rcases hv.leased hleased with ha | ⟨b, hb⟩
  · exact (hv.active ha).1
  · exact hv.removed (by simp [hb])

theorem Inv.setInfo (inv : Inv σ) {s : Session} {f : SessionInfo → SessionInfo}
    (huid : ∀ i, (f i).uid = i.uid) (hhttp : ∀ i, (f i).httpLease = i.httpLease)
    (honce : (∀ i, (f i).releaseOnce = i.releaseOnce) ∨ σ.Quiet s) : Inv (σ.setInfo s f) := by
  have hlease := setInfo_field (σ := σ) SessionInfo.httpLease hhttp s
  exact inv.keep (fun x hq => { hq with }) inv.tokens
    inv.leaseIDs inv.tracked
    (fun x l hl => by
      rw [hlease] at hl
      exact ⟨hl, (inv.http x l hl).1⟩)
    (setInfo_field SessionInfo.uid huid s)
    (fun x hx => by
      rw [setInfo_info] at hx
      split at hx
      · next hs =>
        subst hs
        rcases honce with ho | hq
        · exact .inl (ho _ ▸ hx)
        · exact .inr hq
      · exact .inl hx) rfl rfl rfl rfl

theorem good_locking (inv : Inv σ) (hok : Ok σ (.handler h .locking))
    (hgate : (σ.info h.session).gate = false) :
    Good σ (.handler h .locking) (σ.setInfo h.session fun i => { i with gate := true })
      (.handler h .claiming) none where
  inv := inv.setInfo (fun _ => rfl) (fun _ => rfl) (.inl fun _ => rfl)
  ok := by
    have hc : Change σ (σ.setInfo h.session fun i => { i with gate := true }) .finished :=
      .of_setInfo (fun _ => rfl) (fun _ => rfl) (.inr fun _ _ => rfl)
    exact .handler (hc.self_ok inv hok).handler_lease (fun _ => by simp [setInfo_info])
      (fun h => nomatch h) fun _ h => nomatch h
  change := .of_setInfo (fun _ => rfl) (fun _ => rfl) (.inr fun _ _ => rfl)
  lease l hl := .inl hl
  gate := by
    rintro s ⟨⟩
    exact .inr hgate
  started _ hn := nomatch hn

theorem uid_ne_empty (hlen : h.msg.instanceUid.length = 16) : h.uid ≠ "" :=
  hexEncode_ne_empty hlen

/-- A session claims a uid that nobody owns. -/
theorem inv_claim (inv : Inv σ) (hok : Ok σ (.handler h .claiming)) (hne : h.uid ≠ "")
    (huid : (σ.info h.session).uid = "") (hfree : σ.conns h.uid = none) :
    Inv { σ.setInfo h.session fun i => { i with uid := h.uid } with
      conns := Function.update σ.conns h.uid (some h.session) } where
  tokens := inv.tokens
  leaseIDs := inv.leaseIDs
  tracked := inv.tracked
  http x l hl := by
    simp only [setInfo_info] at hl
    split at hl
    · exact inv.http x l hl
    · exact inv.http x l hl
  conns x s := by
    simp only [setInfo_info]
    by_cases hs : s = h.session
    · subst hs
      rw [if_pos rfl]
      by_cases hx : x = h.uid
      · subst hx
        simp [hne]
      · rw [Function.update_of_ne hx, inv.conns, huid]
        exact iff_of_false (fun hc => hc.1 hc.2.symm) fun hc => hx hc.2.symm
    · rw [if_neg hs]
      by_cases hx : x = h.uid
      · subst hx
        rw [Function.update_self]
        refine iff_of_false (fun hc => hs (Option.some.inj hc).symm) fun hc => ?_
        rw [(inv.conns _ s).mpr hc] at hfree
        cases hfree
      · rw [Function.update_of_ne hx, inv.conns]
  released s hs := by
    obtain ⟨hq, hu⟩ := inv.released s hs
    have hne' : s ≠ h.session := by
      rintro rfl
      exact hok.not_quiet hq
    refine ⟨{ hq with }, ?_⟩
    simp only [setInfo_info]
    rw [if_neg hne', hu]
  begun s hs := by
    have hq := inv.begun s (by
      simp only [setInfo_info] at hs
      split at hs <;> exact hs)
    exact { hq with }
  binder x s hs := by
    have hx : x ≠ h.uid := by
      rintro rfl
      rw [inv.binder _ s hs] at hfree
      cases hfree
    exact (Function.update_of_ne hx _ _).trans (inv.binder x s hs)
  bound := inv.bound

theorem change_claim (huid : (σ.info h.session).uid = "") :
    Change σ { σ.setInfo h.session fun i => { i with uid := h.uid } with
      conns := Function.update σ.conns h.uid (some h.session) } .finished := by
  refine { Change.refl σ .finished with http := fun s l hl => ?_, gate := fun s hs => ?_
                                        uid := fun s => ?_ }
  · simp only [setInfo_info] at hl
    split at hl <;> exact .inl hl
  · simp only [setInfo_info]
    split <;> exact .inr hs
  · simp only [setInfo_info]
    split
    · next hs => exact .inr (.inl (hs ▸ huid))
    · exact .inl rfl

theorem good_claim (inv : Inv σ) (hok : Ok σ (.handler h .claiming)) :
    Good σ (.handler h .claiming) (h.claim σ).1 (.handler h (h.claim σ).2) none := by
  have hback : Good σ (.handler h .claiming) σ (.handler h (.unlocking true)) none :=
    .handler_same inv hok rfl (.unclaimed rfl fun _ => rfl)
  unfold Handler.claim
  dsimp only
  split
  · exact hback
  next hmsg =>
  have hlen : h.msg.instanceUid.length = 16 := by
    by_contra hn
    exact hmsg (.inl hn)
  have hne := uid_ne_empty hlen
  have hgate := hok.handler_gate rfl
  split
  · split
    · next hown =>
      have hok' : Ok σ (.handler h .accepted) :=
        .handler hok.handler_lease (fun _ => hgate) (fun _ => ⟨hown.1, hne⟩) fun _ h => nomatch h
      exact .of_handler inv hok' ((Change.of_owners rfl).weaken _) fun _ => rfl
    · exact hback
  split
  · exact hback
  next huid =>
  have huid' : (σ.info h.session).uid = "" := not_not.mp huid
  split
  · exact hback
  next howner =>
  have hfree : σ.conns h.uid = none := by
    cases hown : σ.conns h.uid with
    | none => rfl
    | some s =>
      have hs : s = h.session := by simpa [hown] using howner
      rw [hs] at hown
      exact absurd (((inv.conns _ _).mp hown).2.symm.trans huid') hne
  refine .of_handler (inv_claim inv hok hne huid' hfree) ?_ ((change_claim huid').weaken _)
    fun _ => rfl
  refine .handler ⟨hok.handler_lease.1, fun s => ?_⟩ (fun _ => ?_) (fun _ => ?_) fun _ h => nomatch h
  · simp only [setInfo_info]
    split <;> exact hok.handler_lease.2 s
  · simp only [setInfo_info, if_true]
    exact hgate
  · simp only [setInfo_info, if_true]
    exact ⟨trivial, hne⟩

theorem good_setAdmitted (inv : Inv σ) (hok : Ok σ (.handler h .admitting)) :
    Good σ (.handler h .admitting) (h.setAdmitted σ).1 (.handler h (h.setAdmitted σ).2) none := by
  unfold Handler.setAdmitted
  split
  · have hc : Change σ (σ.setInfo h.session fun i => { i with admitted := true }) .finished :=
      .of_setInfo (fun _ => rfl) (fun _ => rfl) (.inr fun _ hg => hg)
    have hinv : Inv (σ.setInfo h.session fun i => { i with admitted := true }) :=
      inv.setInfo (fun _ => rfl) (fun _ => rfl) (.inl fun _ => rfl)
    exact .handler inv hok hinv hc (.keeps rfl rfl rfl)
  · exact .handler_same inv hok rfl (.unclaimed rfl fun _ => rfl)

/-- A message of the owner binds its uid. -/
theorem good_bind (inv : Inv σ) (hok : Ok σ (.handler h .accepted)) (hw : w ≠ "") (ins : Instance) :
    Good σ (.handler h .accepted)
      { σ with
        registry := σ.registry.bindInstance h.uid w ins
        binder := Function.update σ.binder h.uid (some h.session) }
      (.handler h (.cancelling w)) none := by
  obtain ⟨huid, hne⟩ := hok.claimed_uid rfl
  have hown : σ.conns h.uid = some h.session := (inv.conns _ _).mpr ⟨hne, huid⟩
  refine .of_handler { inv with released := ?_, begun := ?_, binder := ?_, bound := ?_ }
    ?_ ?_ fun _ => rfl
  · intro s hs
    obtain ⟨hq, hu⟩ := inv.released s hs
    exact ⟨{ hq with }, hu⟩
  · intro s hs
    exact { inv.begun s hs with }
  · intro x s hs
    by_cases hx : x = h.uid
    · subst hx
      simp only [Function.update_self] at hs
      cases hs
      exact hown
    · simp only [Function.update_of_ne hx] at hs
      exact inv.binder x s hs
  · intro x v hv
    by_cases hx : x = h.uid
    · subst hx
      simp only [Registry.bindInstance, Function.update_self] at hv ⊢
      cases hv
      exact ⟨hw, _, rfl⟩
    · simp only [Registry.bindInstance, Function.update_of_ne hx] at hv ⊢
      exact inv.bound x v hv
  · refine .handler hok.handler_lease (fun _ => hok.handler_gate rfl) (fun _ => ⟨huid, hne⟩) ?_
    rintro v ⟨⟩
    exact Function.update_self _ _ _
  · refine { Change.refl σ _ with bound := fun x => ?_ }
    by_cases hx : x = h.uid
    · subst hx
      exact .inr ⟨h.session, huid, .inl rfl⟩
    · exact .inl (Function.update_of_ne hx _ _)

theorem good_accept (inv : Inv σ) (hok : Ok σ (.handler h .accepted)) :
    Good σ (.handler h .accepted) (h.accept σ).1 (.handler h (h.accept σ).2) none := by
  unfold Handler.accept
  split
  · exact good_bind inv hok (fingerprint_id_ne_empty _ _) _
  split
  · next w hw =>
    have hok' : Ok σ (.handler h (.touching w)) := by
      refine .handler hok.handler_lease (fun _ => hok.handler_gate rfl)
        (fun _ => hok.claimed_uid rfl) ?_
      rintro v ⟨⟩
      exact hw
    exact .of_handler inv hok' ((Change.of_owners rfl).weaken _) fun _ => rfl
  · exact .handler_same inv hok rfl (.unclaimed rfl fun _ => rfl)

theorem good_report (inv : Inv σ) (hok : Ok σ (.handler h (.reporting w))) (now : Push.Time) :
    Good σ (.handler h (.reporting w)) (h.report σ w now).1 (.handler h (h.report σ w now).2)
      none := by
  unfold Handler.report
  split
  · exact .handler_same inv hok rfl (.unclaimed rfl fun _ => rfl)
  split
  · exact .handler_same inv hok rfl (.unclaimed rfl fun _ => rfl)
  · exact .handler_same inv hok rfl (.keeps rfl rfl rfl)

theorem good_unlocking (inv : Inv σ) {disconnect : Bool}
    (hok : Ok σ (.handler h (.unlocking disconnect))) (hg : stage.inGate = false) :
    Good σ (.handler h (.unlocking disconnect))
      (σ.setInfo h.session fun i =>
        { i with gate := false, terminal := i.terminal || disconnect })
      (.handler h stage) none where
  inv := inv.setInfo (fun _ => rfl) (fun _ => rfl) (.inl fun _ => rfl)
  ok := by
    refine .handler_of_lease hg ⟨hok.handler_lease.1, fun s => ?_⟩
    rw [setInfo_info]
    split <;> exact hok.handler_lease.2 s
  change := .of_setInfo (fun _ => rfl) (fun _ => rfl) (.inl rfl)
  lease l hl := .inl hl
  gate s hs := by simp [Thread.gate, hg] at hs
  started _ hn := nomatch hn

theorem Inv.release (inv : Inv σ) (hl : ∀ s, (σ.info s).httpLease ≠ some l) :
    Inv { σ with tokens := σ.tokens.release l } := by
  have hstep : σ.tokens.step (.release l) = some (σ.tokens.release l) := rfl
  have hc : Change σ { σ with tokens := σ.tokens.release l } (.autoPush l) := .of_release rfl
  refine inv.keep (fun s hq => hq.change hc) (inv.tokens.step hstep) ?_ inv.tracked ?_
    (fun s => rfl) (fun s hs => .inl hs) rfl rfl rfl rfl
  · exact fun k hk => inv.leaseIDs k (List.mem_filter.mp hk).1
  · intro s k hk
    have hne : k ≠ l := by
      rintro rfl
      exact hl s hk
    exact ⟨hk, List.mem_filter.mpr ⟨(inv.http s k hk).1, decide_eq_true hne⟩⟩

theorem good_release {t t' : Thread} (inv : Inv σ) (hok : Ok σ t) (hl : t.lease = some l)
    (ht' : t' = .closer .disconnect l.session .removing ∨ t' = .finished) :
    Good σ t { σ with tokens := σ.tokens.release l } t' none := by
  have hinv := inv.release (hok.lease l hl).2
  rcases ht' with rfl | rfl
  · exact .of_closer hinv (.of_release hl) (inv.connected_of_lease (hok.lease l hl).1) rfl
      (fun h => nomatch h) fun h => nomatch h
  · exact .of_free hinv (.finished _) (.of_release hl) rfl rfl

/-- A plain HTTP connection keeps the lease until the reply is flushed. -/
theorem good_retain (inv : Inv σ) (hok : Ok σ (.handler h .replying)) :
    Good σ (.handler h .replying)
      (σ.setInfo h.session fun i => { i with httpLease := some h.lease }) .finished none := by
  have huid := setInfo_field (σ := σ) (f := fun i => { i with httpLease := some h.lease })
    SessionInfo.uid (fun _ => rfl) h.session
  have hhttp : ∀ s l, ((σ.setInfo h.session fun i =>
      { i with httpLease := some h.lease }).info s).httpLease = some l →
      (σ.info s).httpLease = some l ∨ (s = h.session ∧ l = h.lease) := by
    intro s l hl
    rw [setInfo_info] at hl
    split at hl
    · next hs => exact .inr ⟨hs, (Option.some.inj hl).symm⟩
    · exact .inl hl
  refine ⟨{ inv with http := ?_, conns := ?_, released := ?_, begun := ?_ }, .finished _, ?_, fun _ hl => (nomatch hl), fun _ hs => (nomatch hs), fun _ hn => nomatch hn⟩
  · intro s l hl
    rcases hhttp s l hl with hl | ⟨rfl, rfl⟩
    · exact inv.http s l hl
    · exact ⟨hok.handler_lease.1, rfl⟩
  · intro x s
    rw [huid]
    exact inv.conns x s
  · intro s hs
    obtain ⟨hq, hu⟩ := inv.released s hs
    exact ⟨{ hq with }, (huid s).trans hu⟩
  · intro s hs
    have hq := inv.begun s (by
      rw [setInfo_info] at hs
      split at hs <;> exact hs)
    exact { hq with }
  · refine { Change.refl σ _ with http := ?_, gate := ?_, uid := fun s => .inl (huid s) }
    · intro s l hl
      rcases hhttp s l hl with hl | ⟨-, rfl⟩
      · exact .inl hl
      · exact .inr rfl
    · intro s hs
      rw [setInfo_info]
      split <;> exact .inr hs

theorem Inv.grant (inv : Inv σ) {s : Session} {a : Token.Action}
    (hstep : σ.tokens.step a = some (σ.tokens.grant s).1) (hs : s ∈ σ.tokens.sessions) :
    Inv { σ with tokens := (σ.tokens.grant s).1 } ∧
      (⟨σ.tokens.nextLease, s⟩ : Lease) ∉ σ.tokens.leases ∧
      ∀ x, (σ.info x).httpLease ≠ some ⟨σ.tokens.nextLease, s⟩ := by
  have hfresh : (⟨σ.tokens.nextLease, s⟩ : Lease) ∉ σ.tokens.leases := fun hl =>
    absurd (inv.leaseIDs _ hl) (lt_irrefl _)
  refine ⟨?_, hfresh, fun x hx => hfresh (inv.http x _ hx).1⟩
  refine inv.keep (fun x hq => hq.change (.of_grant hs)) (inv.tokens.step hstep) ?_ inv.tracked ?_
    (fun x => rfl) (fun x hx => .inl hx) rfl rfl rfl rfl
  · intro l hl
    rcases List.mem_cons.mp hl with rfl | hl
    · exact Nat.lt_succ_self _
    · exact Nat.lt_succ_of_lt (inv.leaseIDs l hl)
  · exact fun x l hl => ⟨hl, List.mem_cons_of_mem _ (inv.http x l hl).1⟩

theorem good_fork (inv : Inv σ) (hok : Ok σ (.handler h (.forking w))) :
    Good σ (.handler h (.forking w)) { σ with tokens := (σ.tokens.fork h.session).1 }
      (.handler h (.reporting w)) ((σ.tokens.fork h.session).2.map Thread.autoPush) := by
  have hstep : σ.tokens.step (.fork h.session) = some (σ.tokens.fork h.session).1 := rfl
  rcases Manager.fork_spec σ.tokens h.session with ⟨hs, heq⟩ | heq
  · rw [heq] at hstep ⊢
    obtain ⟨hinv, hfresh, hhttp⟩ := inv.grant hstep hs
    have hbase : Good σ (.handler h (.forking w))
        { σ with tokens := (σ.tokens.grant h.session).1 } (.handler h (.reporting w)) none :=
      .handler inv hok hinv (.of_grant hs) (.keeps rfl rfl rfl)
    refine ⟨hbase.inv, hbase.ok, hbase.change, hbase.lease, hbase.gate, ?_⟩
    rintro n ⟨⟩
    refine ⟨.of_lease ⟨List.mem_cons_self, hhttp⟩ (.inr (.inr rfl)), ⟨?_, ?_⟩, rfl, ?_⟩
    · intro l hl hn
      have hsame := (Option.some.inj hn).trans (Option.some.inj hl).symm
      exact hfresh (hsame ▸ hok.handler_lease.1)
    · exact fun s _ hn => nomatch hn
    · rintro l ⟨⟩
      exact hfresh
  · rw [heq]
    exact .handler_same inv hok rfl (.keeps rfl rfl rfl)

theorem good_upsert {stage' : HandlerStage} (inv : Inv σ) (hok : Ok σ (.handler h stage))
    (ok : Bool) (w : String) (row : Workload) (hs : stage'.Within stage) :
    Good σ (.handler h stage) (σ.upsertWorkload ok w row) (.handler h stage') none := by
  unfold Shared.upsertWorkload
  split <;> exact .handler_same inv hok rfl hs

theorem good_handler {σ' : Shared} {t' : Thread} {new : Option Thread} (inv : Inv σ)
    (hok : Ok σ (.handler h stage)) (hm : resumeHandler σ h stage c = some (σ', t', new)) :
    Good σ (.handler h stage) σ' t' new := by
  cases stage with
  | locking =>
    simp only [resumeHandler] at hm
    split at hm
    · cases hm
    next hg =>
    split at hm
    · cases hm
      exact .handler_same inv hok rfl (.unclaimed rfl id)
    · cases hm
      exact good_locking inv hok (by simpa using hg)
  | claiming =>
    cases hm
    exact good_claim inv hok
  | marking =>
    cases hm
    split
    · exact .handler_same inv hok rfl (.keeps rfl rfl rfl)
    · exact .handler_same inv hok rfl (.unclaimed rfl fun _ => rfl)
  | admitting =>
    cases hm
    exact good_setAdmitted inv hok
  | accepted =>
    cases hm
    exact good_accept inv hok
  | cancelling w | describing w | aggregating w prev | touching w | refreshAggregating w row =>
    cases hm
    exact .handler_same inv hok rfl (.keeps rfl rfl rfl)
  | upserting w row =>
    cases hm
    split <;> exact good_upsert inv hok _ _ _ (.keeps rfl rfl rfl)
  | clearing w | launching w row =>
    cases hm
    dsimp only
    split <;> exact .handler_same inv hok rfl (.keeps rfl rfl rfl)
  | refreshing w =>
    simp only [resumeHandler] at hm
    split at hm <;> cases hm <;>
      exact .handler_same inv hok rfl (.keeps rfl rfl rfl)
  | refreshUpserting w row =>
    cases hm
    exact good_upsert inv hok _ _ _ (.keeps rfl rfl rfl)
  | forking w =>
    cases hm
    exact good_fork inv hok
  | reporting w =>
    cases hm
    exact good_report inv hok c.now
  | reportReading w snap =>
    simp only [resumeHandler] at hm
    split at hm
    · cases hm
      exact .handler_same inv hok rfl (.unclaimed rfl fun _ => rfl)
    · cases hm
      exact .handler_same inv hok rfl (.keeps rfl rfl rfl)
  | reportUpserting w row =>
    cases hm
    exact good_upsert inv hok _ _ _ (.unclaimed rfl fun _ => rfl)
  | unlocking disconnect =>
    cases hm
    exact good_unlocking inv hok (by cases disconnect <;> rfl)
  | releasing disconnect =>
    cases hm
    refine good_release inv hok rfl ?_
    cases disconnect
    · exact .inr rfl
    · exact .inl rfl
  | replying =>
    have hnext : ∀ d, Good σ (.handler h .replying) σ (.handler h (.releasing d)) none := fun d =>
      .handler_same inv hok rfl (.unclaimed rfl id)
    simp only [resumeHandler] at hm
    split at hm
    · cases hm
      exact hnext false
    · cases hm
      exact hnext true
    · split at hm
      · cases hm
        exact good_retain inv hok
      · cases hm
        exact hnext true

end OtelMagnify.Server
