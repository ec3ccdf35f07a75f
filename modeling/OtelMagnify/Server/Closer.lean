import OtelMagnify.Server.Handler

/-! The steps of the closers, of the pushes, of the timers and of the environment keep the
ownership of leases, gates, uids and bindings; with the handlers' steps this makes ownership an
invariant of the server. -/
namespace OtelMagnify.Server
open Push Token

variable {σ σ' : Shared} {t t' : Thread} {new : Option Thread} {c : Choice}
  {kind : Closing} {s : Session}

theorem Inv.stepTokens (inv : Inv σ) {a : Token.Action} {m : Manager}
    (h : σ.tokens.step a = some m) (hframe : σ.tokens.SameLeases m) :
    Inv { σ with tokens := m } := by
  obtain ⟨hleases, hnext, htracked⟩ := hframe
  refine inv.keep (fun s hq => hq.change (.of_tokens inv h ⟨hleases, hnext, htracked⟩))
    (inv.tokens.step h) ?_ ?_ ?_ (fun s => rfl) (fun s hs => .inl hs) rfl rfl rfl rfl
  · simp only [hleases, hnext]
    exact inv.leaseIDs
  · simp only [htracked]
    exact inv.tracked
  · intro s l hl
    simp only [hleases]
    exact ⟨hl, (inv.http s l hl).1⟩

theorem good_finish_tokens (inv : Inv σ) {a : Token.Action} {m : Manager}
    (h : σ.tokens.step a = some m) (hframe : σ.tokens.SameLeases m) :
    Good σ t { σ with tokens := m } .finished none :=
  .finish (inv.stepTokens h hframe) (.of_tokens inv h hframe)

variable {stage : CloserStage} {l : Lease}

theorem good_removing (inv : Inv σ) (hok : Ok σ (.closer kind s .removing)) (now : Token.Time)
    (hl : (Thread.closer kind s stage).lease = none) (hq : stage.isQuiet = false) :
    Good σ (.closer kind s .removing) { σ with tokens := σ.tokens.remove s now }
      (.closer kind s stage) none := by
  have hstep : σ.tokens.step (.remove s now) = some (σ.tokens.remove s now) := rfl
  have hc : Change σ { σ with tokens := σ.tokens.remove s now } .finished :=
    .of_tokens inv hstep (Manager.step_frame rfl rfl hstep)
  have hout : s ∉ (σ.tokens.remove s now).sessions := by
    refine Manager.not_mem_sessions_remove (inv.tokens.valid s) fun hstop => ?_
    obtain ⟨x, hx⟩ := Option.isSome_iff_exists.mp hstop
    exact inv.tokens.blocked .stop x.drain (by simp [Manager.drainOf, hx]) s trivial
  refine .of_closer (inv.stepTokens hstep (Manager.step_frame rfl rfl hstep)) (hc.weaken _)
    hok.closer_connected hl (fun _ => hout) fun h => ?_
  rw [hq] at h
  cases h

/-- `finishHTTPResponse` takes the reply out of the session. -/
theorem good_finishing (inv : Inv σ) (hok : Ok σ (.closer kind s .finishing))
    (hl : (σ.info s).httpLease = some l) :
    Good σ (.closer kind s .finishing) (σ.setInfo s fun i => { i with httpLease := none })
      (.closer kind s (.responding l)) none := by
  have huid := setInfo_field (σ := σ) (f := fun i => { i with httpLease := none })
    SessionInfo.uid (fun _ => rfl) s
  have hhttp : ∀ x k, ((σ.setInfo s fun i => { i with httpLease := none }).info x).httpLease =
      some k → (σ.info x).httpLease = some k ∧ x ≠ s := by
    intro x k hk
    rw [setInfo_info] at hk
    split at hk
    · cases hk
    · next hx => exact ⟨hk, hx⟩
  have hc : Change σ (σ.setInfo s fun i => { i with httpLease := none }) .finished := by
    refine { Change.refl σ _ with
      http := fun x k hk => .inl (hhttp x k hk).1
      gate := fun x hx => ?_
      uid := fun x => .inl (huid x) }
    rw [setInfo_info]
    split <;> exact .inr hx
  have hinv : Inv (σ.setInfo s fun i => { i with httpLease := none }) :=
    inv.keep (fun x hq => hq.change hc) inv.tokens inv.leaseIDs inv.tracked
      (fun x k hk => ⟨(hhttp x k hk).1, (inv.http x k (hhttp x k hk).1).1⟩) huid
      (fun x hx => by
        rw [setInfo_info] at hx
        split at hx <;> exact .inl hx) rfl rfl rfl rfl
  refine ⟨hinv, ⟨?_, fun _ h => (nomatch h), fun _ _ h => (nomatch h), fun _ _ h => (nomatch h),
    ?_, ?_, fun _ h => (nomatch h)⟩, hc.weaken _, ?_, fun _ h => (nomatch h),
    fun _ hn => nomatch hn⟩
  · rintro k ⟨⟩
    refine ⟨(inv.http s l hl).1, fun x hx => (hhttp x l hx).2 ?_⟩
    exact ((inv.http x l (hhttp x l hx).1).2).symm.trans (inv.http s l hl).2
  · rintro x ⟨⟩
    exact hok.closer_connected
  · rintro x ⟨⟩
    exact hok.closer_detached rfl
  · rintro k ⟨⟩
    exact .inr (.inr ⟨s, hl⟩)

theorem good_responding (inv : Inv σ) (hok : Ok σ (.closer kind s (.responding l))) :
    Good σ (.closer kind s (.responding l)) { σ with tokens := σ.tokens.release l }
      (.closer kind s .draining) none :=
  .of_closer (inv.release (hok.lease l rfl).2) (.of_release rfl) hok.closer_connected rfl
    (fun _ => hok.closer_detached rfl) fun h => nomatch h

theorem Inv.quiet_of_drained (inv : Inv σ) (hc : s ∈ σ.connected) (hs : s ∉ σ.tokens.sessions)
    (hd : ∀ b, σ.tokens.removals.state s ≠ some (.draining b)) : σ.Quiet s :=
  ⟨hc, hs, Manager.not_isLeased_of_not_mem (inv.tokens.valid s) hs hd⟩

theorem Closing.after_lease (kind : Closing) (s : Session) :
    (Thread.closer kind s kind.afterDrain).lease = none ∧
      (Thread.closer kind s kind.afterRelease).lease = none ∧
      (Thread.closer kind s kind.afterDisconnect).lease = none := by
  cases kind <;> exact ⟨rfl, rfl, rfl⟩

theorem Inv.unbindInstance (inv : Inv σ) (u : String) :
    (σ.registry.unbindInstance u).1.uidToWL = Function.update σ.registry.uidToWL u none ∧
      (σ.registry.unbindInstance u).2 = (σ.registry.uidToWL u).getD "" :=
  Registry.uidToWL_unbindInstance fun h => (inv.bound u "" h).1 rfl

/-- What the locked section of a release leaves when the session is the owner of its uid. -/
def Shared.disown (σ : Shared) (s : Session) : Shared :=
  { σ.setInfo s fun i => { i with uid := "", admitted := false } with
    conns := Function.update σ.conns (σ.info s).uid none
    registry := (σ.registry.unbindInstance (σ.info s).uid).1
    binder := Function.update σ.binder (σ.info s).uid none
    released := s :: σ.released }

theorem disown_info_of_ne {x : Session} (hx : x ≠ s) : (σ.disown s).info x = σ.info x :=
  Function.update_of_ne hx _ _

theorem disown_info_self :
    (σ.disown s).info s = { σ.info s with uid := "", admitted := false } :=
  Function.update_self _ _ _

theorem disown_keeps (x : Session) :
    ((σ.disown s).info x).httpLease = (σ.info x).httpLease ∧
      ((σ.disown s).info x).gate = (σ.info x).gate ∧
      ((σ.disown s).info x).releaseOnce = (σ.info x).releaseOnce := by
  by_cases hx : x = s
  · subst hx
    rw [disown_info_self]
    exact ⟨rfl, rfl, rfl⟩
  · rw [disown_info_of_ne hx]
    exact ⟨rfl, rfl, rfl⟩

theorem disown_uid (x : Session) :
    ((σ.disown s).info x).uid = if x = s then "" else (σ.info x).uid := by
  by_cases hx : x = s
  · subst hx
    rw [disown_info_self, if_pos rfl]
  · rw [disown_info_of_ne hx, if_neg hx]

/-- A quiet session gives up its uid and its binding, and no other session is concerned. -/
theorem Change.disown (inv : Inv σ) (hquiet : σ.Quiet s) : Change σ (σ.disown s) .finished := by
  refine { Change.refl σ .finished with
    http := fun x l hx => .inl ((disown_keeps x).1.symm.trans hx)
    gate := fun x hx => .inr ((disown_keeps x).2.1.trans hx)
    uid := fun x => ?_
    bound := fun x => ?_ }
  · rw [disown_uid]
    split
    · next hx => exact .inr (.inr (hx ▸ hquiet))
    · exact .inl rfl
  · by_cases hx : x = (σ.info s).uid
    · exact .inr ⟨s, hx.symm, .inr hquiet⟩
    · refine .inl ?_
      simp only [Shared.disown, (inv.unbindInstance (σ.info s).uid).1, Function.update_of_ne hx]

theorem Inv.disown (inv : Inv σ) (hquiet : σ.Quiet s) (hne : (σ.info s).uid ≠ "") :
    Inv (σ.disown s) where
  tokens := inv.tokens
  leaseIDs := inv.leaseIDs
  tracked := inv.tracked
  http x l hx := inv.http x l ((disown_keeps x).1.symm.trans hx)
  conns x u := by
    rw [disown_uid]
    by_cases hx : x = (σ.info s).uid
    · subst hx
      simp only [Shared.disown, Function.update_self]
      refine iff_of_false (Option.some_ne_none u).symm fun h => ?_
      split at h
      · exact hne h.2.symm
      · next hu => exact hu (inv.uid_inj hne h.2 rfl)
    · simp only [Shared.disown, Function.update_of_ne hx, inv.conns]
      split
      · next hu =>
        subst hu
        exact iff_of_false (fun h => hx h.2.symm) fun h => h.1 h.2.symm
      · rfl
  released x hx := by
    rw [disown_uid]
    rcases List.mem_cons.mp hx with rfl | hx
    · exact ⟨hquiet.change (.disown inv hquiet), if_pos rfl⟩
    · obtain ⟨hq, hu⟩ := inv.released x hx
      refine ⟨hq.change (.disown inv hquiet), ?_⟩
      split
      · rfl
      · exact hu
  begun x hx := by
    rw [(disown_keeps x).2.2] at hx
    exact (inv.begun x hx).change (.disown inv hquiet)
  binder x u hu := by
    by_cases hx : x = (σ.info s).uid
    · subst hx
      simp only [Shared.disown, Function.update_self] at hu
      cases hu
    · simp only [Shared.disown, Function.update_of_ne hx] at hu ⊢
      exact inv.binder x u hu
  bound x w hw := by
    simp only [Shared.disown, (inv.unbindInstance (σ.info s).uid).1] at hw ⊢
    by_cases hx : x = (σ.info s).uid
    · subst hx
      rw [Function.update_self] at hw
      cases hw
    · simp only [Function.update_of_ne hx] at hw ⊢
      exact inv.bound x w hw

theorem good_unbind (inv : Inv σ) (hok : Ok σ (.closer kind s .unbinding)) :
    Good σ (.closer kind s .unbinding) (σ.unbind s).1 (.closer kind s (σ.unbind s).2) none := by
  have hquiet := hok.closer_quiet rfl
  unfold Shared.unbind
  dsimp only
  split
  · next hnot =>
    have huid : (σ.info s).uid = "" := by
      by_contra hne
      exact hnot.elim hne fun h => h ((inv.conns _ _).mpr ⟨hne, rfl⟩)
    have hc : Change σ { σ with released := s :: σ.released } .finished := .of_eq rfl rfl rfl rfl
    refine .closer inv hok ?_ hc rfl (fun _ => rfl) fun _ => rfl
    refine { inv with released := fun x hx => ?_, begun := fun x hx => (inv.begun x hx).change hc }
    rcases List.mem_cons.mp hx with rfl | hx
    · exact ⟨hquiet.change hc, huid⟩
    · exact ⟨(inv.released x hx).1.change hc, (inv.released x hx).2⟩
  · next hown =>
    have hne : (σ.info s).uid ≠ "" := fun h => hown (.inl h)
    have hgood {stage : CloserStage} (hl : (Thread.closer kind s stage).lease = none) :
        Good σ (.closer kind s .unbinding) (σ.disown s) (.closer kind s stage) none :=
      .closer inv hok (inv.disown hquiet hne) (.disown inv hquiet) hl (fun _ => rfl) fun _ => rfl
    split
    · exact hgood rfl
    · exact hgood rfl

theorem good_once (inv : Inv σ) {stage' : CloserStage}
    (hok : Ok σ (.closer kind s stage)) (f : SessionInfo → SessionInfo)
    (hf : ∀ i, (f i).uid = i.uid ∧ (f i).httpLease = i.httpLease ∧ (f i).gate = i.gate)
    (hl : (Thread.closer kind s stage').lease = none) (hd : stage.isDetached = true)
    (hq : stage.isQuiet = true) :
    Good σ (.closer kind s stage) (σ.setInfo s f) (.closer kind s stage') none :=
  .closer inv hok
    (inv.setInfo (fun i => (hf i).1) (fun i => (hf i).2.1) (.inr (hok.closer_quiet hq)))
    (.of_setInfo (fun i => (hf i).1) (fun i => (hf i).2.1)
      (.inr fun i hi => (hf i).2.2.trans hi)) hl (fun _ => hd) fun _ => hq

theorem good_closer (inv : Inv σ) (hok : Ok σ (.closer kind s stage))
    (hm : resumeCloser σ kind s stage c = some (σ', t', new)) :
    Good σ (.closer kind s stage) σ' t' new := by
  cases stage with
  | removing =>
    cases hm
    split <;> exact good_removing inv hok c.now rfl rfl
  | finishing =>
    simp only [resumeCloser] at hm
    split at hm <;> cases hm
    · exact .closer_same inv hok rfl (fun _ => rfl) fun h => nomatch h
    · next l hl => exact good_finishing inv hok hl
  | responding l =>
    cases hm
    exact good_responding inv hok
  | draining =>
    cases hm
    split
    · exact .closer_same inv hok rfl (fun _ => rfl) fun h => nomatch h
    · next hi =>
      refine .closer_same inv hok (kind.after_lease s).1 (fun _ => rfl)
        fun _ => inv.quiet_of_drained hok.closer_connected (hok.closer_detached rfl) fun b hb => ?_
      exact hi ((σ.tokens.removals.mem_index s).mpr ⟨_, hb, rfl⟩)
  | awaiting =>
    simp only [resumeCloser] at hm
    split at hm <;> cases hm
    next hnot =>
      exact .closer_same inv hok (kind.after_lease s).1 (fun _ => rfl) fun _ =>
        inv.quiet_of_drained hok.closer_connected (hok.closer_detached rfl) hnot
  | disconnecting =>
    simp only [resumeCloser] at hm
    split at hm <;> cases hm
    · exact good_once inv hok _ (fun _ => ⟨rfl, rfl, rfl⟩) rfl rfl rfl
    · exact .closer_same inv hok (kind.after_lease s).2.2 (fun _ => rfl)
        fun _ => hok.closer_quiet rfl
  | releasing =>
    simp only [resumeCloser] at hm
    split at hm <;> cases hm
    · exact good_once inv hok _ (fun _ => ⟨rfl, rfl, rfl⟩) rfl rfl rfl
    · exact .closer_same inv hok (kind.after_lease s).2.1 (fun _ => rfl)
        fun _ => hok.closer_quiet rfl
  | unbinding =>
    cases hm
    exact good_unbind inv hok
  | counting w =>
    cases hm
    split <;> exact .closer_same inv hok rfl (fun _ => rfl) fun _ => hok.closer_quiet rfl
  | scheduling w =>
    cases hm
    exact .closer inv hok (inv.of_owners rfl) (.of_owners rfl) rfl (fun _ => rfl) fun _ => rfl
  | releaseDone =>
    cases hm
    dsimp only
    exact good_once inv hok _ (fun _ => ⟨rfl, rfl, rfl⟩) (kind.after_lease s).2.1 rfl rfl
  | disconnectDone =>
    cases hm
    dsimp only
    exact good_once inv hok _ (fun _ => ⟨rfl, rfl, rfl⟩) (kind.after_lease s).2.2 rfl rfl
  | completing =>
    obtain ⟨m, hstep, hm⟩ := Option.map_eq_some_iff.mp hm
    cases hm
    have hframe := Manager.step_frame rfl rfl hstep
    split
    · exact .closer inv hok (inv.stepTokens hstep hframe) (.of_tokens inv hstep hframe) rfl
        (fun _ => rfl) fun _ => rfl
    · exact good_finish_tokens inv hstep hframe
  | cleaning =>
    obtain ⟨m, hstep, hm⟩ := Option.map_eq_some_iff.mp hm
    cases hm
    exact good_finish_tokens inv hstep (Manager.step_frame rfl rfl hstep)
  | returning =>
    simp only [resumeCloser] at hm
    split at hm
    · obtain ⟨m, hstep, hm⟩ := Option.map_eq_some_iff.mp hm
      cases hm
      exact good_finish_tokens inv hstep (Manager.step_frame rfl rfl hstep)
    · cases hm

theorem good_acquire (inv : Inv σ) (hgate : t'.gate = none)
    (hl : (σ.tokens.acquire s c.now).2 = some l) (ht' : t'.lease = some l)
    (hok : ∀ σ : Shared, (l ∈ σ.tokens.leases ∧ ∀ x, (σ.info x).httpLease ≠ some l) → Ok σ t') :
    Good σ t { σ with tokens := (σ.tokens.acquire s c.now).1 } t' none := by
  have hstep : σ.tokens.step (.acquire s c.now) = some (σ.tokens.acquire s c.now).1 := rfl
  rcases Manager.acquire_spec σ.tokens s c.now with ⟨hs, heq⟩ | ⟨hnone, -⟩
  · rw [heq] at hl hstep ⊢
    cases hl
    obtain ⟨hinv, hfresh, hhttp⟩ := inv.grant hstep hs
    refine ⟨hinv, hok _ ⟨List.mem_cons_self, hhttp⟩, (Change.of_grant hs).weaken t, ?_, ?_,
      fun _ hn => nomatch hn⟩
    · intro k hk
      rw [ht'] at hk
      cases hk
      exact .inr (.inl hfresh)
    · intro x hx
      rw [hgate] at hx
      cases hx
  · rw [hnone] at hl
    cases hl

theorem good_denied (inv : Inv σ) (hl : (σ.tokens.acquire s c.now).2 = none) :
    Good σ t { σ with tokens := (σ.tokens.acquire s c.now).1 } .finished none := by
  have hstep : σ.tokens.step (.acquire s c.now) = some (σ.tokens.acquire s c.now).1 := rfl
  rcases Manager.acquire_spec σ.tokens s c.now with ⟨-, heq⟩ | ⟨-, hframe⟩
  · rw [heq] at hl
    cases hl
  · exact good_finish_tokens inv hstep hframe

theorem Ok.idle (hl : t.lease = none) (hg : t.gate = none) (hcl : t.claim = none)
    (hb : t.bound = none) (hs : t.closes = none) (hd : t.detached = none) (hq : t.quiet = none) :
    Ok σ t := by
  constructor <;> intros <;> simp_all

theorem good_idle (hinv : Inv σ') (hc : Change σ σ' .finished)
    (ht' : (∃ x, t' = .acquiring x) ∨ (∃ w, t' = .graceMark w) ∨ t' = .finished) :
    Good σ t σ' t' none := by
  rcases ht' with ⟨x, rfl⟩ | ⟨w, rfl⟩ | rfl <;>
    exact .of_free hinv (.idle rfl rfl rfl rfl rfl rfl rfl) (hc.weaken t) rfl rfl

theorem good_resume (inv : Inv σ) (hok : Ok σ t) (hm : resume σ t c = some (σ', t', new)) :
    Good σ t σ' t' new := by
  have hsame : Change σ σ .finished := .of_owners rfl
  cases t with
  | arriving s msg sameConn =>
    cases hm
    cases hl : (σ.tokens.acquire s c.now).2 with
    | none => exact good_denied inv hl
    | some l => exact good_acquire inv rfl hl rfl fun σ hl => .handler_of_lease rfl hl
  | handler h stage => exact good_handler inv hok hm
  | closer kind s stage => exact good_closer inv hok hm
  | lookingUp uid =>
    cases hm
    refine good_idle inv hsame ?_
    cases hc : σ.conns uid with
    | none => exact .inr (.inr rfl)
    | some x => exact .inl ⟨x, rfl⟩
  | acquiring s =>
    cases hm
    cases hl : (σ.tokens.acquire s c.now).2 with
    | none => exact good_denied inv hl
    | some l => exact good_acquire inv rfl hl rfl fun σ hl => .of_lease hl (.inl rfl)
  | sending l =>
    cases hm
    exact ⟨inv, .of_lease (hok.lease l rfl) (.inr (.inl ⟨_, rfl⟩)), hsame.weaken _,
      fun k hk => .inl hk, fun _ h => (nomatch h), fun _ hn => nomatch hn⟩
  | sent l failed =>
    cases hm
    refine good_release inv hok rfl ?_
    cases failed
    · exact .inr rfl
    · exact .inl rfl
  | autoPush l =>
    cases hm
    exact good_release inv hok rfl (.inr rfl)
  | graceCheck w =>
    cases hm
    refine good_idle inv hsame ?_
    split
    · exact .inr (.inr rfl)
    · exact .inr (.inl ⟨w, rfl⟩)
  | graceMark w =>
    cases hm
    split
    · exact .finish (inv.of_owners rfl) (.of_owners rfl)
    · exact .finish inv hsame
  | finished => cases hm

end OtelMagnify.Server
