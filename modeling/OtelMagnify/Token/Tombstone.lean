import OtelMagnify.Token.Drain

/-! Tombstones. A disabled token and a stopped manager admit no session again: this and the
soundness of every drain are kept by every step. -/
namespace OtelMagnify.Token

namespace Manager

variable {m m' : Manager} {a : Action}

/-- What a step does to the tombstones, the drains and the `Disable` calls. -/
inductive Effect (m m' : Manager) : Prop
  | quiet
    (hsessions : ∀ s ∈ m'.sessions,
      s ∈ m.sessions ∨ m.isDisabled s.tokenID = false ∧ m.isStopped = false)
    (hdisable : m'.disableStates = m.disableStates) (hstop : m'.stopState = m.stopState)
    (hreturned : m'.returned = m.returned)
    (hcalls : ∀ c ∈ m'.disableCalls, c ∈ m.disableCalls ∨
      c.awaits = .disable c.tokenID ∨ c.awaits = .stop)
  | disabled (tokenID : String) (runs : List ExpiryRun) (calls : List DisableCall)
    (hnew : m.isDisabled tokenID = false)
    (hcalls : ∀ c ∈ calls, c ∈ m.disableCalls ∨ c.awaits = .disable c.tokenID)
    (h : m' = { (m.beginDisable tokenID).1 with expiryRuns := runs, disableCalls := calls })
  | stopped (hnew : m.isStopped = false) (h : m' = m.beginStop)
  | drained (target : DrainTarget) (d : Drain) (s : Session) (p : Manager × Drain)
    (hd : m.drainOf target = some d) (hp : m.drainSession d s = some p)
    (h : m' = p.1.setDrain p.2 target)
  | advanced (target : DrainTarget) (d d' : Drain) (hd : m.drainOf target = some d)
    (hn : d.next = some d') (h : m' = m.setDrain d' target)
  | closed (target : DrainTarget) (h : m.closeDrain target = some m')
  | returned (call : DisableCall) (hcall : call ∈ m.disableCalls)
    (hclosed : m.isClosed call.awaits = true)
    (h : m' = { m with
      disableCalls := m.disableCalls.erase call
      returned := call.tokenID :: m.returned })

theorem step_effect (h : m.step a = some m') : Effect m m' := by
  cases step_move h with
  | idle _ hcalls => exact .quiet (fun _ h => .inl h) rfl rfl rfl hcalls
  | track hstop hdis _ =>
    refine .quiet (fun u hu => ?_) rfl rfl rfl fun _ h => .inl h
    rcases IndexedSet.mem_insert.mp hu with rfl | h
    · exact .inr ⟨hdis, hstop⟩
    · exact .inl h
  | remove =>
    exact .quiet (fun u hu => .inl (IndexedSet.mem_erase.mp hu).1) rfl rfl rfl fun _ h => .inl h
  | disable _ _ hnew hcalls => exact .disabled _ _ _ hnew hcalls rfl
  | stop hnew => exact .stopped hnew rfl
  | returnDisable hcall hclosed => exact .returned _ hcall hclosed rfl
  | drainSession hd hp => exact .drained _ _ _ _ hd hp rfl
  | drainNext hd hn => exact .advanced _ _ _ hd hn rfl
  | closeDrain h => exact .closed _ h
  | _ => exact .quiet (fun _ h => .inl h) rfl rfl rfl fun _ h => .inl h

variable {tokenID : String} {d d' : Drain} {s : Session} {target : DrainTarget}

theorem isDisabled_eq_false_iff :
    m.isDisabled tokenID = false ↔ m.drainOf (.disable tokenID) = none := by
  simp [isDisabled, drainOf]

theorem isStopped_eq_false_iff : m.isStopped = false ↔ m.drainOf .stop = none := by
  simp [isStopped, drainOf]

/-- The tombstones keep the sessions they cover out, the drains are sound, and a `Disable` has
returned only after a drain that covers its token was closed. -/
structure Inv (m : Manager) : Prop where
  valid : ∀ s, (m.view s).Valid
  blocked : ∀ target d, m.drainOf target = some d → ∀ s, target.Covers s → s ∉ m.sessions
  sound : ∀ target d, m.drainOf target = some d → d.Sound m target
  closed : ∀ target, m.isClosed target = true → ∃ d, m.drainOf target = some d ∧ d.phase = .joined
  calls : ∀ c ∈ m.disableCalls, c.awaits = .disable c.tokenID ∨ c.awaits = .stop
  returned : ∀ t ∈ m.returned, m.isClosed (.disable t) = true ∨ m.isClosed .stop = true

theorem Inv.initial : Inv Manager.initial where
  valid s := by constructor <;> simp [view, Manager.initial, Removals.empty, isLeased]
  blocked target d h := by cases target <;> cases h
  sound target d h := by cases target <;> cases h
  closed target h := by cases target <;> cases h
  calls c h := by cases h
  returned t h := by cases h

theorem Inv.completesCleaned (inv : Inv m) : m.CompletesCleaned := by
  intro target d rest hd hp s hs
  have hsound := inv.sound target d hd
  have hmem : s ∈ d.sessions := hsound.owned s (by simpa [Drain.uncompleted, hp] using hs)
  have hclean := hsound.cleaned s hmem
  simpa [Drain.uncleaned, hp, view] using hclean

theorem Inv.stepView (inv : Inv m) (h : m.step a = some m') (s : Session) :
    SessionView.Step (m.view s) (m'.view s) :=
  step_view (inv.valid s) inv.completesCleaned h

theorem drainSession_frame {p : Manager × Drain} (h : m.drainSession d s = some p) :
    p.1.sessions = m.sessions ∧ p.1.disableStates = m.disableStates ∧
      p.1.stopState = m.stopState ∧ p.1.returned = m.returned ∧
      p.1.disableCalls = m.disableCalls := by
  rw [drainSession_eq h]
  exact ⟨rfl, rfl, rfl, rfl, rfl⟩

theorem drainOf_congr (hd : m'.disableStates = m.disableStates) (hs : m'.stopState = m.stopState)
    (target : DrainTarget) : m'.drainOf target = m.drainOf target := by
  cases target <;> simp only [drainOf, hd, hs]

theorem isClosed_congr (hd : m'.disableStates = m.disableStates) (hs : m'.stopState = m.stopState)
    (target : DrainTarget) : m'.isClosed target = m.isClosed target := by
  cases target <;> simp only [isClosed, hd, hs]

theorem drainOf_setDrain_self
    (h : m.drainOf target = some d) : (m.setDrain d' target).drainOf target = some d' := by
  cases target with
  | disable tokenID | stop =>
    obtain ⟨x, hx, -⟩ := Option.map_eq_some_iff.mp h
    simp [drainOf, setDrain, hx]

theorem drainOf_setDrain_of_ne {other : DrainTarget} (h : other ≠ target) :
    (m.setDrain d target).drainOf other = m.drainOf other := by
  cases target with
  | disable tokenID =>
    cases other with
    | disable t =>
      have ht : t ≠ tokenID := fun e => h (congrArg _ e)
      simp [drainOf, setDrain, ht]
    | stop => rfl
  | stop =>
    cases other with
    | disable t => rfl
    | stop => exact absurd rfl h

@[simp] theorem isClosed_setDrain {other : DrainTarget} :
    (m.setDrain d target).isClosed other = m.isClosed other := by
  cases target with
  | disable tokenID =>
    cases other with
    | disable t =>
      by_cases ht : t = tokenID
      · subst ht
        simp [isClosed, setDrain, Option.any_map]
      · simp [isClosed, setDrain, ht]
    | stop => rfl
  | stop =>
    cases other with
    | disable t => rfl
    | stop => simp [isClosed, setDrain, Option.any_map]

theorem tracked_of_mem_index (hv : (m.view s).Valid) (h : s ∈ m.removals.index) :
    (m.view s).tracked = true := by
  obtain ⟨r, hr, -⟩ := (m.removals.mem_index s).mp h
  exact hv.removed (Option.isSome_iff_exists.mpr ⟨r, hr⟩)

/-- The drain of a disable that has just begun. -/
theorem sound_disableDrain (hv : ∀ s, (m.view s).Valid) (hnew : m.isDisabled tokenID = false)
    (hview : ∀ s, m'.view s = (m.beginDisable tokenID).1.view s) :
    (m.disableDrain tokenID).Sound m' (.disable tokenID) where
  detached s hs := by
    rw [hview]
    have hmem : (m.view s).tracked = true ∧ s.tokenID = tokenID := by
      rcases List.mem_append.mp hs with h | h
      · obtain ⟨hi, ht⟩ := IndexedSet.mem_byKey_iff.mp h
        exact ⟨tracked_of_mem_index (hv s) hi, ht⟩
      · obtain ⟨ha, ht⟩ := IndexedSet.mem_byKey_iff.mp (List.mem_filter.mp h).1
        exact ⟨((hv s).active (decide_eq_true ha)).1, ht⟩
    refine ⟨(step_beginDisable (hv s)).tracked_of_tracked hmem.1, ?_⟩
    simp [view, beginDisable, hnew, hmem.2]
  owned s hs := by
    have hbyID : s ∈ m.sessions.byKey tokenID := Removals.mem_of_mem_owned hs
    by_cases h : s ∈ m.removals.index.byKey tokenID
    · exact List.mem_append_left _ h
    · exact List.mem_append_right _ (List.mem_filter.mpr ⟨hbyID, decide_eq_true h⟩)
  pending s hs := hs
  waiting s hs := hs
  waited s hs := .inl hs
  cleaned s hs := .inl hs
  covers s ht ho := by
    rw [hview, ← mem_index_iff_isOpen, beginDisable, if_neg (by simp [hnew]),
      Removals.mem_index_registerRemoves] at ho
    rcases ho with h | h
    · exact List.mem_append_right _ h
    · exact List.mem_append_left _ (IndexedSet.mem_byKey_iff.mpr ⟨h, ht⟩)
  joined s hs := .inl hs

theorem sound_stopDrain (hv : ∀ s, (m.view s).Valid) (hnew : m.isStopped = false) :
    m.stopDrain.Sound m.beginStop .stop where
  detached s hs := by
    have ht : (m.view s).tracked = true := ((hv s).active (decide_eq_true hs)).1
    refine ⟨(step_beginStop (hv s)).tracked_of_tracked ht, ?_⟩
    simp [view, beginStop, hnew]
  owned s hs := Removals.mem_of_mem_owned hs
  pending s hs := hs
  waiting s hs := hs
  waited s hs := .inl hs
  cleaned s hs := .inl hs
  covers s _ ho := by
    rw [← mem_index_iff_isOpen, beginStop, if_neg (by simp [hnew])] at ho
    exact ho
  joined s hs := .inl hs

theorem drainOf_beginDisable_self (hnew : m.isDisabled tokenID = false) :
    (m.beginDisable tokenID).1.drainOf (.disable tokenID) = some (m.disableDrain tokenID) := by
  simp [beginDisable, hnew, drainOf]

theorem drainOf_beginDisable_of_ne (h : target ≠ .disable tokenID) :
    (m.beginDisable tokenID).1.drainOf target = m.drainOf target := by
  unfold beginDisable
  split
  · rfl
  · cases target with
    | disable t =>
      have ht : t ≠ tokenID := fun e => h (congrArg _ e)
      simp [drainOf, ht]
    | stop => rfl

theorem isClosed_beginDisable (target : DrainTarget) :
    (m.beginDisable tokenID).1.isClosed target = m.isClosed target := by
  unfold beginDisable
  split
  · rfl
  · next hnew =>
    cases target with
    | disable t =>
      by_cases ht : t = tokenID
      · subst ht
        have hnone : m.disableStates t = none := by simpa [isDisabled] using hnew
        simp [isClosed, hnone]
      · simp [isClosed, ht]
    | stop => rfl

theorem mem_sessions_beginDisable (hnew : m.isDisabled tokenID = false) :
    s ∈ (m.beginDisable tokenID).1.sessions ↔ s ∈ m.sessions ∧ s.tokenID ≠ tokenID := by
  simp [beginDisable, hnew]

theorem isClosed_beginStop (target : DrainTarget) :
    m.beginStop.isClosed target = m.isClosed target := by
  unfold beginStop
  split
  · rfl
  · next hnew =>
    cases target with
    | disable t => rfl
    | stop =>
      have hnone : m.stopState = none := by simpa [isStopped] using hnew
      simp [isClosed, hnone]

/-- What closing a drain does to the drains and their channels. -/
theorem closeDrain_spec (h : m.closeDrain target = some m') :
    (∃ d, m.drainOf target = some d ∧ d.phase = .joined) ∧
      (∀ other, m'.drainOf other = m.drainOf other) ∧
      (∀ other, m'.isClosed other = true → m.isClosed other = true ∨ other = target) ∧
      (∀ other, m.isClosed other = true → m'.isClosed other = true) ∧
      m'.sessions = m.sessions ∧ m'.disableCalls = m.disableCalls ∧ m'.returned = m.returned := by
  cases target with
  | disable tokenID =>
    simp only [closeDrain] at h
    split at h
    · cases h
    next x hx =>
    split at h
    · next hj =>
      cases h
      refine ⟨⟨x.drain, by simp [drainOf, hx], hj⟩, ?_, ?_, ?_, rfl, rfl, rfl⟩
      · rintro (t | _)
        · by_cases ht : t = tokenID
          · subst ht
            simp [drainOf, hx]
          · simp [drainOf, ht]
        · rfl
      · rintro (t | _) hc
        · by_cases ht : t = tokenID
          · exact .inr (by rw [ht])
          · exact .inl (by simpa [isClosed, ht] using hc)
        · exact .inl hc
      · rintro (t | _) hc
        · by_cases ht : t = tokenID
          · subst ht
            simp [isClosed]
          · simpa [isClosed, ht] using hc
        · exact hc
    · cases h
  | stop =>
    simp only [closeDrain] at h
    split at h
    · cases h
    next x hx =>
    split at h
    · next hj =>
      cases h
      refine ⟨⟨x.drain, by simp [drainOf, hx], hj.1⟩, ?_, ?_, ?_, rfl, rfl, rfl⟩
      · rintro (t | _)
        · rfl
        · simp [drainOf, hx]
      · rintro (t | _) hc
        · exact .inl hc
        · exact .inr rfl
      · rintro (t | _) hc
        · exact hc
        · simp [isClosed]
    · cases h

theorem Inv.sound_step (inv : Inv m) (h : m.step a = some m')
    (hd : m.drainOf target = some d) : d.Sound m' target :=
  (inv.sound target d hd).step inv.valid (inv.blocked target d hd) (inv.stepView h)

theorem Inv.blocked_step (inv : Inv m) (hd : m.drainOf target = some d)
    (hsessions : ∀ s ∈ m'.sessions,
      s ∈ m.sessions ∨ m.isDisabled s.tokenID = false ∧ m.isStopped = false) :
    ∀ s, target.Covers s → s ∉ m'.sessions := by
  intro s hs hmem
  rcases hsessions s hmem with h | ⟨hnd, hns⟩
  · exact inv.blocked target d hd s hs h
  · cases target with
    | disable t =>
      have hnone := isDisabled_eq_false_iff.mp hnd
      rw [show s.tokenID = t from hs, hd] at hnone
      cases hnone
    | stop =>
      have hnone := isStopped_eq_false_iff.mp hns
      rw [hd] at hnone
      cases hnone

/-- A step that closes no channel and lets no call return, and whose new drains are sound. -/
theorem Inv.of_drains (inv : Inv m) (h : m.step a = some m')
    (hsessions : ∀ s ∈ m'.sessions,
      s ∈ m.sessions ∨ m.isDisabled s.tokenID = false ∧ m.isStopped = false)
    (hdrain : ∀ target, m'.drainOf target = m.drainOf target ∨
      (∃ d, m'.drainOf target = some d ∧ d.Sound m' target) ∧ m.isClosed target = false ∧
        ∀ s, target.Covers s → s ∉ m'.sessions)
    (hclosed : ∀ target, m'.isClosed target = m.isClosed target)
    (hreturned : m'.returned = m.returned)
    (hcalls : ∀ c ∈ m'.disableCalls, c ∈ m.disableCalls ∨
      c.awaits = .disable c.tokenID ∨ c.awaits = .stop) : Inv m' where
  valid s := (inv.stepView h s).valid (inv.valid s)
  blocked target d hd := by
    rcases hdrain target with hsame | ⟨-, -, hout⟩
    · exact inv.blocked_step (hsame ▸ hd) hsessions
    · exact hout
  sound target d hd := by
    rcases hdrain target with hsame | ⟨⟨e, he, hsound⟩, -⟩
    · exact inv.sound_step h (hsame ▸ hd)
    · rw [he] at hd
      cases hd
      exact hsound
  closed target hc := by
    rw [hclosed] at hc
    rcases hdrain target with hsame | ⟨-, hopen, -⟩
    · rw [hsame]
      exact inv.closed target hc
    · rw [hopen] at hc
      cases hc
  calls c hc := (hcalls c hc).elim (inv.calls c) id
  returned t ht := by
    rw [hclosed, hclosed]
    exact inv.returned t (hreturned ▸ ht)

theorem Inv.isClosed_eq_false (inv : Inv m)
    (h : ∀ d, m.drainOf target = some d → d.phase ≠ .joined) : m.isClosed target = false := by
  by_contra hc
  obtain ⟨d, hd, hj⟩ := inv.closed target (eq_true_of_ne_false hc)
  exact h d hd hj

theorem Inv.step_disabled (inv : Inv m) (h : m.step a = some m')
    (hnew : m.isDisabled tokenID = false)
    (hview : ∀ s, m'.view s = (m.beginDisable tokenID).1.view s)
    (hsessions : m'.sessions = (m.beginDisable tokenID).1.sessions)
    (hdisable : m'.disableStates = (m.beginDisable tokenID).1.disableStates)
    (hstop : m'.stopState = (m.beginDisable tokenID).1.stopState)
    (hreturned : m'.returned = (m.beginDisable tokenID).1.returned)
    (hcalls : ∀ c ∈ m'.disableCalls, c ∈ m.disableCalls ∨ c.awaits = .disable c.tokenID) :
    Inv m' := by
  have hmem : ∀ s, s ∈ m'.sessions ↔ s ∈ m.sessions ∧ s.tokenID ≠ tokenID := fun s => by
    rw [hsessions]
    exact mem_sessions_beginDisable hnew
  have hdrain := drainOf_congr hdisable hstop
  refine inv.of_drains h (fun s hs => .inl ((hmem s).mp hs).1) ?_ ?_ ?_ ?_
  · intro target
    rw [hdrain]
    by_cases ht : target = .disable tokenID
    · subst ht
      have hclosed : m.isClosed (.disable tokenID) = false := inv.isClosed_eq_false fun d hd => by
        rw [isDisabled_eq_false_iff.mp hnew] at hd
        cases hd
      exact .inr ⟨⟨_, drainOf_beginDisable_self hnew, sound_disableDrain inv.valid hnew hview⟩,
        hclosed, fun s hs hin => ((hmem s).mp hin).2 hs⟩
    · exact .inl (drainOf_beginDisable_of_ne ht)
  · intro target
    rw [isClosed_congr hdisable hstop, isClosed_beginDisable]
  · rw [hreturned, beginDisable, if_neg (by simp [hnew])]
  · exact fun c hc => (hcalls c hc).imp_right .inl

theorem Inv.step_stopped (inv : Inv m) (h : m.step a = some m.beginStop)
    (hnew : m.isStopped = false) : Inv m.beginStop := by
  have hempty : ∀ s, s ∉ m.beginStop.sessions := fun s => by simp [beginStop, hnew]
  refine inv.of_drains h (fun s hs => absurd hs (hempty s)) ?_ isClosed_beginStop ?_ ?_
  · rintro (t | _)
    · exact .inl (by simp [beginStop, hnew, drainOf])
    · have hclosed : m.isClosed .stop = false := inv.isClosed_eq_false fun d hd => by
        rw [isStopped_eq_false_iff.mp hnew] at hd
        cases hd
      exact .inr ⟨⟨m.stopDrain, by simp [beginStop, hnew, drainOf],
        sound_stopDrain inv.valid hnew⟩, hclosed, fun s _ => hempty s⟩
  · simp [beginStop, hnew]
  · exact fun c hc => .inl (by simpa [beginStop, hnew] using hc)

theorem setDrain_frame (d : Drain) (target : DrainTarget) :
    (m.setDrain d target).sessions = m.sessions ∧
      (m.setDrain d target).returned = m.returned ∧
      (m.setDrain d target).disableCalls = m.disableCalls := by
  cases target <;> exact ⟨rfl, rfl, rfl⟩

/-- A drain that is not joined moves on. -/
theorem Inv.step_moved (inv : Inv m) {m₁ : Manager}
    (h : m.step a = some (m₁.setDrain d' target)) (hd : m.drainOf target = some d)
    (hphase : d.phase ≠ .joined) (hsound : d'.Sound m₁ target)
    (hframe : m₁.sessions = m.sessions ∧ m₁.disableStates = m.disableStates ∧
      m₁.stopState = m.stopState ∧ m₁.returned = m.returned ∧
      m₁.disableCalls = m.disableCalls) : Inv (m₁.setDrain d' target) := by
  obtain ⟨hs, hdis, hstop, hret, hcalls⟩ := hframe
  obtain ⟨hs', hret', hcalls'⟩ := setDrain_frame (m := m₁) d' target
  have hdrain := drainOf_congr hdis hstop
  refine inv.of_drains h ?_ ?_ ?_ (hret'.trans hret) ?_
  · intro s hin
    rw [hs', hs] at hin
    exact .inl hin
  · intro other
    by_cases ho : other = target
    · subst ho
      have hclosed : m.isClosed other = false := inv.isClosed_eq_false fun e he => by
        rw [hd] at he
        cases he
        exact hphase
      refine .inr ⟨⟨d', drainOf_setDrain_self ((hdrain other).trans hd),
        hsound.congr fun s => view_setDrain d' other⟩, hclosed, ?_⟩
      rw [hs', hs]
      exact inv.blocked other d hd
    · exact .inl (by rw [drainOf_setDrain_of_ne ho, hdrain])
  · intro other
    rw [isClosed_setDrain, isClosed_congr hdis hstop]
  · intro c hc
    rw [hcalls', hcalls] at hc
    exact .inl hc

theorem drainSession_phase {p : Manager × Drain}
    (h : m.drainSession d s = some p) : d.phase ≠ .joined := by
  intro hj
  simp [drainSession, hj] at h

theorem next_phase (h : d.next = some d') : d.phase ≠ .joined := by
  intro hj
  simp [Drain.next, hj] at h

theorem Inv.step (inv : Inv m) (h : m.step a = some m') : Inv m' := by
  cases step_effect h with
  | quiet hsessions hdisable hstop hreturned hcalls =>
    exact inv.of_drains h hsessions (fun target => .inl (drainOf_congr hdisable hstop target))
      (isClosed_congr hdisable hstop) hreturned hcalls
  | disabled tokenID runs calls hnew hcalls hm =>
    subst hm
    exact inv.step_disabled h hnew (fun s => rfl) rfl rfl rfl rfl hcalls
  | stopped hnew hm =>
    subst hm
    exact inv.step_stopped h hnew
  | drained target d s p hd hp hm =>
    subst hm
    have hstep : ∀ u, SessionView.Step (m.view u) (p.1.view u) := fun u => by
      simpa only [view_setDrain] using inv.stepView h u
    exact inv.step_moved h hd (drainSession_phase hp)
      ((inv.sound target d hd).drainSession inv.valid (inv.blocked target d hd) hstep hp)
      (drainSession_frame hp)
  | advanced target d d' hd hn hm =>
    subst hm
    exact inv.step_moved h hd (next_phase hn) ((inv.sound target d hd).next hn)
      ⟨rfl, rfl, rfl, rfl, rfl⟩
  | closed target hclose =>
    obtain ⟨hjoined, hdrain, honly, hmono, hsessions, hcalls, hreturned⟩ := closeDrain_spec hclose
    refine ⟨fun s => (inv.stepView h s).valid (inv.valid s), ?_, ?_, ?_, ?_, ?_⟩
    · intro other d hd
      rw [hsessions]
      exact inv.blocked other d (hdrain other ▸ hd)
    · intro other d hd
      exact inv.sound_step h (hdrain other ▸ hd)
    · intro other hc
      rw [hdrain]
      rcases honly other hc with hc | rfl
      · exact inv.closed other hc
      · exact hjoined
    · exact hcalls ▸ inv.calls
    · intro t ht
      exact (inv.returned t (hreturned ▸ ht)).imp (hmono _) (hmono _)
  | returned call hcall hclosed hm =>
    subst hm
    refine ⟨inv.valid, inv.blocked, ?_, inv.closed, ?_, ?_⟩
    · exact fun target d hd => (inv.sound target d hd).congr fun s => rfl
    · exact fun c hc => inv.calls c (List.mem_of_mem_erase hc)
    · intro t ht
      rcases List.mem_cons.mp ht with rfl | ht
      · rcases inv.calls call hcall with e | e
        · rw [e] at hclosed
          exact .inl hclosed
        · rw [e] at hclosed
          exact .inr hclosed
      · exact inv.returned t ht

end Manager

end OtelMagnify.Token
