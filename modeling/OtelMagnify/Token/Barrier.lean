import OtelMagnify.Token.Tombstone

/-! The barrier of a token disable. When a drain is closed no session it covers is held, leased
or left without cleanup, and a `Disable` returns only then. -/
namespace OtelMagnify.Token
open StepSystem

namespace Manager

variable {m m' : Manager} {a : Action}

theorem Inv.of_reachable (h : Reachable Manager.step Manager.initial m) : Inv m :=
  h.invariant Inv.initial fun _ _ _ inv hs => inv.step hs

variable {s : Session} {t : String}

/-- What a closed drain guarantees of the sessions it covers. -/
theorem Inv.of_isClosed (inv : Inv m) {target : DrainTarget} (hc : m.isClosed target = true)
    (hs : target.Covers s) :
    s ∉ m.sessions ∧ m.isLeased s = false ∧ (s ∈ m.tracked → s ∈ m.cleaned) := by
  obtain ⟨d, hd, hj⟩ := inv.closed target hc
  have hsound := inv.sound target d hd
  have hout : s ∉ m.sessions := inv.blocked target d hd s hs
  have hdone : ∀ r, m.removals.state s = some r → r.isOpen = false := by
    intro r hr
    by_contra ho
    have hmem := hsound.covers s hs (by simpa [SessionView.isOpen, view, hr] using ho)
    have hd : r.isDone = true := by
      simpa [Drain.unjoined, hj, SessionView.isDone, view, hr] using hsound.joined s hmem
    exact ho (Removal.isOpen_eq_false_of_isDone hd)
  have hv := inv.valid s
  refine ⟨hout, ?_, ?_⟩
  · by_contra hl
    rcases hv.leased (eq_true_of_ne_false hl) with ha | ⟨b, hb⟩
    · exact hout (of_decide_eq_true ha)
    · cases hdone _ hb
  · intro ht
    rcases hv.placed (decide_eq_true ht) with ha | hr
    · exact absurd (of_decide_eq_true ha) hout
    · obtain ⟨r, hr⟩ := Option.isSome_iff_exists.mp hr
      exact of_decide_eq_true (hv.complete r hr (Removal.isComplete_of_not_isOpen (hdone r hr)))

theorem Inv.of_returned (inv : Inv m) (ht : t ∈ m.returned) (hs : s.tokenID = t) :
    s ∉ m.sessions ∧ m.isLeased s = false ∧ (s ∈ m.tracked → s ∈ m.cleaned) :=
  (inv.returned t ht).elim (fun hc => inv.of_isClosed hc hs) fun hc => inv.of_isClosed hc trivial

theorem Inv.tombstone (inv : Inv m) (ht : t ∈ m.returned) :
    m.isDisabled t = true ∨ m.isStopped = true := by
  refine (inv.returned t ht).imp (fun hc => ?_) fun hc => ?_
  · obtain ⟨x, hx, -⟩ := (Option.any_eq_true _ _).mp hc
    simp [isDisabled, hx]
  · obtain ⟨x, hx, -⟩ := (Option.any_eq_true _ _).mp hc
    simp [isStopped, hx]

theorem rejects_of_tombstone (now : Time) (h : m.isDisabled s.tokenID = true ∨ m.isStopped = true) :
    (m.track s now).2 = false ∧ (m.acquire s now).2 = none ∧ (m.fork s).2 = none := by
  cases hstop : m.isStopped with
  | true => simp [track, acquire, fork, hstop]
  | false =>
    have hdis : m.isDisabled s.tokenID = true := by simpa [hstop] using h
    simp [track, acquire, fork, hstop, hdis]

theorem returned_step (h : m.step a = some m') (ht : t ∈ m.returned) : t ∈ m'.returned := by
  cases step_effect h with
  | quiet _ _ _ hreturned _ => rwa [hreturned]
  | disabled tokenID runs calls hnew _ hm =>
    subst hm
    simpa [beginDisable, hnew] using ht
  | stopped hnew hm =>
    subst hm
    simpa [beginStop, hnew] using ht
  | drained target d s p hd hp hm =>
    subst hm
    rw [(setDrain_frame p.2 target).2.1, (drainSession_frame hp).2.2.2.1]
    exact ht
  | advanced target d d' hd hn hm =>
    subst hm
    rwa [(setDrain_frame d' target).2.1]
  | closed target hclose => rwa [(closeDrain_spec hclose).2.2.2.2.2.2]
  | returned call hcall hclosed hm =>
    subst hm
    exact List.mem_cons_of_mem _ ht

/-- A closed drain stays closed, and a step closes another one only with `closeDrain`. -/
theorem isClosed_step (h : m.step a = some m') (target : DrainTarget) :
    (m.isClosed target = true → m'.isClosed target = true) ∧
      (m'.isClosed target = true → m.isClosed target = true ∨ m.closeDrain target = some m') := by
  have hof : m'.isClosed target = m.isClosed target →
      (m.isClosed target = true → m'.isClosed target = true) ∧ (m'.isClosed target = true →
        m.isClosed target = true ∨ m.closeDrain target = some m') := by
    intro he
    rw [he]
    exact ⟨id, .inl⟩
  cases step_effect h with
  | quiet _ hdisable hstop _ _ => exact hof (isClosed_congr hdisable hstop target)
  | disabled tokenID runs calls _ _ hm =>
    subst hm
    exact hof ((isClosed_congr rfl rfl target).trans (isClosed_beginDisable target))
  | stopped _ hm =>
    subst hm
    exact hof (isClosed_beginStop target)
  | drained other d s p _ hp hm =>
    subst hm
    obtain ⟨-, hdisable, hstop, -⟩ := drainSession_frame hp
    exact hof (isClosed_setDrain.trans (isClosed_congr hdisable hstop target))
  | advanced other d d' _ _ hm =>
    subst hm
    exact hof isClosed_setDrain
  | closed other hclose =>
    obtain ⟨-, -, hback, hkeep, -⟩ := closeDrain_spec hclose
    refine ⟨hkeep target, fun hc => (hback target hc).imp_right ?_⟩
    rintro rfl
    exact hclose
  | returned call _ _ hm =>
    subst hm
    exact hof (isClosed_congr rfl rfl target)

theorem isStopped_of_isClosed (h : m.isClosed .stop = true) : m.isStopped = true := by
  obtain ⟨x, hx, -⟩ := (Option.any_eq_true _ _).mp h
  simp [isStopped, hx]

/-- In a stopped manager no expiry callback enters. -/
theorem expiryRuns_step (hstop : m.isStopped = true) (hruns : m.expiryRuns = [])
    (h : m.step a = some m') : m'.expiryRuns = [] := by
  cases step_move h with
  | idle hsub => exact List.subset_nil.mp (hruns ▸ hsub hstop)
  | disable _ hopen | stop hopen =>
    rw [hstop] at hopen
    cases hopen
  | drainSession _ hp =>
    rw [setDrain_eq, drainSession_eq hp]
    exact hruns
  | drainNext =>
    rw [setDrain_eq]
    exact hruns
  | closeDrain h =>
    rw [closeDrain_eq h]
    exact hruns
  | _ => exact hruns

theorem expiryRuns_of_closeDrain (h : m.closeDrain .stop = some m') : m'.expiryRuns = [] := by
  simp only [closeDrain] at h
  split at h
  · cases h
  · split at h
    · next hj =>
      cases h
      exact hj.2.2.1
    · cases h

theorem expiryRuns_of_isClosed (hm : m.isClosed .stop = true → m.expiryRuns = [])
    (h : m.step a = some m') (hc : m'.isClosed .stop = true) : m'.expiryRuns = [] := by
  rcases (isClosed_step h .stop).2 hc with hold | hclose
  · exact expiryRuns_step (isStopped_of_isClosed hold) (hm hold) h
  · exact expiryRuns_of_closeDrain hclose

theorem tracked_of_tracked_later (inv : Inv m) (ht : t ∈ m.returned)
    (h : Reachable Manager.step m m') :
    Inv m' ∧ t ∈ m'.returned ∧ ∀ s ∈ m'.tracked, s.tokenID = t → s ∈ m.tracked := by
  refine h.invariant
    (P := fun u => Inv u ∧ t ∈ u.returned ∧ ∀ s ∈ u.tracked, s.tokenID = t → s ∈ m.tracked)
    ⟨inv, ht, fun s hs _ => hs⟩ ?_
  rintro u b u' ⟨hinv, hret, htracked⟩ hstep
  have hinv' := hinv.step hstep
  have hret' := returned_step hstep hret
  refine ⟨hinv', hret', fun s hs hst => ?_⟩
  by_cases hold : s ∈ u.tracked
  · exact htracked s hold hst
  · have hactive := (hinv.stepView hstep s).active_of_newly_tracked (decide_eq_false hold)
      (decide_eq_true hs)
    exact absurd (of_decide_eq_true hactive) (hinv'.of_returned hret' hst).1

/-- Once a `Disable` of a token has returned, at every later time no session of the token holds
a lease, none is tracked and none gets a lease; and every session of the token that was ever
tracked had gone through its cleanup before the return. -/
theorem revocation_barrier {t : String} (hm : Reachable Manager.step Manager.initial m)
    (ht : t ∈ m.returned) (hm' : Reachable Manager.step m m') :
    (∀ l ∈ m'.leases, l.session.tokenID ≠ t) ∧
      (∀ s now, s.tokenID = t → (m'.track s now).2 = false ∧ (m'.acquire s now).2 = none ∧
        (m'.fork s).2 = none) ∧
      (∀ s ∈ m'.tracked, s.tokenID = t → s ∈ m.cleaned) := by
  have inv := Inv.of_reachable hm
  obtain ⟨inv', ht', htracked⟩ := tracked_of_tracked_later inv ht hm'
  refine ⟨?_, ?_, ?_⟩
  · intro l hl hst
    have hfree := (inv'.of_returned ht' hst).2.1
    have hheld : m'.isLeased l.session = true := isLeased_iff.mpr ⟨l, hl, rfl⟩
    rw [hfree] at hheld
    cases hheld
  · intro s now hst
    exact rejects_of_tombstone now (hst ▸ inv'.tombstone ht')
  · intro s hs hst
    exact (inv.of_returned ht hst).2.2 (htracked s hs hst)

/-- Two sessions of a token: one is leased when the token is disabled, the other is being
removed by its owner. -/
def disableRun : List Action :=
  let a : Session := ⟨0, "t", none⟩
  let b : Session := ⟨1, "t", none⟩
  [.track a 0, .track b 0, .acquire a 0, .remove b 0, .disable "t", .completeRemove b,
    .closeCleanup b, .finishRemove b, .finishRemove b, .finishRemove b, .release ⟨0, a⟩,
    .drainSession (.disable "t") a, .drainSession (.disable "t") b, .drainNext (.disable "t"),
    .drainSession (.disable "t") a, .drainSession (.disable "t") b, .drainNext (.disable "t"),
    .drainSession (.disable "t") a, .drainNext (.disable "t"), .finishRemove a, .finishRemove a,
    .finishRemove a, .drainSession (.disable "t") a, .drainSession (.disable "t") b,
    .drainNext (.disable "t"), .closeDrain (.disable "t"),
    .returnDisable ⟨"t", .disable "t"⟩]

theorem revocation_barrier_two_sessions :
    ∃ m, run Manager.step Manager.initial disableRun = some m ∧ "t" ∈ m.returned ∧
      (⟨0, "t", none⟩ : Session) ∈ m.cleaned ∧ (⟨1, "t", none⟩ : Session) ∈ m.cleaned ∧
      (m.track ⟨2, "t", none⟩ 1).2 = false := by
  refine ⟨_, rfl, by decide, ?_, ?_, ?_⟩
  · exact (revocation_barrier ⟨disableRun, rfl⟩ (by decide) ⟨[], rfl⟩).2.2 _ (by decide) rfl
  · exact (revocation_barrier ⟨disableRun, rfl⟩ (by decide) ⟨[], rfl⟩).2.2 _ (by decide) rfl
  · exact ((revocation_barrier ⟨disableRun, rfl⟩ (by decide) ⟨[], rfl⟩).2.1 _ 1 rfl).1

end Manager

end OtelMagnify.Token
