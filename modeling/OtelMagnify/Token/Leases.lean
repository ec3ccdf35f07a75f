import OtelMagnify.Token.Tombstone

/-! Leases and admission. Only `Acquire` and `Fork` grant leases, only `Release` takes one back
and only `Track` admits sessions. The gate of an admitted session has no writer. -/
namespace OtelMagnify.Token

def Action.keepsLeases : Action → Bool
  | .acquire _ _ | .fork _ | .release _ => false
  | _ => true

def Action.keepsTracked : Action → Bool
  | .track _ _ => false
  | _ => true

namespace Manager

/-- No lease is granted or taken back, and no session is admitted. -/
abbrev SameLeases (m m' : Manager) : Prop :=
  m'.leases = m.leases ∧ m'.nextLease = m.nextLease ∧ m'.tracked = m.tracked

variable {m m' : Manager} {a : Action} {s : Session} {now : Time}

/-- `Acquire` grants a lease on a session it holds, or changes no lease. -/
theorem acquire_spec (m : Manager) (s : Session) (now : Time) :
    (s ∈ m.sessions ∧ m.acquire s now = m.grant s) ∨
      ((m.acquire s now).2 = none ∧ m.SameLeases (m.acquire s now).1) := by
  rcases acquire_cases m s now with h | h | ⟨-, -, h⟩
  · exact .inl h
  · rw [h]
    exact .inr ⟨rfl, rfl, rfl, rfl⟩
  · rw [h, beginDisable_eq]
    exact .inr ⟨rfl, rfl, rfl, rfl⟩

theorem track_frame (s : Session) (now : Time) :
    (m.track s now).1.leases = m.leases ∧ (m.track s now).1.nextLease = m.nextLease ∧
      (∀ u ∈ (m.track s now).1.tracked, u = s ∨ u ∈ m.tracked) ∧
      (m.track s now).1.cleaned = m.cleaned := by
  rcases track_spec m s now with h | ⟨-, -, h | ⟨timers, n, h⟩⟩
  · rw [h]
    exact ⟨rfl, rfl, fun u hu => .inr hu, rfl⟩
  · rw [h, beginDisable_eq]
    exact ⟨rfl, rfl, fun u hu => .inr hu, rfl⟩
  · rw [h]
    exact ⟨rfl, rfl, fun u hu => List.mem_cons.mp hu, rfl⟩

theorem beginStop_eq (m : Manager) : m.beginStop = { m with
    sessions := m.beginStop.sessions
    removals := m.beginStop.removals
    stopState := m.beginStop.stopState
    expiryTimers := m.beginStop.expiryTimers } := by
  unfold beginStop
  split <;> rfl

/-- A step that is none of `Acquire`, `Fork`, `Release` and `Track`. -/
theorem step_frame (hl : a.keepsLeases = true) (ht : a.keepsTracked = true)
    (h : m.step a = some m') : m.SameLeases m' := by
  cases step_move h with
  | track => cases ht
  | acquire | fork | release => cases hl
  | disable =>
    rw [beginDisable_eq]
    exact ⟨rfl, rfl, rfl⟩
  | stop =>
    rw [beginStop_eq]
    exact ⟨rfl, rfl, rfl⟩
  | drainSession _ hp =>
    rw [setDrain_eq, drainSession_eq hp]
    exact ⟨rfl, rfl, rfl⟩
  | drainNext =>
    rw [setDrain_eq]
    exact ⟨rfl, rfl, rfl⟩
  | closeDrain h =>
    rw [closeDrain_eq h]
    exact ⟨rfl, rfl, rfl⟩
  | _ => exact ⟨rfl, rfl, rfl⟩

/-- Only the cleanup of a removed session and a drain's `onDisabled` clean a session. -/
theorem step_cleaned (h : m.step a = some m') : m'.cleaned = m.cleaned ∨
    ∃ s, m'.cleaned = s :: m.cleaned ∧ (a = .closeCleanup s ∨ ∃ target d rest,
      a = .drainSession target s ∧ m.drainOf target = some d ∧ d.phase = .disabling rest) := by
  cases step_move h with
  | disable =>
    rw [beginDisable_eq]
    exact .inl rfl
  | stop =>
    rw [beginStop_eq]
    exact .inl rfl
  | closeCleanup => exact .inr ⟨_, rfl, .inl rfl⟩
  | drainSession hd hp =>
    rw [setDrain_eq]
    unfold drainSession at hp
    split at hp
    · split at hp <;> cases hp
      exact .inl rfl
    · next rest hphase =>
      split at hp <;> cases hp
      exact .inr ⟨_, rfl, .inr ⟨_, _, rest, rfl, hd, hphase⟩⟩
    · split at hp <;> cases hp
      exact .inl rfl
    · split at hp <;> cases hp
      exact .inl rfl
    · cases hp
  | drainNext =>
    rw [setDrain_eq]
    exact .inl rfl
  | closeDrain h =>
    rw [closeDrain_eq h]
    exact .inl rfl
  | _ => exact .inl rfl

theorem Inv.mem_sessions_of_step (inv : Inv m) (h : m.step a = some m')
    (ht : m'.tracked = m.tracked) (hs : s ∈ m'.sessions) : s ∈ m.sessions := by
  by_contra hn
  have htracked : s ∈ m'.tracked :=
    of_decide_eq_true (((inv.step h).valid s).active (decide_eq_true hs)).1
  have hfalse := (inv.stepView h s).not_active (decide_eq_true (ht ▸ htracked))
    (decide_eq_false hn)
  exact of_decide_eq_false hfalse hs

theorem not_mem_sessions_remove (hv : (m.view s).Valid)
    (hstop : m.isStopped = true → s ∉ m.sessions) : s ∉ (m.remove s now).sessions := by
  unfold remove
  split
  · next hi => exact fun hs => not_mem_index_of_mem_sessions hv hs hi
  split
  · next hst => exact hstop hst
  split
  · assumption
  · obtain ⟨timers, n, he⟩ := scheduleExpiry_eq
      { m with
        sessions := m.sessions.erase s
        removals := (m.removals.registerRemove s).1 } s.tokenID now
    simp [he]

theorem not_isLeased_of_not_mem (hv : (m.view s).Valid) (hs : s ∉ m.sessions)
    (hd : ∀ b, m.removals.state s ≠ some (.draining b)) : m.isLeased s = false := by
  by_contra hl
  rcases hv.leased (eq_true_of_ne_false hl) with ha | ⟨b, hb⟩
  · exact hs (of_decide_eq_true ha)
  · exact hd b hb

/-- Some goroutine is in `waitForTokenSessions` for the session: it waits for the write lock of
the gate or holds it. -/
def HasWriter (m : Manager) (s : Session) : Prop :=
  (∃ b, m.removals.state s = some (.draining b)) ∨
    ∃ target d, m.drainOf target = some d ∧ s ∈ d.unwaited

/-- The gate of a session that the manager holds has no writer. -/
theorem Inv.not_hasWriter (inv : Inv m) (hs : s ∈ m.sessions) : ¬ m.HasWriter s := by
  have hactive : (m.view s).active = true := decide_eq_true hs
  rintro (⟨b, hb⟩ | ⟨target, d, hd, hmem⟩)
  · have hnone : m.removals.state s = none := ((inv.valid s).active hactive).2
    rw [hnone] at hb
    cases hb
  · have hsound := inv.sound target d hd
    have hdetached := (hsound.detached s (hsound.waiting s hmem)).2
    rw [hactive] at hdetached
    cases hdetached

theorem mem_sessions_of_grant {l : Lease}
    (h : (m.acquire s now).2 = some l ∨ (m.fork s).2 = some l) : s ∈ m.sessions := by
  rcases h with h | h
  · rcases acquire_spec m s now with ⟨hs, -⟩ | ⟨hnone, -⟩
    · exact hs
    · rw [hnone] at h
      cases h
  · rcases fork_spec m s with ⟨hs, -⟩ | hnone
    · exact hs
    · rw [hnone] at h
      cases h

theorem step_sessions (ha : a.keepsSessions = true) (h : m.step a = some m') :
    m'.sessions = m.sessions := by
  cases step_move h with
  | track | acquire | fork | release | remove | stop => cases ha
  | disable hd =>
    rw [hd] at ha
    cases ha
  | drainSession _ hp => rw [(setDrain_frame _ _).1, (drainSession_frame hp).1]
  | drainNext => exact (setDrain_frame _ _).1
  | closeDrain h => exact (closeDrain_spec h).2.2.2.2.1
  | _ => rfl

end Manager

end OtelMagnify.Token
