import OtelMagnify.Token.Manager

/-! The life of one session in the manager. What the manager holds of a session is a view; every
step of the manager moves every view along the session's life cycle, or leaves it. -/
namespace OtelMagnify.Token

structure SessionView where
  tracked : Bool
  active : Bool
  leased : Bool
  removal : Option Removal
  cleaned : Bool
  deriving DecidableEq

namespace SessionView

def isOpen (v : SessionView) : Bool := v.removal.any Removal.isOpen

def isDone (v : SessionView) : Bool := v.removal.any Removal.isDone

structure Valid (v : SessionView) : Prop where
  active : v.active = true → v.tracked = true ∧ v.removal = none
  removed : v.removal.isSome = true → v.tracked = true
  placed : v.tracked = true → v.active = true ∨ v.removal.isSome = true
  leased : v.leased = true → v.active = true ∨ ∃ b, v.removal = some (.draining b)
  complete : ∀ r, v.removal = some r → r.isComplete = true → v.cleaned = true

inductive Step : SessionView → SessionView → Prop
  | stay (v) : Step v v
  | enter (v) (h : v.tracked = false) : Step v { v with tracked := true, active := true }
  | grant (v) (h : v.active = true) : Step v { v with leased := true }
  | release (v) : Step v { v with leased := false }
  | detach (v) (h : v.active = true) :
    Step v { v with active := false, removal := some (.draining false) }
  | clean (v) : Step v { v with cleaned := true }
  | complete (v) :
    Step v { v with removal := v.removal.map Removal.complete, cleaned := true }
  | drain (v) (b) (h : v.removal = some (.draining b)) (hl : v.leased = false) :
    Step v { v with removal := some (.drained b) }
  | unlink (v) (h : v.removal = some (.drained true)) : Step v { v with removal := some .unlinked }
  | close (v) (h : v.removal = some .unlinked) : Step v { v with removal := some .closed }
  | exit (v) (h : v.removal = some .closed) : Step v { v with removal := some .exited }

theorem Step.of_eq {v v' w : SessionView} (h : Step v w) (he : v' = w) : Step v v' := he ▸ h

theorem Step.valid {v v' : SessionView} (h : Step v v') (hv : v.Valid) : v'.Valid := by
  obtain ⟨hact, hrem, hplaced, hleased, hcomplete⟩ := hv
  cases h with
  | stay => exact ⟨hact, hrem, hplaced, hleased, hcomplete⟩
  | enter h =>
    have hnone : v.removal = none := by
      by_contra hne
      have := hrem (Option.isSome_iff_ne_none.mpr hne)
      simp_all
    constructor <;> simp_all
  | grant h | release | clean => constructor <;> simp_all
  | detach h | drain b h hl | unlink h | close h
  | exit h => constructor <;> simp_all [Removal.isComplete]
  | complete =>
    refine ⟨fun ha => ?_, fun hr => ?_, fun ht => ?_, fun hl => ?_, fun _ _ _ => rfl⟩
    · simp [hact ha]
    · exact hrem (by simpa using hr)
    · simpa using hplaced ht
    · rcases hleased hl with ha | ⟨b, hb⟩
      · exact .inl ha
      · exact .inr ⟨true, by simp [hb, Removal.complete]⟩

section Step

variable {v v' : SessionView}

theorem Step.tracked_of_tracked (h : Step v v') (ht : v.tracked = true) : v'.tracked = true := by
  cases h <;> first | exact ht | rfl

theorem Step.cleaned_of_cleaned (h : Step v v') (hc : v.cleaned = true) : v'.cleaned = true := by
  cases h <;> first | exact hc | rfl

theorem Step.not_active (h : Step v v') (ht : v.tracked = true) (ha : v.active = false) :
    v'.active = false := by
  cases h with
  | enter hn => simp_all
  | _ => first | exact ha | rfl

theorem Step.active_of_newly_tracked (h : Step v v') (ht : v.tracked = false)
    (ht' : v'.tracked = true) : v'.active = true := by
  cases h with
  | enter hn => rfl
  | _ => exact absurd (ht.symm.trans ht') Bool.false_ne_true

theorem Step.not_leased (h : Step v v') (ha : v.active = false) (hl : v.leased = false) :
    v'.leased = false := by
  cases h with
  | grant hg => simp_all
  | _ => first | exact hl | rfl

theorem Step.isDone_of_isDone (h : Step v v') (hv : v.Valid) (hd : v.isDone = true) :
    v'.isDone = true := by
  cases h with
  | detach ha => simp [isDone, (hv.active ha).2] at hd
  | complete => simpa [isDone, Option.any_map, Function.comp_def] using hd
  | drain b hb hl => simp [isDone, hb, Removal.isDone] at hd
  | unlink hu => simp [isDone, hu, Removal.isDone] at hd
  | close | exit => rfl
  | _ => exact hd

theorem Step.isOpen_of_isOpen (h : Step v v') (ha : v.active = false) (ho : v'.isOpen = true) :
    v.isOpen = true := by
  cases h with
  | detach hd => simp_all
  | complete => simpa [isOpen, Option.any_map, Function.comp_def] using ho
  | drain b hb hl => simp [isOpen, hb, Removal.isOpen]
  | unlink hu | close hu | exit hu => cases ho
  | _ => exact ho

end Step

end SessionView

namespace Removals

variable {m : Removals} {s u : Session} {l : List Session}

theorem mem_index_iff : s ∈ m.index ↔ (m.state s).any Removal.isOpen = true := by
  rw [m.mem_index, Option.any_eq_true]

theorem mem_index_registerRemove : u ∈ (m.registerRemove s).1.index ↔ u = s ∨ u ∈ m.index := by
  unfold registerRemove
  split
  · next hs =>
    constructor
    · exact .inr
    · rintro (rfl | h) <;> assumption
  · exact IndexedSet.mem_insert

theorem state_registerRemove (h : u ≠ s ∨ u ∈ m.index) :
    (m.registerRemove s).1.state u = m.state u := by
  unfold registerRemove
  split
  · rfl
  · next hs =>
    have hu : u ≠ s := by
      rintro rfl
      exact h.elim (fun hne => hne rfl) hs
    exact Function.update_of_ne hu _ _

theorem state_registerRemove_self (h : s ∉ m.index) :
    (m.registerRemove s).1.state s = some (.draining false) := by
  simp [registerRemove, h, insert]

theorem mem_index_registerRemoves :
    u ∈ (m.registerRemoves l).1.index ↔ u ∈ l ∨ u ∈ m.index := by
  induction l generalizing m with
  | nil => simp [registerRemoves]
  | cons s l ih =>
    simp only [registerRemoves, ih, mem_index_registerRemove, List.mem_cons]
    tauto

theorem state_registerRemoves (h : u ∉ l ∨ u ∈ m.index) :
    (m.registerRemoves l).1.state u = m.state u := by
  induction l generalizing m with
  | nil => rfl
  | cons s l ih =>
    have htail : u ∉ l ∨ u ∈ (m.registerRemove s).1.index :=
      h.imp (fun hn => List.not_mem_of_not_mem_cons hn)
        (fun hm => mem_index_registerRemove.mpr (.inr hm))
    have hhead : u ≠ s ∨ u ∈ m.index := h.imp_left List.ne_of_not_mem_cons
    exact (ih htail).trans (state_registerRemove hhead)

theorem state_registerRemoves_of_mem (hl : u ∈ l) (h : u ∉ m.index) :
    (m.registerRemoves l).1.state u = some (.draining false) := by
  induction l generalizing m with
  | nil => cases hl
  | cons s l ih =>
    by_cases hu : u = s
    · subst hu
      have hmem : u ∈ (m.registerRemove u).1.index := mem_index_registerRemove.mpr (.inl rfl)
      exact (state_registerRemoves (.inr hmem)).trans (state_registerRemove_self h)
    · have hnot : u ∉ (m.registerRemove s).1.index := fun hm =>
        (mem_index_registerRemove.mp hm).elim hu h
      exact ih ((List.mem_cons.mp hl).resolve_left hu) hnot

theorem mem_of_mem_owned (h : u ∈ (m.registerRemoves l).2) : u ∈ l := by
  induction l generalizing m with
  | nil => exact h
  | cons s l ih =>
    simp only [registerRemoves] at h
    split at h
    · rcases List.mem_cons.mp h with rfl | hu
      · exact List.mem_cons_self
      · exact List.mem_cons_of_mem _ (ih hu)
    · exact List.mem_cons_of_mem _ (ih h)

theorem finishRemove_spec {leased : Bool} {m' : Removals}
    (h : m.finishRemove s leased = some m') :
    ∃ r r', m.state s = some r ∧ m'.state = Function.update m.state s (some r') ∧
      ((∃ b, r = .draining b ∧ leased = false ∧ r' = .drained b) ∨
        (r = .drained true ∧ r' = .unlinked) ∨ (r = .unlinked ∧ r' = .closed) ∨
        (r = .closed ∧ r' = .exited)) := by
  unfold finishRemove at h
  split at h
  · cases h
  · next b hs =>
    split at h
    · cases h
    · next hl =>
      cases h
      exact ⟨_, .drained b, hs, by simp [modify, hs, Removal.next],
        .inl ⟨b, rfl, by simpa using hl, rfl⟩⟩
  · next b hs =>
    split at h
    · next hb =>
      cases h
      exact ⟨_, _, hs, rfl, .inr (.inl ⟨by rw [hb], rfl⟩)⟩
    · cases h
  · next hs =>
    cases h
    exact ⟨_, .closed, hs, by simp [modify, hs, Removal.next], .inr (.inr (.inl ⟨rfl, rfl⟩))⟩
  · next hs =>
    cases h
    exact ⟨_, .exited, hs, by simp [modify, hs, Removal.next], .inr (.inr (.inr ⟨rfl, rfl⟩))⟩
  · cases h

end Removals

/-- The steps that take no session out of the manager and bring none in. -/
def Action.keepsSessions : Action → Bool
  | .completeRemove _ | .closeCleanup _ | .finishRemove _ | .returnDisable _ => true
  | .drainSession _ _ | .drainNext _ | .closeDrain _ | .expire _ _ | .expireExit _ => true
  | _ => false

namespace Manager

def view (m : Manager) (s : Session) : SessionView where
  tracked := decide (s ∈ m.tracked)
  active := decide (s ∈ m.sessions)
  leased := m.isLeased s
  removal := m.removals.state s
  cleaned := decide (s ∈ m.cleaned)

variable {m m' : Manager} {s u : Session} {tokenID : String} {now : Time}

theorem isLeased_iff : m.isLeased s = true ↔ ∃ l ∈ m.leases, l.session = s := by
  simp [isLeased]

theorem mem_index_iff_isOpen : s ∈ m.removals.index ↔ (m.view s).isOpen = true :=
  Removals.mem_index_iff

/-- What a step makes of the manager, with what it has checked. -/
inductive Move (m : Manager) : Action → Manager → Prop
  | idle {a : Action} {timers : String → Option ExpiryTimer} {n : ℕ} {runs : List ExpiryRun}
    {completing : List Session} {calls : List DisableCall}
    (hruns : m.isStopped = true → runs ⊆ m.expiryRuns)
    (hcalls : ∀ c ∈ calls, c ∈ m.disableCalls ∨
      c.awaits = .disable c.tokenID ∨ c.awaits = .stop) :
    Move m a { m with
      expiryTimers := timers
      nextTimerID := n
      expiryRuns := runs
      completing := completing
      disableCalls := calls }
  | track {s : Session} {now : Time} {timers : String → Option ExpiryTimer} {n : ℕ}
    (hstop : m.isStopped = false) (hdis : m.isDisabled s.tokenID = false) (hs : s ∉ m.tracked) :
    Move m (.track s now) { m with
      sessions := m.sessions.insert s
      tracked := s :: m.tracked
      expiryTimers := timers
      nextTimerID := n }
  | acquire {s : Session} {now : Time} (hs : s ∈ m.sessions) :
    Move m (.acquire s now) (m.grant s).1
  | fork {s : Session} (hs : s ∈ m.sessions) : Move m (.fork s) (m.grant s).1
  | release {l : Lease} : Move m (.release l) (m.release l)
  | remove {s : Session} {now : Time} {timers : String → Option ExpiryTimer} {n : ℕ}
    (hs : s ∈ m.sessions) :
    Move m (.remove s now) { m with
      sessions := m.sessions.erase s
      removals := (m.removals.registerRemove s).1
      expiryTimers := timers
      nextTimerID := n }
  | disable {a : Action} {tokenID : String} {runs : List ExpiryRun} {calls : List DisableCall}
    (ha : a.keepsSessions = false) (hstop : m.isStopped = false)
    (hnew : m.isDisabled tokenID = false)
    (hcalls : ∀ c ∈ calls, c ∈ m.disableCalls ∨ c.awaits = .disable c.tokenID) :
    Move m a { (m.beginDisable tokenID).1 with expiryRuns := runs, disableCalls := calls }
  | stop (hnew : m.isStopped = false) : Move m .beginStop m.beginStop
  | closeCleanup {s : Session} {completing : List Session} :
    Move m (.closeCleanup s) { m with
      completing := completing
      removals := m.removals.complete s
      cleaned := s :: m.cleaned }
  | finishRemove {s : Session} {r : Removals}
    (hr : m.removals.finishRemove s (m.isLeased s) = some r) :
    Move m (.finishRemove s) { m with removals := r }
  | returnDisable {call : DisableCall} (hcall : call ∈ m.disableCalls)
    (hclosed : m.isClosed call.awaits = true) :
    Move m (.returnDisable call) { m with
      disableCalls := m.disableCalls.erase call
      returned := call.tokenID :: m.returned }
  | drainSession {target : DrainTarget} {d : Drain} {s : Session} {p : Manager × Drain}
    (hd : m.drainOf target = some d) (hp : m.drainSession d s = some p) :
    Move m (.drainSession target s) (p.1.setDrain p.2 target)
  | drainNext {target : DrainTarget} {d d' : Drain} (hd : m.drainOf target = some d)
    (hn : d.next = some d') : Move m (.drainNext target) (m.setDrain d' target)
  | closeDrain {target : DrainTarget} {m' : Manager} (h : m.closeDrain target = some m') :
    Move m (.closeDrain target) m'

section Moves

variable {a : Action}

theorem Move.same : Move m a m := .idle (fun _ => List.Subset.refl _) fun _ h => .inl h

theorem scheduleExpiry_eq (m : Manager) (tokenID : String) (now : Time) :
    ∃ timers n, m.scheduleExpiry tokenID now =
      { m with expiryTimers := timers, nextTimerID := n } := by
  unfold scheduleExpiry
  split
  · exact ⟨_, m.nextTimerID, rfl⟩
  · split
    · exact ⟨m.expiryTimers, m.nextTimerID, rfl⟩
    · exact ⟨_, _, rfl⟩

theorem beginDisable_eq (m : Manager) (tokenID : String) :
    (m.beginDisable tokenID).1 = { m with
      sessions := (m.beginDisable tokenID).1.sessions
      removals := (m.beginDisable tokenID).1.removals
      disableStates := (m.beginDisable tokenID).1.disableStates
      disabledIDs := (m.beginDisable tokenID).1.disabledIDs
      expiryTimers := (m.beginDisable tokenID).1.expiryTimers } := by
  unfold beginDisable
  split <;> rfl

/-- A drain that handles a session changes the removals and what has been cleaned. -/
theorem drainSession_eq {d : Drain} {p : Manager × Drain}
    (h : m.drainSession d s = some p) :
    p.1 = { m with removals := p.1.removals, cleaned := p.1.cleaned } := by
  unfold drainSession at h
  split at h
  · split at h <;> cases h
    rfl
  · split at h <;> cases h
    rfl
  · split at h <;> cases h
    rfl
  · split at h <;> cases h
    rfl
  · cases h

theorem setDrain_eq (d : Drain) (target : DrainTarget) :
    m.setDrain d target = { m with
      disableStates := (m.setDrain d target).disableStates
      stopState := (m.setDrain d target).stopState } := by
  cases target <;> rfl

theorem closeDrain_eq {target : DrainTarget} (h : m.closeDrain target = some m') :
    m' = { m with disableStates := m'.disableStates, stopState := m'.stopState } := by
  cases target with
  | disable tokenID | stop =>
    simp only [closeDrain] at h
    split at h
    · cases h
    split at h <;> cases h
    rfl

theorem track_spec (m : Manager) (s : Session) (now : Time) :
    m.track s now = (m, false) ∨ m.isStopped = false ∧ m.isDisabled s.tokenID = false ∧
      (m.track s now = ((m.beginDisable s.tokenID).1, false) ∨ ∃ timers n, m.track s now =
        ({ m with
          sessions := m.sessions.insert s
          tracked := s :: m.tracked
          expiryTimers := timers
          nextTimerID := n }, true)) := by
  unfold track
  split
  · exact .inl rfl
  split
  · exact .inl rfl
  next hstop =>
  split
  · exact .inl rfl
  next hdis =>
  split
  · exact .inr ⟨by simpa using hstop, by simpa using hdis, .inl rfl⟩
  split
  · exact .inl rfl
  obtain ⟨timers, n, he⟩ := scheduleExpiry_eq
    { m with sessions := m.sessions.insert s, tracked := s :: m.tracked } s.tokenID now
  exact .inr ⟨by simpa using hstop, by simpa using hdis, .inr ⟨timers, n, by rw [he]⟩⟩

/-- `Acquire` grants a lease on a session it holds, refuses, or begins the disable of an expired
session's token. -/
theorem acquire_cases (m : Manager) (s : Session) (now : Time) :
    (s ∈ m.sessions ∧ m.acquire s now = m.grant s) ∨ m.acquire s now = (m, none) ∨
      m.isStopped = false ∧ m.isDisabled s.tokenID = false ∧
        m.acquire s now = ({ (m.beginDisable s.tokenID).1 with
          expiryRuns := .joining s.tokenID :: (m.beginDisable s.tokenID).1.expiryRuns }, none) := by
  unfold acquire
  split
  · exact .inr (.inl rfl)
  next hstop =>
  split
  · exact .inr (.inl rfl)
  next hdis =>
  split
  · exact .inr (.inl rfl)
  next hs =>
  split
  · have hwon : (m.beginDisable s.tokenID).2 = true := by simp [beginDisable, hdis]
    exact .inr (.inr ⟨by simpa using hstop, by simpa using hdis, by simp only [hwon, if_true]⟩)
  · exact .inl ⟨not_not.mp hs, rfl⟩

theorem fork_spec (m : Manager) (s : Session) :
    (s ∈ m.sessions ∧ m.fork s = m.grant s) ∨ (m.fork s = (m, none)) := by
  unfold fork
  split
  · exact .inr rfl
  split
  · exact .inr rfl
  split
  · exact .inr rfl
  next hs => exact .inl ⟨not_not.mp hs, rfl⟩

theorem mem_disableCalls_beginDisable {c : DisableCall}
    (h : c ∈ (m.beginDisable tokenID).1.disableCalls) : c ∈ m.disableCalls := by
  rwa [beginDisable_eq] at h

theorem move_expireCheck {generation : ℕ} {runs : List ExpiryRun}
    (hruns : m.isStopped = true → runs ⊆ m.expiryRuns) :
    Move m (.expireCheck tokenID generation now)
      { (m.expireCheck tokenID generation now).1 with expiryRuns := runs } := by
  unfold expireCheck
  split
  · exact .idle hruns fun _ h => .inl h
  next hstop =>
  split
  · exact .idle hruns fun _ h => .inl h
  split
  · exact .idle hruns fun _ h => .inl h
  split
  · obtain ⟨timers, n, he⟩ := scheduleExpiry_eq
      { m with expiryTimers := Function.update m.expiryTimers tokenID none } tokenID now
    rw [he]
    exact .idle hruns fun _ h => .inl h
  · cases hnew : m.isDisabled tokenID with
    | false =>
      exact .disable rfl (by simpa using hstop) hnew
        fun c hc => .inl (mem_disableCalls_beginDisable hc)
    | true =>
      rw [beginDisable, if_pos hnew]
      exact .idle hruns fun _ h => .inl h

theorem step_move (h : m.step a = some m') : Move m a m' := by
  cases a with
  | track s now =>
    simp only [step] at h
    split at h
    · cases h
    next hn =>
    cases h
    rcases track_spec m s now with he | ⟨hstop, hdis, he | ⟨timers, n, he⟩⟩
    · rw [he]
      exact .same
    · rw [he]
      exact .disable rfl hstop hdis fun c hc => .inl (mem_disableCalls_beginDisable hc)
    · have hs : s ∉ m.tracked := fun hs => hn ⟨hs, by rw [he]⟩
      rw [he]
      exact .track hstop hdis hs
  | acquire s now =>
    cases h
    rcases acquire_cases m s now with ⟨hs, he⟩ | he | ⟨hstop, hdis, he⟩
    · rw [he]
      exact .acquire hs
    · rw [he]
      exact .same
    · rw [he]
      exact .disable rfl hstop hdis fun c hc => .inl (mem_disableCalls_beginDisable hc)
  | fork s =>
    cases h
    rcases fork_spec m s with ⟨hs, he⟩ | he
    · rw [he]
      exact .fork hs
    · rw [he]
      exact .same
  | release l =>
    cases h
    exact .release
  | remove s now =>
    cases h
    unfold remove
    split
    · exact .same
    split
    · exact .same
    split
    · exact .same
    next hs =>
    obtain ⟨timers, n, he⟩ := scheduleExpiry_eq
      { m with
        sessions := m.sessions.erase s
        removals := (m.removals.registerRemove s).1 } s.tokenID now
    rw [he]
    exact .remove (not_not.mp hs)
  | completeRemove s =>
    simp only [step] at h
    split at h <;> cases h
    · exact .idle (fun _ => List.Subset.refl _) fun _ h => .inl h
    · exact .same
  | closeCleanup s =>
    simp only [step] at h
    split at h <;> cases h
    exact .closeCleanup
  | finishRemove s =>
    obtain ⟨r, hr, rfl⟩ := Option.map_eq_some_iff.mp h
    exact .finishRemove hr
  | disable tokenID =>
    simp only [step] at h
    split at h
    · cases h
      refine .idle (fun _ => List.Subset.refl _) fun c hc => ?_
      rcases List.mem_cons.mp hc with rfl | hc
      · exact .inr (.inr rfl)
      · exact .inl hc
    next hstop =>
    cases h
    have hcalls : ∀ c ∈ ⟨tokenID, .disable tokenID⟩ :: (m.beginDisable tokenID).1.disableCalls,
        c ∈ m.disableCalls ∨ c.awaits = .disable c.tokenID := by
      intro c hc
      rcases List.mem_cons.mp hc with rfl | hc
      · exact .inr rfl
      · exact .inl (mem_disableCalls_beginDisable hc)
    cases hnew : m.isDisabled tokenID with
    | false => exact .disable rfl (by simpa using hstop) hnew hcalls
    | true =>
      rw [beginDisable, if_pos hnew] at hcalls ⊢
      exact .idle (fun _ => List.Subset.refl _) fun c hc => (hcalls c hc).imp_right .inl
  | returnDisable call =>
    simp only [step] at h
    split at h
    · next hc =>
      cases h
      exact .returnDisable hc.1 hc.2
    · cases h
  | beginStop =>
    cases h
    cases hnew : m.isStopped with
    | false => exact .stop hnew
    | true =>
      rw [beginStop, if_pos hnew]
      exact .same
  | drainSession target s =>
    obtain ⟨d, hd, h⟩ := Option.bind_eq_some_iff.mp h
    obtain ⟨p, hp, rfl⟩ := Option.map_eq_some_iff.mp h
    exact .drainSession hd hp
  | drainNext target =>
    obtain ⟨d, hd, h⟩ := Option.bind_eq_some_iff.mp h
    obtain ⟨d', hd', rfl⟩ := Option.map_eq_some_iff.mp h
    exact .drainNext hd hd'
  | closeDrain target => exact .closeDrain h
  | expire tokenID generation =>
    simp only [step] at h
    split at h
    · cases h
      exact .same
    next hstop =>
    cases h
    exact .idle (fun hs => absurd hs hstop) fun _ h => .inl h
  | expireCheck tokenID generation now =>
    simp only [step] at h
    split at h <;> cases h
    refine move_expireCheck fun hstop => ?_
    rw [expireCheck, if_pos hstop]
    exact List.erase_subset
  | expireExit tokenID =>
    simp only [step] at h
    split at h <;> cases h
    exact .idle (fun _ => List.erase_subset) fun _ h => .inl h

end Moves

theorem not_mem_index_of_mem_sessions (hv : (m.view s).Valid) (hs : s ∈ m.sessions) :
    s ∉ m.removals.index := by
  intro hi
  have hnone : m.removals.state s = none := (hv.active (decide_eq_true hs)).2
  rw [Removals.mem_index_iff, hnone] at hi
  cases hi

theorem step_registerRemoves (hv : (m.view s).Valid) {l : List Session}
    {sessions : IndexedSet Session.tokenID} (hl : ∀ u ∈ l, u ∈ m.sessions)
    (hsessions : ∀ u, u ∈ sessions ↔ u ∈ m.sessions ∧ u ∉ l)
    (hm : m'.view s = { m.view s with
      active := decide (s ∈ sessions)
      removal := (m.removals.registerRemoves l).1.state s }) :
    SessionView.Step (m.view s) (m'.view s) := by
  by_cases hs : s ∈ l
  · have hnot := not_mem_index_of_mem_sessions hv (hl s hs)
    have hnew : s ∉ sessions := fun h => ((hsessions s).mp h).2 hs
    rw [hm, Removals.state_registerRemoves_of_mem hs hnot, decide_eq_false hnew]
    exact .detach _ (decide_eq_true (hl s hs))
  · have hsame : decide (s ∈ sessions) = (m.view s).active := by
      simp [view, hsessions, hs]
    rw [hm, Removals.state_registerRemoves (.inl hs), hsame]
    exact .stay _

theorem step_beginDisable (hv : (m.view s).Valid) :
    SessionView.Step (m.view s) ((m.beginDisable tokenID).1.view s) := by
  unfold beginDisable
  split
  · exact .stay _
  · have hl : ∀ u ∈ m.sessions.byKey tokenID, u ∈ m.sessions := fun u hu =>
      (IndexedSet.mem_byKey_iff.mp hu).1
    have hrest : ∀ u, u ∈ m.sessions.eraseKey tokenID ↔
        u ∈ m.sessions ∧ u ∉ m.sessions.byKey tokenID := by
      intro u
      simp only [IndexedSet.mem_eraseKey, IndexedSet.mem_byKey_iff]
      tauto
    exact step_registerRemoves hv hl hrest rfl

theorem step_beginStop (hv : (m.view s).Valid) :
    SessionView.Step (m.view s) (m.beginStop.view s) := by
  unfold beginStop
  split
  · exact .stay _
  · have hrest : ∀ u, u ∈ (IndexedSet.empty : IndexedSet Session.tokenID) ↔
        u ∈ m.sessions ∧ u ∉ m.sessions.all := fun u =>
      iff_of_false (IndexedSet.not_mem_empty u) fun h => h.2 h.1
    exact step_registerRemoves hv (fun u hu => hu) hrest rfl

theorem step_grant (hs : s ∈ m.sessions) :
    SessionView.Step (m.view u) ((m.grant s).1.view u) := by
  have hview : (m.grant s).1.view u =
      { m.view u with leased := decide (s = u) || m.isLeased u } := rfl
  rw [hview]
  by_cases hu : s = u
  · rw [decide_eq_true hu]
    exact .grant _ (decide_eq_true (hu ▸ hs))
  · rw [decide_eq_false hu]
    exact .stay _

theorem isLeased_of_release {l : Lease} (h : (m.release l).isLeased u = true) :
    m.isLeased u = true := by
  obtain ⟨k, hk, hku⟩ := isLeased_iff.mp h
  exact isLeased_iff.mpr ⟨k, (List.mem_filter.mp hk).1, hku⟩

theorem step_release {l : Lease} : SessionView.Step (m.view u) ((m.release l).view u) := by
  have hview : (m.release l).view u = { m.view u with leased := (m.release l).isLeased u } := rfl
  rw [hview]
  cases hl : (m.release l).isLeased u with
  | false => exact .release _
  | true =>
    have hsame : (m.view u).leased = true := isLeased_of_release hl
    rw [← hsame]
    exact .stay _

theorem step_track (hs : s ∉ m.tracked) {timers : String → Option ExpiryTimer} {n : ℕ} :
    SessionView.Step (m.view u) (view { m with
      sessions := m.sessions.insert s
      tracked := s :: m.tracked
      expiryTimers := timers
      nextTimerID := n } u) := by
  by_cases hu : u = s
  · subst hu
    exact .of_eq (.enter (m.view u) (decide_eq_false hs)) (by simp [view, isLeased])
  · exact .of_eq (.stay (m.view u)) (by simp [view, hu, isLeased])

theorem step_closeCleanup {l : List Session} :
    SessionView.Step (m.view u) (view { m with
      completing := l
      removals := m.removals.complete s
      cleaned := s :: m.cleaned } u) := by
  by_cases hu : u = s
  · subst hu
    refine .of_eq (.complete (m.view u)) ?_
    simp [view, isLeased, Removals.complete, Removals.modify]
  · refine .of_eq (.stay (m.view u)) ?_
    simp [view, isLeased, Removals.complete, Removals.modify, hu]

theorem step_finishRemove {r : Removals} (h : m.removals.finishRemove s (m.isLeased s) = some r) :
    SessionView.Step (m.view u) (view { m with removals := r } u) := by
  obtain ⟨old, new, hold, hstate, hcase⟩ := Removals.finishRemove_spec h
  have hview : view { m with removals := r } u =
      { m.view u with removal := Function.update m.removals.state s (some new) u } := by
    rw [← hstate]
    rfl
  rw [hview]
  by_cases hu : u = s
  · subst hu
    rw [Function.update_self]
    obtain ⟨b, rfl, hl, rfl⟩ | ⟨rfl, rfl⟩ | ⟨rfl, rfl⟩ | ⟨rfl, rfl⟩ := hcase
    · exact .drain _ b hold hl
    · exact .unlink _ hold
    · exact .close _ hold
    · exact .exit _ hold
  · rw [Function.update_of_ne hu]
    exact .stay _

@[simp] theorem view_setDrain (d : Drain) (target : DrainTarget) :
    (m.setDrain d target).view u = m.view u := by
  cases target <;> rfl

/-- What a drain completes has been cleaned up before. -/
def CompletesCleaned (m : Manager) : Prop :=
  ∀ target d rest, m.drainOf target = some d → d.phase = .completing rest →
    ∀ s ∈ rest, s ∈ m.cleaned

theorem step_drainSession {d : Drain} {p : Manager × Drain}
    (hc : ∀ rest, d.phase = .completing rest → ∀ s ∈ rest, s ∈ m.cleaned)
    (h : m.drainSession d s = some p) : SessionView.Step (m.view u) (p.1.view u) := by
  unfold drainSession at h
  split at h
  · split at h
    · cases h
      exact .stay _
    · cases h
  · split at h
    · cases h
      by_cases hu : u = s
      · subst hu
        exact .of_eq (.clean (m.view u)) (by simp [view, isLeased])
      · exact .of_eq (.stay (m.view u)) (by simp [view, isLeased, hu])
    · cases h
  · next rest hp =>
    split at h
    · next hs =>
      cases h
      have hclean := hc rest hp s hs
      have hview : view { m with removals := m.removals.complete s } u =
          view { m with
            completing := m.completing
            removals := m.removals.complete s
            cleaned := s :: m.cleaned } u := by
        simp only [view, isLeased, List.mem_cons, SessionView.mk.injEq, true_and,
          decide_eq_decide]
        exact (or_iff_right_of_imp fun e => e ▸ hclean).symm
      rw [hview]
      exact step_closeCleanup
    · cases h
  · split at h
    · cases h
      exact .stay _
    · cases h
  · cases h

/-- Every step of the manager is a step in the life of each session. -/
theorem step_view {a : Action} (hv : (m.view u).Valid) (hc : m.CompletesCleaned)
    (h : m.step a = some m') : SessionView.Step (m.view u) (m'.view u) := by
  cases step_move h with
  | idle => exact .stay _
  | track _ _ hs => exact step_track hs
  | acquire hs | fork hs => exact step_grant hs
  | release => exact step_release
  | remove hs => exact step_registerRemoves hv (l := [_]) (by simpa using hs) (by simp) rfl
  | disable => exact step_beginDisable hv
  | stop => exact step_beginStop hv
  | closeCleanup => exact step_closeCleanup
  | finishRemove hr => exact step_finishRemove hr
  | returnDisable => exact .stay _
  | drainSession hd hp =>
    rw [view_setDrain]
    exact step_drainSession (fun rest => hc _ _ rest hd) hp
  | drainNext =>
    rw [view_setDrain]
    exact .stay _
  | closeDrain h =>
    rw [closeDrain_eq h]
    exact .stay _

end Manager

end OtelMagnify.Token
