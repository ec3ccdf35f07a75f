import OtelMagnify.Server.Calls

/-! Waiting for a session to drain. The gate of a session that the manager still holds has no
writer, and no goroutine waits for the leases of a session while it holds one of them. The caller
of a failed send waits itself only when the counter of the session is zero after `Remove`; the
counter never falls below the number of leases of a session that has left the manager. -/
namespace OtelMagnify.Server
open Push Token StepSystem

inductive TokenMove (σ : Shared) (t : Thread) : Manager → Prop where
  | stay (h : t.releases = none) : TokenMove σ t σ.tokens
  | release (l : Lease) (h : t.releases = some l) : TokenMove σ t (σ.tokens.release l)
  | acquire (s : Session) (now : Push.Time) (h : t.releases = none) (ha : t.acquires = some s) :
      TokenMove σ t (σ.tokens.acquire s now).1
  | fork (s : Session) (h : t.releases = none) (ha : t.acquires = some s) :
      TokenMove σ t (σ.tokens.fork s).1
  | remove (s : Session) (now : Push.Time) (h : t.releases = none) (hl : t.locksManager = true) :
      TokenMove σ t (σ.tokens.remove s now)
  | settle (a : Token.Action) (m : Manager) (h : t.releases = none) (ha : a.keepsSessions = true)
      (hstep : σ.tokens.step a = some m) : TokenMove σ t m

variable {m : Manager} {s : Session}

section Manager

variable {σ σ' : Shared} {t t' : Thread} {c : Choice} {new : Option Thread} {e : Event}

theorem handler_tokens {h : Handler} {stage : HandlerStage}
    (hm : resumeHandler σ h stage c = some (σ', t', new)) :
    TokenMove σ (.handler h stage) σ'.tokens := by
  obtain ⟨hr, he⟩ | ⟨w, rfl, he⟩ | ⟨d, rfl, he⟩ := (resumeHandler_sessions hm).tokens <;> rw [he]
  · exact .stay hr
  · exact .fork h.session rfl rfl
  · exact .release h.lease rfl

theorem closer_tokens {kind : Closing} {stage : CloserStage}
    (hm : resumeCloser σ kind s stage c = some (σ', t', new)) :
    TokenMove σ (.closer kind s stage) σ'.tokens := by
  cases stage with
  | removing =>
    cases hm
    exact .remove s c.now rfl rfl
  | responding l =>
    cases hm
    exact .release l rfl
  | finishing | awaiting | disconnecting | releasing =>
    simp only [resumeCloser] at hm
    split at hm <;> cases hm <;> exact .stay rfl
  | completing | cleaning =>
    obtain ⟨m, hstep, hm⟩ := Option.map_eq_some_iff.mp hm
    cases hm
    exact .settle _ m rfl rfl hstep
  | returning =>
    simp only [resumeCloser] at hm
    split at hm
    · obtain ⟨m, hstep, hm⟩ := Option.map_eq_some_iff.mp hm
      cases hm
      exact .settle _ m rfl rfl hstep
    · cases hm
  | unbinding =>
    cases hm
    dsimp only [Shared.unbind]
    split <;> exact .stay rfl
  | _ =>
    cases hm
    exact .stay rfl

theorem resume_tokens (hm : resume σ t c = some (σ', t', new)) : TokenMove σ t σ'.tokens := by
  cases t with
  | handler h stage => exact handler_tokens hm
  | closer kind s stage => exact closer_tokens hm
  | arriving s msg sameConn | acquiring s =>
    cases hm
    exact .acquire s c.now rfl rfl
  | sent l failed | autoPush l =>
    cases hm
    exact .release l rfl
  | graceMark w =>
    cases hm
    split <;> exact .stay rfl
  | finished => cases hm
  | _ =>
    cases hm
    exact .stay rfl

theorem locksManager_of_acquires (h : t.acquires = some s) : t.locksManager = true := by
  cases t with
  | handler h' stage => cases stage <;> first | rfl | cases h
  | closer kind s' stage => cases h
  | arriving | acquiring => rfl
  | _ => cases h

/-- What a goroutine does with the leases: it gives one back, gets one on a session that the
manager holds, or leaves them alone. -/
theorem TokenMove.leases (h : TokenMove σ t m) :
    (∃ l, t.releases = some l ∧ m = σ.tokens.release l) ∨
      (∃ s, t.releases = none ∧ t.acquires = some s ∧ s ∈ σ.tokens.sessions ∧
        m = (σ.tokens.grant s).1) ∨
      (t.releases = none ∧ m.leases = σ.tokens.leases ∧ m.nextLease = σ.tokens.nextLease) := by
  cases h with
  | stay h => exact .inr (.inr ⟨h, rfl, rfl⟩)
  | release l h => exact .inl ⟨l, h, rfl⟩
  | acquire s now h ha =>
    rcases Manager.acquire_spec σ.tokens s now with ⟨hs, he⟩ | ⟨-, hl, hn, -⟩
    · exact .inr (.inl ⟨s, h, ha, hs, by rw [he]⟩)
    · exact .inr (.inr ⟨h, hl, hn⟩)
  | fork s h ha =>
    rcases Manager.fork_spec σ.tokens s with ⟨hs, he⟩ | he
    · exact .inr (.inl ⟨s, h, ha, hs, by rw [he]⟩)
    · exact .inr (.inr ⟨h, by rw [he], by rw [he]⟩)
  | remove s now h hl =>
    obtain ⟨hleases, hnext, -⟩ := Manager.step_frame (m := σ.tokens) (a := .remove s now) rfl rfl rfl
    exact .inr (.inr ⟨h, hleases, hnext⟩)
  | settle a m h ha hstep =>
    have hkeeps : a.keepsLeases = true ∧ a.keepsTracked = true := by
      cases a <;> first | exact ⟨rfl, rfl⟩ | cases ha
    obtain ⟨hleases, hnext, -⟩ := Manager.step_frame hkeeps.1 hkeeps.2 hstep
    exact .inr (.inr ⟨h, hleases, hnext⟩)

theorem TokenMove.sessions (h : TokenMove σ t m) (hl : t.locksManager = false) :
    m.sessions = σ.tokens.sessions := by
  cases h with
  | stay | release => rfl
  | acquire s now h ha | fork s h ha =>
    rw [locksManager_of_acquires ha] at hl
    cases hl
  | remove s now h hl' =>
    rw [hl'] at hl
    cases hl
  | settle a m h ha hstep => exact Manager.step_sessions ha hstep

theorem arrive_leases (hm : arrive σ e = some (σ', new)) :
    σ'.tokens.leases = σ.tokens.leases := by
  cases arrive_occurs hm with
  | connect => exact (Manager.track_frame _ _).1
  | tokens hi hstep =>
    exact (Manager.step_frame (internal_keeps hi).1 (internal_keeps hi).2 hstep).1
  | stopTokens => exact (Manager.step_frame (a := .beginStop) rfl rfl rfl).1
  | _ => rfl

theorem arrive_sessions (hm : arrive σ e = some (σ', new))
    (hl : e.locksManager σ.tokens = false) : σ'.tokens.sessions = σ.tokens.sessions := by
  cases arrive_occurs hm with
  | connect | stopTokens => cases hl
  | @tokens a m hi hstep =>
    cases a with
    | finishRemove | returnDisable | drainSession | drainNext | expireExit | closeDrain =>
      exact Manager.step_sessions rfl hstep
    | disable | expire | expireCheck => cases hl
    | _ => cases hi
  | _ => rfl

end Manager

theorem countP_filter_ne_lt {α : Type*} [DecidableEq α] {l : List α} {x : α} {p : α → Bool}
    (hx : x ∈ l) (hp : p x = true) : (l.filter (· ≠ x)).countP p + 1 ≤ l.countP p := by
  have hsplit := List.countP_eq_countP_filter_add l p (· ≠ x)
  have hpos : 0 < (l.filter fun y => !decide (y ≠ x)).countP p :=
    List.countP_pos_iff.mpr ⟨x, List.mem_filter.mpr ⟨hx, by simp⟩, hp⟩
  omega

/-- What the goroutine of a send may be doing: before it has found the counter at zero it waits for
nothing, and afterwards the session has no lease left. -/
def Careful (σ : Shared) (x : Sending) (t : Thread) : Prop :=
  if x.unleased then t = .finished ∨ ∃ s stage, t = .closer .disconnect s stage ∧ σ.Quiet s
  else ∀ kind s stage, t = .closer kind s stage → stage = .removing ∨ stage = .draining

/-- A goroutine that may wait for the leases of a session: one of the server, the `finishRemove`
of a session, or the one that runs a `completeDisable` or the `completeStop`. -/
inductive Waiter where
  | goroutine (i : ℕ)
  | finishRemove (s : Session)
  | drain (target : DrainTarget)

namespace Calls

def readers (r : Calls) (s : Session) : ℕ := r.server.shared.tokens.leases.countP (·.session = s)

/-- The goroutine waits in `waitRemoveDrain` or `waitForTokenSessions` for the session. -/
def Waits (r : Calls) : Waiter → Session → Prop
  | .goroutine i, s => ∃ kind, r.thread i = some (.closer kind s .awaiting)
  | .finishRemove u, s => u = s ∧ ∃ b, r.server.shared.tokens.removals.state s = some (.draining b)
  | .drain target, s => ∃ d, r.server.shared.tokens.drainOf target = some d ∧ s ∈ d.unwaited

/-- The leases that the goroutine holds: its own and, inside a call, that of the message or the
auto-push that made it. The manager's goroutines and the callers of `Disable` and `Track` handle no
message and hold none. -/
def holds (r : Calls) : Waiter → List Lease
  | .goroutine i =>
    ((r.thread i).bind Thread.lease).toList ++
      (r.calls.filter fun c => c.sending.any (·.thread = i)).flatMap fun c =>
        ((c.caller.bind r.thread).bind Thread.lease).toList
  | .finishRemove _ | .drain _ => []

variable {r r' : Calls} {a : CallAction}

/-- The counter of a session is at least the number of its leases, up to the counts that are under
way; a lease that is being granted is one on a session of the manager. -/
structure Balanced (r : Calls) : Prop where
  owned : Owned r.server
  linked : r.Linked
  counted : ∀ s, (r.readers s : ℤ) + r.uncounted.countP (·.2 = s) ≤
    r.counter s + r.granting.toList.countP (·.2 = s)
  granting : ∀ g, r.granting = some g → g.2 ∈ r.server.shared.tokens.sessions
  careful : ∀ c ∈ r.calls, ∀ x, c.sending = some x → ∀ t, r.thread x.thread = some t →
    Careful r.server.shared x t

theorem balanced_initial (retention : Push.Time) (rows : Workloads) :
    (initial retention rows).Balanced where
  owned := owned_initial retention rows
  linked _ h := by cases h
  counted s := by simp [initial, readers, Server.initial, Shared.initial, Manager.initial]
  granting _ h := by cases h
  careful _ h := by cases h

/-- A session that has left the manager and whose counter is zero has no lease. -/
theorem Balanced.not_isLeased (hr : r.Balanced)
    (hs : s ∉ r.server.shared.tokens.sessions) (h0 : r.counter s = 0) :
    r.server.shared.tokens.isLeased s = false := by
  have hgrant : r.granting.toList.countP (·.2 = s) = 0 := by
    refine List.countP_eq_zero.mpr fun g hg he => hs ?_
    rw [← of_decide_eq_true he]
    exact hr.granting g (Option.mem_toList.mp hg)
  have hcount := hr.counted s
  have hreaders : r.readers s = 0 := by omega
  by_contra hl
  obtain ⟨l, hl, he⟩ := Manager.isLeased_iff.mp (eq_true_of_ne_false hl)
  exact List.countP_eq_zero.mp hreaders l hl (decide_eq_true he)

variable {x : Sending} {i : ℕ} {c : Choice} {t : Thread}

/-- A step of the goroutine of a send. -/
theorem careful_resume {t' : Thread} {σ' : Shared} {new : Option Thread}
    {d : PushCall} (hd : d ∈ r.calls) (hx : d.sending = some x)
    (hb : r.isBlocked x.thread t = false) (h : Careful r.server.shared x t)
    (hf : Follows r.server.shared x.uid t) (hc : Change r.server.shared σ' t)
    (hm : Server.resume r.server.shared t c = some (σ', t', new)) : Careful σ' x t' := by
  unfold Careful at h ⊢
  split at h
  · next hu =>
    rw [if_pos hu]
    rcases h with rfl | ⟨s, stage, rfl, hq⟩
    · cases hm
    · refine (resumeCloser_thread hm).imp_right ?_
      rintro ⟨stage', rfl⟩
      exact ⟨s, stage', rfl, hq.change hc⟩
  · next hu =>
    rw [if_neg hu]
    rintro kind s stage rfl
    cases hf with
    | lookingUp =>
      cases hs : r.server.shared.conns x.uid <;> simp [Server.resume, hs] at hm
    | acquiring s' _ =>
      simp only [Server.resume] at hm
      cases hl : (r.server.shared.tokens.acquire s' c.now).2 <;> simp [hl] at hm
    | sending l _ => cases hm
    | sent l failed =>
      cases failed with
      | false => simp [Server.resume] at hm
      | true =>
        simp only [Server.resume, if_true, Option.some.injEq, Prod.mk.injEq, Thread.closer.injEq]
          at hm
        exact .inl hm.2.1.2.2.symm
    | closer s' stage' =>
      rcases h _ _ _ rfl with rfl | rfl
      · simp only [Server.resume, resumeCloser, reduceCtorEq, if_false, Option.some.injEq,
          Prod.mk.injEq, Thread.closer.injEq] at hm
        exact .inr hm.2.1.2.2.symm
      · -- the counter has to be loaded before the goroutine goes on
        have hawaits : r.calls.any (·.awaitsLoad x.thread) = true :=
          List.any_eq_true.mpr ⟨d, hd, by simp [PushCall.awaitsLoad, hx, hu]⟩
        simp [isBlocked, Thread.beforeLoad, hawaits] at hb
    | finished => cases hm

theorem careful_change {σ σ' : Shared} {u : Thread} (h : Careful σ x u)
    (hc : Change σ σ' t) : Careful σ' x u := by
  unfold Careful at h ⊢
  split at h
  · next hu =>
    rw [if_pos hu]
    refine h.imp_right ?_
    rintro ⟨s, stage, rfl, hq⟩
    exact ⟨s, stage, rfl, hq.change hc⟩
  · next hu =>
    rw [if_neg hu]
    exact h

theorem granting_eq_none (hb : r.isBlocked i t = false)
    (hl : t.locksManager = true) : r.granting = none := by
  cases hg : r.granting with
  | none => rfl
  | some g => simp [isBlocked, hg, hl] at hb

theorem readers_release {l : Lease} (hl : l ∈ m.leases) (s : Session) :
    (m.release l).leases.countP (·.session = s) + (if l.session = s then 1 else 0) ≤
      m.leases.countP (·.session = s) := by
  split
  · next hs => exact countP_filter_ne_lt hl (decide_eq_true hs)
  · exact List.filter_sublist.countP_le

theorem lease_of_releases {l : Lease} (h : t.releases = some l) : t.lease = some l := by
  cases t with
  | handler h' stage => cases stage <;> first | exact h | cases h
  | closer kind s stage => cases stage <;> exact h
  | sent | autoPush => exact h
  | _ => cases h

theorem Balanced.counted_resume (hr : r.Balanced) (h : r.resume i c = some r') (s : Session) :
    (r'.readers s : ℤ) + r'.uncounted.countP (·.2 = s) ≤
      r'.counter s + r'.granting.toList.countP (·.2 = s) := by
  obtain ⟨t, σ', t', new, ht, hb, hm, rfl⟩ := resume_eq_some h
  have hold := hr.counted s
  have hok := hr.owned.thread t (List.mem_of_getElem? ht)
  dsimp only [readers] at hold ⊢
  rcases (resume_tokens hm).leases with ⟨l, hl, hrel⟩ | ⟨s', hnone, hacq, -, hgrant⟩ |
    ⟨hnone, hleases, hnext⟩
  · have hle := readers_release (hok.lease l (lease_of_releases hl)).1 s
    have hnext : (r.server.shared.tokens.release l).nextLease =
      r.server.shared.tokens.nextLease := rfl
    rw [hrel, hl, if_pos hnext]
    simp only [Option.map_some, Option.toList_some, List.singleton_append, List.countP_cons,
      decide_eq_true_eq]
    split at hle <;> simp_all <;> omega
  · have hfree := granting_eq_none hb (locksManager_of_acquires hacq)
    have hnext : (r.server.shared.tokens.grant s').1.nextLease ≠
      r.server.shared.tokens.nextLease := Nat.succ_ne_self _
    rw [hgrant, hnone, if_neg hnext, hacq]
    simp only [hfree, Option.toList_none, List.countP_nil] at hold
    simp only [Manager.grant, List.countP_cons, Option.map_some, Option.toList_some,
      Option.map_none, Option.toList_none, List.nil_append, List.countP_nil]
    omega
  · rw [hleases, hnone, if_pos hnext]
    exact hold

theorem Balanced.resume (hr : r.Balanced) (howned : Owned r'.server) (hlinked : r'.Linked)
    (h : r.resume i c = some r') : r'.Balanced := by
  have hcounted := hr.counted_resume h
  obtain ⟨t, σ', t', new, ht, hb, hm, hr'⟩ := resume_eq_some h
  have hserver : r'.server = ⟨σ', r.server.threads.set i t' ++ new.toList⟩ := by rw [hr']
  have hshared : r'.server.shared = σ' := by rw [hserver]
  have hok := hr.owned.thread t (List.mem_of_getElem? ht)
  have hchange := (good_resume hr.owned.shared hok hm).change
  have hmove := resume_tokens hm
  refine ⟨howned, hlinked, hcounted, ?_, ?_⟩
  · intro g hg
    rw [hshared]
    have hgranting : r'.granting =
        if σ'.tokens.nextLease = r.server.shared.tokens.nextLease then r.granting
        else t.acquires.map (i, ·) := by rw [hr']
    rw [hgranting] at hg
    split at hg
    · -- the mutex is held for the lease, so this step does not take it
      have hfree : t.locksManager = false := by
        by_contra hl
        rw [granting_eq_none hb (eq_true_of_ne_false hl)] at hg
        cases hg
      rw [hmove.sessions hfree]
      exact hr.granting g hg
    · next hnext =>
      rcases hmove.leases with ⟨l, -, hrel⟩ | ⟨s', -, hacq, hs', hgrant⟩ | ⟨-, -, hn⟩
      · exact absurd (by rw [hrel]; rfl) hnext
      · rw [hacq] at hg
        cases hg
        rw [hgrant]
        exact hs'
      · exact absurd hn hnext
  · rw [hshared]
    have hcalls : r'.calls = r.calls := by rw [hr']
    rw [hcalls]
    intro d hd x hx u' hu'
    obtain ⟨-, u, hu, hf⟩ := hr.linked d hd x hx
    have hcareful := hr.careful d hd x hx u hu
    rcases thread_resume ht hu hserver with ⟨hi, rfl, hj⟩ | ⟨-, hj⟩
    · cases hj.symm.trans hu'
      exact careful_resume hd hx (hi ▸ hb) hcareful hf hchange hm
    · cases hj.symm.trans hu'
      exact careful_change hcareful hchange

theorem Balanced.arrive {e : Event} (hr : r.Balanced) (howned : Owned r'.server)
    (hlinked : r'.Linked) (h : r.arrive e = some r') : r'.Balanced := by
  obtain ⟨σ', new, hm, hfree, rfl⟩ := arrive_eq_some h
  have hchange := (arrives hr.owned.shared hm).change
  refine ⟨howned, hlinked, ?_, ?_, ?_⟩
  · intro s
    have hold := hr.counted s
    dsimp only [readers] at hold ⊢
    rwa [arrive_leases hm]
  · intro g hg
    have hg : r.granting = some g := hg
    rw [arrive_sessions hm (hfree (by rw [hg]; rfl))]
    exact hr.granting g hg
  · intro d hd x hx u' hu'
    obtain ⟨-, u, hu, -⟩ := hr.linked d hd x hx
    cases (thread_append { r with server := ⟨σ', _⟩ } hu rfl).symm.trans hu'
    exact careful_change (hr.careful d hd x hx _ hu) hchange

theorem Balanced.of_calls (hr : r.Balanced) {calls : List PushCall}
    (hlinked : Linked { r with calls := calls }) (h : ∀ c ∈ calls, c ∈ r.calls ∨
      ∀ x, c.sending = some x → ∀ t, r.thread x.thread = some t →
        Careful r.server.shared x t) : Balanced { r with calls := calls } where
  owned := hr.owned
  linked := hlinked
  counted := hr.counted
  granting := hr.granting
  careful c hc x hx := (h c hc).elim (fun hc => hr.careful c hc x hx) fun hc => hc x hx

theorem Balanced.next {k : ℕ} {uid : String} (hr : r.Balanced) (howned : Owned r'.server)
    (hlinked : r'.Linked) (h : r.next k uid = some r') : r'.Balanced := by
  obtain ⟨c, hc, hnone, huid, rfl | ⟨-, rfl⟩⟩ := next_eq_some h
  · refine hr.of_calls hlinked fun d hd => ?_
    refine (List.mem_or_eq_of_mem_set hd).imp_right ?_
    rintro rfl x hx
    simp [hnone] at hx
  · refine ⟨howned, hlinked, hr.counted, hr.granting, ?_⟩
    intro d hd x hx t' ht'
    rcases List.mem_or_eq_of_mem_set hd with hd | rfl
    · obtain ⟨-, t, ht, -⟩ := hr.linked d hd x hx
      cases (thread_append { r with server := ⟨_, _⟩ } ht rfl).symm.trans ht'
      exact hr.careful d hd x hx _ ht
    · cases hx
      have hnew : t' = .lookingUp uid := by simpa [thread] using ht'.symm
      subst hnew
      exact fun kind s stage he => by cases he

theorem quiet_of_beforeLoad (hr : r.Balanced)
    (ht : r.thread x.thread = some t) (hs : t.beforeLoad = some s) (h0 : r.counter s = 0) :
    (∃ stage, t = .closer .disconnect s stage) ∧ r.server.shared.Quiet s := by
  have hok := hr.owned.thread t (List.mem_of_getElem? ht)
  cases t with
  | closer kind s' stage =>
    cases kind <;> cases stage <;> cases hs
    have hdetached := hok.closer_detached rfl
    exact ⟨⟨_, rfl⟩, hok.closer_connected, hdetached, hr.not_isLeased hdetached h0⟩
  | _ => cases hs

theorem Balanced.step (hr : r.Balanced) (h : r.step a = some r') : r'.Balanced := by
  have howned := owned_step hr.owned h
  have hlinked := hr.linked.step hr.owned h
  cases a with
  | server b =>
    cases b with
    | resume i c => exact hr.resume howned hlinked h
    | arrive e => exact hr.arrive howned hlinked h
  | call caller w target =>
    obtain ⟨-, rfl⟩ := call_eq_some h
    refine hr.of_calls hlinked fun d hd => ?_
    refine (List.mem_append.mp hd).imp_right fun hd => ?_
    obtain rfl := List.mem_singleton.mp hd
    exact fun x hx => by cases hx
  | next k uid => exact hr.next howned hlinked h
  | load k =>
    obtain ⟨c, x, s, hc, hx, hu, hs, ⟨h0, rfl⟩ | ⟨-, rfl⟩⟩ := load_eq_some h
    · obtain ⟨t, ht, hs⟩ := Option.bind_eq_some_iff.mp hs
      refine hr.of_calls hlinked fun d hd => ?_
      refine (List.mem_or_eq_of_mem_set hd).imp_right ?_
      rintro rfl y ⟨⟩ t' ht'
      cases ht.symm.trans ht'
      obtain ⟨⟨stage, rfl⟩, hq⟩ := quiet_of_beforeLoad hr ht hs h0
      exact .inr ⟨s, stage, rfl, hq⟩
    · refine hr.of_calls hlinked fun d hd => ?_
      refine (List.mem_or_eq_of_mem_set hd).imp_right ?_
      rintro rfl y ⟨⟩
  | finish k =>
    obtain ⟨c, x, hc, -, -, rfl⟩ := finish_eq_some h
    refine hr.of_calls hlinked fun d hd => ?_
    refine (List.mem_or_eq_of_mem_set hd).imp_right ?_
    rintro rfl y ⟨⟩
  | count =>
    obtain ⟨g, hg, rfl⟩ := Option.map_eq_some_iff.mp h
    refine ⟨hr.owned, hlinked, fun s => ?_, fun _ h => (by cases h), hr.careful⟩
    have hold := hr.counted s
    simp only [hg, Option.toList_some, List.countP_singleton, decide_eq_true_eq] at hold
    simp only [readers, Function.update_apply, Option.toList_none, List.countP_nil,
      eq_comm (a := s)] at hold ⊢
    split <;> simp_all
  | discount i =>
    obtain ⟨u, hu, rfl⟩ := Option.map_eq_some_iff.mp h
    refine ⟨hr.owned, hlinked, fun s => ?_, hr.granting, hr.careful⟩
    have hold := hr.counted s
    have hperm := (List.perm_cons_erase (List.mem_of_find?_eq_some hu)).countP_eq (·.2 = s)
    simp only [List.countP_cons, decide_eq_true_eq] at hperm
    simp only [readers, Function.update_apply, eq_comm (a := s)] at hold ⊢
    split <;> simp_all
    omega

/-- In every reachable state `Acquire` and `Fork` find no writer at the gate they lock; nobody who
waits for the leases of a session holds one of them; and when `disconnectSessionAfterSendError`
finds the counter at zero, the session it then waits for has no lease, and gets none while it
waits. -/
theorem drain_waits_never_self_block {retention : Push.Time} {rows : Workloads}
    (h : Reachable step (initial retention rows) r) :
    (∀ s now l, (r.server.shared.tokens.acquire s now).2 = some l ∨
        (r.server.shared.tokens.fork s).2 = some l →
      ¬ r.server.shared.tokens.HasWriter s) ∧
    (∀ x s, r.Waits x s → ∀ l ∈ r.holds x, l.session ≠ s) ∧
    (∀ c ∈ r.calls, ∀ x, c.sending = some x → ∀ t s, r.thread x.thread = some t →
      (t.beforeLoad = some s ∧ r.counter s = 0 ∨ x.unleased = true ∧ t.closes = some s) →
      r.server.shared.tokens.isLeased s = false) := by
  have hr : r.Balanced := h.invariant (balanced_initial retention rows) fun _ _ _ hr hs => hr.step hs
  refine ⟨?_, ?_, ?_⟩
  · intro s now l hl
    exact hr.owned.shared.tokens.not_hasWriter (Manager.mem_sessions_of_grant hl)
  · intro x s hw l hl
    cases x with
    | finishRemove | drain => cases hl
    | goroutine i =>
      obtain ⟨kind, ht⟩ := hw
      rcases List.mem_append.mp hl with hl | hl
      · simp [ht, Thread.lease] at hl
      · obtain ⟨c, hfilter, hlease⟩ := List.mem_flatMap.mp hl
        obtain ⟨hc, hi⟩ := List.mem_filter.mp hfilter
        obtain ⟨x, hx, hi⟩ := (Option.any_eq_true _ _).mp hi
        obtain rfl := of_decide_eq_true hi
        have hcareful := hr.careful c hc x hx _ ht
        unfold Careful at hcareful
        split at hcareful
        · obtain ⟨s', stage, he, hq⟩ := hcareful.resolve_left fun he => by cases he
          cases he
          obtain ⟨j, hj, hl⟩ := Option.bind_eq_some_iff.mp (Option.mem_toList.mp hlease)
          obtain ⟨k, -, hj⟩ := Option.bind_eq_some_iff.mp hj
          have hok := hr.owned.thread j (List.mem_of_getElem? hj)
          exact hq.not_leased (hok.lease l hl).1
        · rcases hcareful _ _ _ rfl with he | he <;> cases he
  · intro c hc x hx t s ht hs
    rcases hs with ⟨hs, h0⟩ | ⟨hu, hs⟩
    · exact (quiet_of_beforeLoad hr ht hs h0).2.drained
    · have hcareful := hr.careful c hc x hx t ht
      rw [Careful, if_pos hu] at hcareful
      rcases hcareful with rfl | ⟨s', stage, rfl, hq⟩
      · cases hs
      · cases hs
        exact hq.drained

/-- A step of a goroutine with a store that fails. -/
def goWithoutStore (i : ℕ) : CallAction := .server (.resume i ⟨0, false, true, .failed⟩)

/-- An agent describes itself and reports a failed config; the rollback push that its message makes
fails on its own session. -/
def failedRollbackRun : List CallAction :=
  let a : Session := ⟨0, "t", none⟩
  let msg : AgentMessage :=
    { instanceUid := List.replicate 16 7
      agentDescription := some ⟨[("host.name", "n1")], []⟩
      capabilities := 2
      remoteConfigStatus := some ⟨some .failed, [], ""⟩ }
  [.server (.arrive (.connect a 0)), .server (.arrive (.message a msg true)), go 0, .count, go 0,
    go 0, go 0, go 0, go 0] ++ List.replicate 7 (goWithoutStore 0) ++
    [.call (some 0) (hash24 "host||n1") "", .next 0 uid7, go 1, go 1, .count, goWithoutStore 1,
      go 1, .discount 1, go 1, .load 0, go 1]

/-- The message still holds its lease; another goroutine waits for the drain. -/
theorem drain_waits_never_self_block_rollback :
    ∃ r, run step (initial 0 fun _ => none) failedRollbackRun = some r ∧
      r.server.shared.tokens.isLeased ⟨0, "t", none⟩ = true ∧
      r.Waits (.goroutine 1) ⟨0, "t", none⟩ ∧
      ∀ l ∈ r.holds (.goroutine 1), l.session ≠ ⟨0, "t", none⟩ := by
  obtain ⟨r, hr, hleased, ht⟩ : ∃ r,
      run step (initial 0 fun _ => none) failedRollbackRun = some r ∧
        r.server.shared.tokens.isLeased ⟨0, "t", none⟩ = true ∧
        r.thread 1 = some (.closer .disconnect ⟨0, "t", none⟩ .awaiting) := by
    decide +kernel
  have hwaits : r.Waits (.goroutine 1) ⟨0, "t", none⟩ := ⟨_, ht⟩
  exact ⟨r, hr, hleased, hwaits,
    (drain_waits_never_self_block ⟨failedRollbackRun, hr⟩).2.1 _ _ hwaits⟩

end Calls

end OtelMagnify.Server
