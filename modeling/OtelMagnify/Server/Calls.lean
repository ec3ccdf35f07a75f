import OtelMagnify.Server.UidOwner

/-! `PushConfig` calls over the goroutines of the server. A call looks its instances up in the
registry and then runs one `sendToInstance` after the other; it may be made inside a message or an
auto-push, which waits for it with its own lease in hand. The lease counters of the sessions are
kept beside the gates: `Acquire` and `Fork` lock the gate and then count under the mutex of the
manager, `Release` unlocks and then counts down without it. -/
namespace OtelMagnify.Server
open Push Token StepSystem

namespace Thread

def releases : Thread → Option Lease
  | handler h (.releasing _) => some h.lease
  | closer _ _ (.responding l) => some l
  | sent l _ => some l
  | autoPush l => some l
  | _ => none

/-- The session whose gate the next step locks for reading, when the lease is granted. -/
def acquires : Thread → Option Session
  | arriving s _ _ => some s
  | acquiring s => some s
  | handler h (.forking _) => some h.session
  | _ => none

def locksManager : Thread → Bool
  | arriving _ _ _ | acquiring _ | handler _ (.forking _) => true
  | closer _ _ .removing | closer _ _ .draining | closer _ _ .completing => true
  | _ => false

/-- Where the source calls `pushFn`: in an auto-push, or at the end of a message that reported a
failed config (`attemptAutoRollback`). -/
def mayPush : Thread → Bool
  | autoPush _ => true
  | handler h (.unlocking false) => h.msg.remoteConfigStatus.any (·.status = some .failed)
  | _ => false

def sends : Thread → Bool
  | lookingUp _ | acquiring _ | sending _ => true
  | _ => false

/-- `disconnectSessionAfterSendError` between `Remove` and `leases.Load`. -/
def beforeLoad : Thread → Option Session
  | closer .disconnect s .draining => some s
  | _ => none

end Thread

def Event.locksManager (m : Manager) : Event → Bool
  | .connect _ _ | .stopTokens => true
  | .tokens (.finishRemove s) =>
    match m.removals.state s with
    | some (.drained _) => true
    | _ => false
  | .tokens (.disable _) | .tokens (.expire _ _) | .tokens (.expireCheck _ _ _) => true
  | .tokens (.closeDrain (.disable _)) => true
  | _ => false

/-- A `sendToInstance` of a call: the uid, the place of its goroutine in the pool, and whether it
has found no lease left after `Remove`, so that the caller itself waits for the drain. -/
structure Sending where
  uid : String
  thread : ℕ
  unleased : Bool
  deriving DecidableEq, Repr

/-- A `PushConfig` call: the goroutine that waits for it (none for a request of the API), the
workload, the instances that are left and the send that is under way. -/
structure PushCall where
  caller : Option ℕ
  workload : String
  rest : List String
  sending : Option Sending
  deriving DecidableEq, Repr

namespace PushCall

def isActive (c : PushCall) : Bool := c.rest ≠ [] || c.sending.isSome

/-- The call waits for the send of this goroutine, which has not loaded the lease counter. -/
def awaitsLoad (c : PushCall) (i : ℕ) : Bool := c.sending.any fun x => x.thread = i && !x.unleased

end PushCall

/-- The server with its calls. `granting` is a goroutine in `Acquire` or `Fork` that has locked
the gate of the session and holds the mutex of the manager; `uncounted` are the goroutines in
`Release` that have unlocked the gate and have not counted down. -/
structure Calls where
  server : State
  calls : List PushCall
  counter : Session → ℤ
  granting : Option (ℕ × Session)
  uncounted : List (ℕ × Session)

/-- `makeMsg` takes hexadecimal uids of 16 bytes. -/
def validUID (uid : String) : Bool :=
  uid.toList.length = 32 && uid.toList.all fun c =>
    c.isDigit || ('a' ≤ c && c ≤ 'f') || ('A' ≤ c && c ≤ 'F')

inductive CallAction where
  | server (a : Action)
  | call (caller : Option ℕ) (workload target : String)
  | next (k : ℕ) (uid : String)
  | load (k : ℕ)
  | finish (k : ℕ)
  | count
  | discount (i : ℕ)

namespace Calls

def initial (retention : Push.Time) (rows : Workloads) : Calls where
  server := Server.initial retention rows
  calls := []
  counter := fun _ => 0
  granting := none
  uncounted := []

def thread (r : Calls) (i : ℕ) : Option Thread := r.server.threads[i]?

/-- The instances to which `PushConfig` sends, none when it returns an error at once. -/
def targets (r : Calls) (workload target : String) : List String :=
  let registry := r.server.shared.registry
  if target ≠ "" then
    if registry.lookupWorkload target = some workload ∧ validUID target = true then [target]
    else []
  else (registry.instances workload).map (·.instanceUID)

/-- The goroutine waits: for a call, for its own count, for the mutex, or to load a counter. -/
def isBlocked (r : Calls) (i : ℕ) (t : Thread) : Bool :=
  r.calls.any (fun c => c.isActive && c.caller = some i) ||
    r.uncounted.any (·.1 = i) || r.granting.any (·.1 = i) ||
    (r.granting.isSome && t.locksManager) ||
    (t.beforeLoad.isSome && r.calls.any (·.awaitsLoad i))

def resume (r : Calls) (i : ℕ) (c : Choice) : Option Calls :=
  (r.thread i).bind fun t =>
    if r.isBlocked i t then none
    else
      (Server.step r.server (.resume i c)).map fun p =>
        { r with
          server := p
          granting :=
            if p.shared.tokens.nextLease = r.server.shared.tokens.nextLease then r.granting
            else t.acquires.map (i, ·)
          uncounted := (t.releases.map fun l => (i, l.session)).toList ++ r.uncounted }

/-- An event. Every send belongs to a call. -/
def arrive (r : Calls) (e : Event) : Option Calls :=
  match e with
  | .send _ => none
  | _ =>
    if r.granting.isSome && e.locksManager r.server.shared.tokens then none
    else (Server.step r.server (.arrive e)).map fun p => { r with server := p }

/-- `PushConfig` up to its look into the registry. -/
def call (r : Calls) (caller : Option ℕ) (workload target : String) : Option Calls :=
  if (caller.all fun i => (r.thread i).any fun t => t.mayPush && !r.isBlocked i t) = true then
    some { r with calls := r.calls ++ [⟨caller, workload, r.targets workload target, none⟩] }
  else none

/-- The loop of `PushConfig` takes an instance, in any order: the registry lists them from a map. -/
def next (r : Calls) (k : ℕ) (uid : String) : Option Calls :=
  r.calls[k]?.bind fun c =>
    if c.sending = none ∧ uid ∈ c.rest then
      let c := { c with rest := c.rest.erase uid }
      if validUID uid then
        (Server.step r.server (.arrive (.send uid))).map fun p =>
          { r with
            server := p
            calls := r.calls.set k
              { c with sending := some ⟨uid, r.server.threads.length, false⟩ } }
      else some { r with calls := r.calls.set k c }
    else none

/-- `leases.Load` of `disconnectSessionAfterSendError`: the caller waits for the drain itself only
when no lease is left. -/
def load (r : Calls) (k : ℕ) : Option Calls :=
  r.calls[k]?.bind fun c =>
    c.sending.bind fun x =>
      ((r.thread x.thread).bind Thread.beforeLoad).bind fun s =>
        if x.unleased then none
        else
          let x' := if r.counter s = 0 then some { x with unleased := true } else none
          some { r with calls := r.calls.set k { c with sending := x' } }

def finish (r : Calls) (k : ℕ) : Option Calls :=
  r.calls[k]?.bind fun c =>
    c.sending.bind fun x =>
      if r.thread x.thread = some .finished then
        some { r with calls := r.calls.set k { c with sending := none } }
      else none

/-- `leases.Add(1)` and the end of the locked section. -/
def count (r : Calls) : Option Calls :=
  r.granting.map fun g =>
    { r with counter := Function.update r.counter g.2 (r.counter g.2 + 1), granting := none }

/-- `leases.Add(-1)` -/
def discount (r : Calls) (i : ℕ) : Option Calls :=
  (r.uncounted.find? (·.1 = i)).map fun u =>
    { r with
      counter := Function.update r.counter u.2 (r.counter u.2 - 1)
      uncounted := r.uncounted.erase u }

def step (r : Calls) : CallAction → Option Calls
  | .server (.resume i c) => r.resume i c
  | .server (.arrive e) => r.arrive e
  | .call caller workload target => r.call caller workload target
  | .next k uid => r.next k uid
  | .load k => r.load k
  | .finish k => r.finish k
  | .count => r.count
  | .discount i => r.discount i

variable {r r' : Calls} {a : CallAction} {i k : ℕ} {c : Choice} {e : Event} {uid : String}

theorem resume_eq_some (h : r.resume i c = some r') :
    ∃ t σ' t' new, r.thread i = some t ∧ r.isBlocked i t = false ∧
      Server.resume r.server.shared t c = some (σ', t', new) ∧
      r' = { r with
        server := ⟨σ', r.server.threads.set i t' ++ new.toList⟩
        granting :=
          if σ'.tokens.nextLease = r.server.shared.tokens.nextLease then r.granting
          else t.acquires.map (i, ·)
        uncounted := (t.releases.map fun l => (i, l.session)).toList ++ r.uncounted } := by
  obtain ⟨t, ht, h⟩ := Option.bind_eq_some_iff.mp h
  split at h
  · cases h
  · next hb =>
    obtain ⟨p, hp, rfl⟩ := Option.map_eq_some_iff.mp h
    obtain ⟨t₀, σ', t', new, ht₀, hm, rfl⟩ := Pool.Program.step_resume_eq_some.mp hp
    cases ht₀.symm.trans ht
    exact ⟨t, σ', t', new, ht, by simpa using hb, hm, rfl⟩

theorem arrive_eq_some (h : r.arrive e = some r') :
    ∃ σ' new, Server.arrive r.server.shared e = some (σ', new) ∧
      (r.granting.isSome = true → e.locksManager r.server.shared.tokens = false) ∧
      r' = { r with server := ⟨σ', r.server.threads ++ new.toList⟩ } := by
  have hsplit : ∃ p, Server.step r.server (.arrive e) = some p ∧ r' = { r with server := p } ∧
      (r.granting.isSome = true → e.locksManager r.server.shared.tokens = false) := by
    unfold arrive at h
    split at h
    · cases h
    · split at h
      · cases h
      · next hb =>
        obtain ⟨p, hp, rfl⟩ := Option.map_eq_some_iff.mp h
        exact ⟨p, hp, rfl, fun hg => by simpa [hg] using hb⟩
  obtain ⟨p, hp, rfl, hb⟩ := hsplit
  obtain ⟨σ', new, hm, rfl⟩ := Pool.Program.step_arrive_eq_some.mp hp
  exact ⟨σ', new, hm, hb, rfl⟩

theorem call_eq_some {caller : Option ℕ} {w target : String}
    (h : r.call caller w target = some r') :
    (∀ i, caller = some i → ∃ t, r.thread i = some t ∧ t.mayPush = true) ∧
      r' = { r with calls := r.calls ++ [⟨caller, w, r.targets w target, none⟩] } := by
  unfold call at h
  split at h
  · next hc =>
    cases h
    refine ⟨fun i hi => ?_, rfl⟩
    subst hi
    obtain ⟨t, ht, hp⟩ := (Option.any_eq_true _ _).mp hc
    exact ⟨t, ht, (Bool.and_eq_true_iff.mp hp).1⟩
  · cases h

theorem next_eq_some (h : r.next k uid = some r') :
    ∃ c, r.calls[k]? = some c ∧ c.sending = none ∧ uid ∈ c.rest ∧
      (r' = { r with calls := r.calls.set k { c with rest := c.rest.erase uid } } ∨
        validUID uid = true ∧ r' = { r with
          server := ⟨r.server.shared, r.server.threads ++ [.lookingUp uid]⟩
          calls := r.calls.set k { c with
            rest := c.rest.erase uid
            sending := some ⟨uid, r.server.threads.length, false⟩ } }) := by
  obtain ⟨c, hc, h⟩ := Option.bind_eq_some_iff.mp h
  split at h
  · next hn =>
    refine ⟨c, hc, hn.1, hn.2, ?_⟩
    dsimp only at h
    split at h
    · next hv =>
      cases h
      exact .inr ⟨hv, rfl⟩
    · cases h
      exact .inl rfl
  · cases h

theorem load_eq_some (h : r.load k = some r') :
    ∃ c x s, r.calls[k]? = some c ∧ c.sending = some x ∧ x.unleased = false ∧
      (r.thread x.thread).bind Thread.beforeLoad = some s ∧
      (r.counter s = 0 ∧ r' = { r with
          calls := r.calls.set k { c with sending := some { x with unleased := true } } } ∨
        r.counter s ≠ 0 ∧ r' = { r with calls := r.calls.set k { c with sending := none } }) := by
  obtain ⟨c, hc, h⟩ := Option.bind_eq_some_iff.mp h
  obtain ⟨x, hx, h⟩ := Option.bind_eq_some_iff.mp h
  obtain ⟨s, hs, h⟩ := Option.bind_eq_some_iff.mp h
  split at h
  · cases h
  · next hu =>
    cases h
    refine ⟨c, x, s, hc, hx, by simpa using hu, hs, ?_⟩
    by_cases h0 : r.counter s = 0
    · exact .inl ⟨h0, by rw [if_pos h0]⟩
    · exact .inr ⟨h0, by rw [if_neg h0]⟩

theorem finish_eq_some (h : r.finish k = some r') :
    ∃ c x, r.calls[k]? = some c ∧ c.sending = some x ∧ r.thread x.thread = some .finished ∧
      r' = { r with calls := r.calls.set k { c with sending := none } } := by
  obtain ⟨c, hc, h⟩ := Option.bind_eq_some_iff.mp h
  obtain ⟨x, hx, h⟩ := Option.bind_eq_some_iff.mp h
  split at h
  · next hf =>
    cases h
    exact ⟨c, x, hc, hx, hf, rfl⟩
  · cases h

/-- The calls leave the server as it is, or start one more lookup. -/
theorem step_calls (h : r.step a = some r') (ha : ∀ b, a ≠ .server b) :
    r'.server = r.server ∨
      ∃ uid, r'.server = ⟨r.server.shared, r.server.threads ++ [.lookingUp uid]⟩ := by
  cases a with
  | server b => exact absurd rfl (ha b)
  | call caller w target =>
    rw [(call_eq_some h).2]
    exact .inl rfl
  | next k uid =>
    obtain ⟨c, -, -, -, rfl | ⟨-, rfl⟩⟩ := next_eq_some h
    · exact .inl rfl
    · exact .inr ⟨uid, rfl⟩
  | load k =>
    obtain ⟨c, x, s, -, -, -, -, ⟨-, rfl⟩ | ⟨-, rfl⟩⟩ := load_eq_some h <;> exact .inl rfl
  | finish k =>
    obtain ⟨c, x, -, -, -, rfl⟩ := finish_eq_some h
    exact .inl rfl
  | count | discount =>
    obtain ⟨g, -, rfl⟩ := Option.map_eq_some_iff.mp h
    exact .inl rfl

/-- Every step is one of the server, or leaves it as it is. -/
theorem step_server (h : r.step a = some r') :
    r'.server = r.server ∨ ∃ b, Server.step r.server b = some r'.server := by
  cases a with
  | server b =>
    right
    cases b with
    | resume i c =>
      obtain ⟨t, σ', t', new, ht, -, hm, rfl⟩ := resume_eq_some h
      exact ⟨.resume i c, Pool.Program.step_resume_eq_some.mpr ⟨t, σ', t', new, ht, hm, rfl⟩⟩
    | arrive e =>
      obtain ⟨σ', new, hm, -, rfl⟩ := arrive_eq_some h
      exact ⟨.arrive e, Pool.Program.step_arrive_eq_some.mpr ⟨σ', new, hm, rfl⟩⟩
  | _ =>
    refine (step_calls h fun b hb => nomatch hb).imp_right ?_
    rintro ⟨uid, he⟩
    exact ⟨.arrive (.send uid), by rw [he]; rfl⟩

theorem owned_step (hown : Owned r.server) (h : r.step a = some r') : Owned r'.server := by
  rcases step_server h with he | ⟨b, hb⟩
  · rwa [he]
  · exact program_keeps.step hown hb

end Calls

/-- What a handler does to the sessions: it moves the tokens to fork and to release, and writes the
owners of the uids to claim. -/
structure HandlerFrame (σ σ' : Shared) (h : Handler) (stage : HandlerStage) : Prop where
  released : σ'.released = σ.released
  once : ∀ s, (σ'.info s).releaseOnce = (σ.info s).releaseOnce ∧
    (σ'.info s).disconnectOnce = (σ.info s).disconnectOnce
  conns : stage ≠ .claiming → σ'.conns = σ.conns
  tokens : (Thread.handler h stage).releases = none ∧ σ'.tokens = σ.tokens ∨
    (∃ w, stage = .forking w ∧ σ'.tokens = (σ.tokens.fork h.session).1) ∨
    ∃ d, stage = .releasing d ∧ σ'.tokens = σ.tokens.release h.lease

section HandlerFrame

variable {σ σ' : Shared} {t' : Thread} {h : Handler} {stage : HandlerStage} {c : Choice}
  {new : Option Thread} {f : SessionInfo → SessionInfo}

theorem HandlerFrame.of_eq (hr : (Thread.handler h stage).releases = none)
    (hreleased : σ'.released = σ.released) (hinfo : σ'.info = σ.info)
    (hconns : σ'.conns = σ.conns) (htokens : σ'.tokens = σ.tokens) :
    HandlerFrame σ σ' h stage :=
  ⟨hreleased, fun s => by simp [hinfo], fun _ => hconns, .inl ⟨hr, htokens⟩⟩

theorem once_setInfo (s : Session) (hf : ∀ i, (f i).releaseOnce = i.releaseOnce ∧
    (f i).disconnectOnce = i.disconnectOnce) (x : Session) :
    ((σ.setInfo s f).info x).releaseOnce = (σ.info x).releaseOnce ∧
      ((σ.setInfo s f).info x).disconnectOnce = (σ.info x).disconnectOnce := by
  rw [setInfo_info]
  split
  · next hx => exact hx ▸ hf _
  · exact ⟨rfl, rfl⟩

theorem HandlerFrame.of_info (hr : (Thread.handler h stage).releases = none)
    (hf : ∀ i, (f i).releaseOnce = i.releaseOnce ∧ (f i).disconnectOnce = i.disconnectOnce) :
    HandlerFrame σ (σ.setInfo h.session f) h stage :=
  ⟨rfl, once_setInfo _ hf, fun _ => rfl, .inl ⟨hr, rfl⟩⟩

theorem resumeHandler_sessions (hm : resumeHandler σ h stage c = some (σ', t', new)) :
    HandlerFrame σ σ' h stage := by
  cases stage with
  | forking w =>
    cases hm
    exact ⟨rfl, fun _ => ⟨rfl, rfl⟩, fun _ => rfl, .inr (.inl ⟨w, rfl, rfl⟩)⟩
  | releasing d =>
    cases hm
    exact ⟨rfl, fun _ => ⟨rfl, rfl⟩, fun _ => rfl, .inr (.inr ⟨d, rfl, rfl⟩)⟩
  | locking =>
    simp only [resumeHandler] at hm
    split at hm
    · cases hm
    split at hm <;> cases hm
    · exact .of_eq rfl rfl rfl rfl rfl
    · exact .of_info rfl fun _ => ⟨rfl, rfl⟩
  | refreshing | reportReading =>
    simp only [resumeHandler] at hm
    split at hm <;> cases hm <;> exact .of_eq rfl rfl rfl rfl rfl
  | replying =>
    simp only [resumeHandler] at hm
    split at hm
    · cases hm
      exact .of_eq rfl rfl rfl rfl rfl
    · cases hm
      exact .of_eq rfl rfl rfl rfl rfl
    · split at hm <;> cases hm
      · exact .of_info rfl fun _ => ⟨rfl, rfl⟩
      · exact .of_eq rfl rfl rfl rfl rfl
  | claiming =>
    cases hm
    have hset := once_setInfo (σ := σ) h.session (f := fun i => { i with uid := h.uid })
      fun _ => ⟨rfl, rfl⟩
    dsimp only [Handler.claim]
    split_ifs <;>
      first
      | exact .of_eq rfl rfl rfl rfl rfl
      | exact ⟨rfl, hset, fun hs => absurd rfl hs, .inl ⟨rfl, rfl⟩⟩
  | admitting =>
    cases hm
    dsimp only [Handler.setAdmitted]
    split <;> dsimp only
    · exact .of_info rfl fun _ => ⟨rfl, rfl⟩
    · exact .of_eq rfl rfl rfl rfl rfl
  | unlocking disconnect =>
    cases hm
    dsimp only
    exact .of_info rfl fun _ => ⟨rfl, rfl⟩
  | accepted =>
    cases hm
    rcases h.accept_cases σ with ⟨desc, ins, -, he⟩ | ⟨-, he⟩ <;> rw [he] <;>
      exact .of_eq rfl rfl rfl rfl rfl
  | reporting w =>
    cases hm
    dsimp only [Handler.report]
    split
    · exact .of_eq rfl rfl rfl rfl rfl
    · split <;> exact .of_eq rfl rfl rfl rfl rfl
  | upserting | refreshUpserting | reportUpserting =>
    cases hm
    dsimp only [Shared.upsertWorkload]
    split <;> exact .of_eq rfl rfl rfl rfl rfl
  | clearing =>
    cases hm
    dsimp only
    split <;> exact .of_eq rfl rfl rfl rfl rfl
  | _ =>
    cases hm
    exact .of_eq rfl rfl rfl rfl rfl

end HandlerFrame

inductive Follows (σ : Shared) (uid : String) : Thread → Prop where
  | lookingUp : Follows σ uid (.lookingUp uid)
  | acquiring (s : Session) (h : (σ.info s).uid = uid ∨ σ.Quiet s) : Follows σ uid (.acquiring s)
  | sending (l : Lease) (h : (σ.info l.session).uid = uid) : Follows σ uid (.sending l)
  | sent (l : Lease) (failed : Bool) : Follows σ uid (.sent l failed)
  | closer (s : Session) (stage : CloserStage) : Follows σ uid (.closer .disconnect s stage)
  | finished : Follows σ uid .finished

section Follows

variable {σ σ' : Shared} {t t' u : Thread} {uid : String} {c : Choice} {new : Option Thread}

theorem Follows.change (h : Follows σ uid u) (hne : uid ≠ "") (hu : Ok σ u)
    (hc : Change σ σ' t) : Follows σ' uid u := by
  cases h with
  | lookingUp => exact .lookingUp
  | acquiring s h =>
    refine .acquiring s (h.elim (fun huid => ?_) fun hq => .inr (hq.change hc))
    rcases hc.uid s with he | he | hq
    · exact .inl (he.trans huid)
    · exact absurd (huid.symm.trans he) hne
    · exact .inr (hq.change hc)
  | sending l h =>
    refine .sending l ?_
    rcases hc.uid l.session with he | he | hq
    · exact he.trans h
    · exact absurd (h.symm.trans he) hne
    · exact absurd rfl (hq.not_leased (hu.lease l rfl).1)
  | sent l failed => exact .sent l failed
  | closer s stage => exact .closer s stage
  | finished => exact .finished

theorem Follows.resume (h : Follows σ uid t) (inv : Inv σ)
    (hm : resume σ t c = some (σ', t', new)) : Follows σ' uid t' := by
  cases h with
  | lookingUp =>
    cases hm
    cases hs : σ.conns uid with
    | none => exact .finished
    | some s => exact .acquiring s (.inl ((inv.conns uid s).mp hs).2)
  | acquiring s h =>
    cases hm
    rcases Manager.acquire_spec σ.tokens s c.now with ⟨hs, he⟩ | ⟨hl, -⟩
    · rw [he]
      exact .sending _ (h.resolve_right fun hq => hq.detached hs)
    · rw [hl]
      exact .finished
  | sending l h =>
    cases hm
    exact .sent l _
  | sent l failed =>
    cases hm
    cases failed with
    | false => exact .finished
    | true => exact .closer l.session .removing
  | closer s stage =>
    rcases resumeCloser_thread hm with rfl | ⟨stage', rfl⟩
    · exact .finished
    · exact .closer s stage'
  | finished => cases hm

end Follows

namespace Calls

variable {r r' : Calls} {a : CallAction} {i k : ℕ} {c : Choice} {e : Event} {uid : String}

/-- Every send of a call is under way in the goroutine that the call names. -/
def Linked (r : Calls) : Prop :=
  ∀ c ∈ r.calls, ∀ x, c.sending = some x → x.uid ≠ "" ∧
    ∃ t, r.thread x.thread = some t ∧ Follows r.server.shared x.uid t

theorem thread_resume {σ' : Shared} {t t' : Thread} {new : Option Thread} {j : ℕ} {u : Thread}
    (ht : r.thread i = some t) (hj : r.thread j = some u)
    (hr : r'.server = ⟨σ', r.server.threads.set i t' ++ new.toList⟩) :
    (j = i ∧ u = t ∧ r'.thread j = some t') ∨ (j ≠ i ∧ r'.thread j = some u) := by
  obtain ⟨hlt, -⟩ := List.getElem?_eq_some_iff.mp hj
  have hthread : r'.thread j = (r.server.threads.set i t')[j]? := by
    rw [thread, hr, List.getElem?_append_left (by simpa using hlt)]
  by_cases hij : j = i
  · subst hij
    cases hj.symm.trans ht
    rw [hthread, List.getElem?_set_self hlt]
    exact .inl ⟨rfl, rfl, rfl⟩
  · rw [hthread, List.getElem?_set_ne (Ne.symm hij)]
    exact .inr ⟨hij, hj⟩

theorem thread_append (r' : Calls) {σ' : Shared} {l : List Thread} {j : ℕ} {u : Thread}
    (hj : r.thread j = some u) (hr : r'.server = ⟨σ', r.server.threads ++ l⟩) :
    r'.thread j = some u := by
  obtain ⟨hlt, -⟩ := List.getElem?_eq_some_iff.mp hj
  rwa [thread, hr, List.getElem?_append_left hlt]

/-- What holds of every send of every call, after one call was replaced. -/
theorem forall_sending_set {P : Sending → Prop} {calls : List PushCall} {d : PushCall}
    (h : ∀ c ∈ calls, ∀ x, c.sending = some x → P x) (hd : ∀ x, d.sending = some x → P x) :
    ∀ c ∈ calls.set k d, ∀ x, c.sending = some x → P x := by
  intro c hc
  rcases List.mem_or_eq_of_mem_set hc with hc | rfl
  · exact h c hc
  · exact hd

theorem ne_empty_of_validUID (h : validUID uid = true) : uid ≠ "" := by
  rintro rfl
  exact absurd h (by decide)

theorem Linked.step (hlink : r.Linked) (hown : Owned r.server) (h : r.step a = some r') :
    r'.Linked := by
  cases a with
  | server b =>
    cases b with
    | resume i c =>
      obtain ⟨t, σ', t', new, ht, -, hm, rfl⟩ := resume_eq_some h
      have hok : ∀ u j, r.thread j = some u → Ok r.server.shared u := fun u j hu =>
        hown.thread u (List.mem_of_getElem? hu)
      have hg := good_resume hown.shared (hok t i ht) hm
      intro d hd x hx
      obtain ⟨hne, u, hu, hf⟩ := hlink d hd x hx
      refine ⟨hne, ?_⟩
      have hserver : { r with server := ⟨σ', r.server.threads.set i t' ++ new.toList⟩ }.server =
        ⟨σ', r.server.threads.set i t' ++ new.toList⟩ := rfl
      rcases thread_resume ht hu hserver with ⟨-, rfl, hj⟩ | ⟨-, hj⟩
      · exact ⟨t', hj, hf.resume hown.shared hm⟩
      · exact ⟨u, hj, hf.change hne (hok u _ hu) hg.change⟩
    | arrive e =>
      obtain ⟨σ', new, hm, -, rfl⟩ := arrive_eq_some h
      intro d hd x hx
      obtain ⟨hne, u, hu, hf⟩ := hlink d hd x hx
      have hok := hown.thread u (List.mem_of_getElem? hu)
      exact ⟨hne, u, thread_append _ hu rfl, hf.change hne hok (arrives hown.shared hm).change⟩
  | call caller w target =>
    rw [(call_eq_some h).2]
    intro d hd
    rcases List.mem_append.mp hd with hd | hd
    · exact hlink d hd
    · obtain rfl := List.mem_singleton.mp hd
      exact fun x hx => nomatch hx
  | next k uid =>
    obtain ⟨c, hc, hnone, -, rfl | ⟨hv, rfl⟩⟩ := next_eq_some h
    · exact forall_sending_set hlink fun x hx => by simp [hnone] at hx
    · refine forall_sending_set ?_ ?_
      · intro d hd x hx
        obtain ⟨hne, u, hu, hf⟩ := hlink d hd x hx
        exact ⟨hne, u, thread_append _ hu rfl, hf⟩
      · rintro x ⟨⟩
        exact ⟨ne_empty_of_validUID hv, .lookingUp uid, by simp [thread], .lookingUp⟩
  | load k =>
    obtain ⟨c, x, s, hc, hx, -, -, ⟨-, rfl⟩ | ⟨-, rfl⟩⟩ := load_eq_some h
    · refine forall_sending_set hlink ?_
      rintro y ⟨⟩
      exact hlink c (List.mem_of_getElem? hc) x hx
    · exact forall_sending_set hlink fun y hy => nomatch hy
  | finish k =>
    obtain ⟨c, x, -, -, -, rfl⟩ := finish_eq_some h
    exact forall_sending_set hlink fun y hy => nomatch hy
  | count =>
    obtain ⟨g, -, rfl⟩ := Option.map_eq_some_iff.mp h
    exact hlink
  | discount i =>
    obtain ⟨u, -, rfl⟩ := Option.map_eq_some_iff.mp h
    exact hlink

def uid7 : String := Sha256.hexEncode (List.replicate 16 7)

/-- A step of a goroutine, with a store and a transport that work. -/
def go (i : ℕ) : CallAction := .server (.resume i ⟨0, true, true, .delivered⟩)

end Calls

end OtelMagnify.Server
