import OtelMagnify.Server.State
import OtelMagnify.Token.Leases

/-! Who owns what while the goroutines of the server interleave. A handler holds a lease on its
session and, past the claim, the uid of its messages; a closer releases a session only when no
lease is left on it. -/
namespace OtelMagnify.Server
open Push Token

namespace HandlerStage

def inGate : HandlerStage → Bool
  | locking | releasing _ | replying => false
  | _ => true

def isClaimed : HandlerStage → Bool
  | locking | claiming | unlocking _ | releasing _ | replying => false
  | _ => true

def workload : HandlerStage → Option String
  | cancelling w | describing w | aggregating w _ | upserting w _ | clearing w | touching w
  | refreshing w | refreshAggregating w _ | refreshUpserting w _ | launching w _
  | forking w | reporting w | reportReading w _ | reportUpserting w _ => some w
  | _ => none

end HandlerStage

namespace CloserStage

def isDetached : CloserStage → Bool
  | removing => false
  | _ => true

def isQuiet : CloserStage → Bool
  | removing | finishing | responding _ | draining | awaiting => false
  | _ => true

end CloserStage

namespace Thread

def lease : Thread → Option Lease
  | handler h _ => some h.lease
  | closer _ _ (.responding l) => some l
  | sending l => some l
  | sent l _ => some l
  | autoPush l => some l
  | _ => none

def gate : Thread → Option Session
  | handler h stage => if stage.inGate then some h.session else none
  | _ => none

def claim : Thread → Option (Session × String)
  | handler h stage => if stage.isClaimed then some (h.session, h.uid) else none
  | _ => none

def bound : Thread → Option (String × String)
  | handler h stage => stage.workload.map fun w => (h.uid, w)
  | _ => none

def closes : Thread → Option Session
  | closer _ s _ => some s
  | _ => none

def detached : Thread → Option Session
  | closer _ s stage => if stage.isDetached then some s else none
  | _ => none

def quiet : Thread → Option Session
  | closer _ s stage => if stage.isQuiet then some s else none
  | _ => none

variable {t : Thread} {s : Session} {u w : String}

theorem lease_of_claim (h : t.claim = some (s, u)) : ∃ l, t.lease = some l ∧ l.session = s := by
  cases t with
  | handler h' stage =>
    simp only [claim] at h
    split at h
    · cases h
      exact ⟨h'.lease, rfl, rfl⟩
    · cases h
  | _ => cases h

theorem claim_of_bound (h : t.bound = some (u, w)) :
    ∃ s, t.claim = some (s, u) ∧ t.gate = some s := by
  cases t with
  | handler h' stage =>
    refine ⟨h'.session, ?_⟩
    cases stage <;> cases h <;> exact ⟨rfl, rfl⟩
  | _ => cases h

end Thread

/-- The transport has connected the session, the manager no longer holds it and no lease on it
is left. -/
structure Shared.Quiet (σ : Shared) (s : Session) : Prop where
  connected : s ∈ σ.connected
  detached : s ∉ σ.tokens.sessions
  drained : σ.tokens.isLeased s = false

structure Inv (σ : Shared) : Prop where
  tokens : σ.tokens.Inv
  leaseIDs : ∀ l ∈ σ.tokens.leases, l.id < σ.tokens.nextLease
  tracked : ∀ s ∈ σ.tokens.tracked, s ∈ σ.connected
  http : ∀ s l, (σ.info s).httpLease = some l → l ∈ σ.tokens.leases ∧ l.session = s
  conns : ∀ u s, σ.conns u = some s ↔ u ≠ "" ∧ (σ.info s).uid = u
  released : ∀ s ∈ σ.released, σ.Quiet s ∧ (σ.info s).uid = ""
  begun : ∀ s, (σ.info s).releaseOnce ≠ .idle → σ.Quiet s
  binder : ∀ u s, σ.binder u = some s → σ.conns u = some s
  bound : ∀ u w, σ.registry.uidToWL u = some w → w ≠ "" ∧ ∃ s, σ.binder u = some s

structure Ok (σ : Shared) (t : Thread) : Prop where
  lease : ∀ l, t.lease = some l → l ∈ σ.tokens.leases ∧ ∀ s, (σ.info s).httpLease ≠ some l
  gate : ∀ s, t.gate = some s → (σ.info s).gate = true
  claim : ∀ s u, t.claim = some (s, u) → (σ.info s).uid = u ∧ u ≠ ""
  bound : ∀ u w, t.bound = some (u, w) → σ.registry.uidToWL u = some w
  closes : ∀ s, t.closes = some s → s ∈ σ.connected
  detached : ∀ s, t.detached = some s → s ∉ σ.tokens.sessions
  quiet : ∀ s, t.quiet = some s → σ.Quiet s

/-- Two goroutines hold neither the same lease nor the same message gate. -/
structure Apart (t u : Thread) : Prop where
  lease : ∀ l, t.lease = some l → u.lease ≠ some l
  gate : ∀ s, t.gate = some s → u.gate ≠ some s

theorem Apart.symm {t u : Thread} (h : Apart t u) : Apart u t :=
  ⟨fun l hu ht => h.lease l ht hu, fun s hu ht => h.gate s ht hu⟩

theorem Apart.finished (u : Thread) : Apart .finished u :=
  ⟨fun _ h => (nomatch h), fun _ h => (nomatch h)⟩

theorem Ok.finished (σ : Shared) : Ok σ .finished := by
  constructor <;> intros <;> rename_i h <;> cases h

/-- What a step of `t` may do to the shared state: it gives up only its own lease and gate, it
changes a uid only where none is set or the session is quiet, and it changes the binding of a uid
only under the gate of its owner or for a quiet session. -/
structure Change (σ σ' : Shared) (t : Thread) : Prop where
  leases : ∀ l ∈ σ.tokens.leases, t.lease = some l ∨ l ∈ σ'.tokens.leases
  http : ∀ s l, (σ'.info s).httpLease = some l →
    (σ.info s).httpLease = some l ∨ t.lease = some l
  gate : ∀ s, (σ.info s).gate = true → t.gate = some s ∨ (σ'.info s).gate = true
  uid : ∀ s, (σ'.info s).uid = (σ.info s).uid ∨ (σ.info s).uid = "" ∨ σ.Quiet s
  bound : ∀ u, σ'.registry.uidToWL u = σ.registry.uidToWL u ∨
    ∃ s, (σ.info s).uid = u ∧ (t.gate = some s ∨ σ.Quiet s)
  connected : ∀ s ∈ σ.connected, s ∈ σ'.connected
  sessions : ∀ s ∈ σ.connected, s ∈ σ'.tokens.sessions → s ∈ σ.tokens.sessions
  grants : ∀ l ∈ σ'.tokens.leases, l ∈ σ.tokens.leases ∨ l.session ∈ σ.tokens.sessions

variable {σ σ' : Shared} {t u : Thread}

theorem Shared.Quiet.not_leased {s : Session} (hq : σ.Quiet s) {l : Lease}
    (hl : l ∈ σ.tokens.leases) : l.session ≠ s := by
  intro hs
  have hheld : σ.tokens.isLeased s = true := Manager.isLeased_iff.mpr ⟨l, hl, hs⟩
  rw [hq.drained] at hheld
  cases hheld

theorem Shared.Quiet.change {s : Session} (hq : σ.Quiet s) (hc : Change σ σ' t) : σ'.Quiet s where
  connected := hc.connected s hq.connected
  detached := fun h => hq.detached (hc.sessions s hq.connected h)
  drained := by
    by_contra hl
    obtain ⟨l, hl, hs⟩ := Manager.isLeased_iff.mp (eq_true_of_ne_false hl)
    rcases hc.grants l hl with h | h
    · exact hq.not_leased h hs
    · exact hq.detached (hs ▸ h)

/-- The session that has a uid is unique. -/
theorem Inv.uid_inj (inv : Inv σ) {s s' : Session} {x : String} (hx : x ≠ "")
    (hs : (σ.info s).uid = x) (hs' : (σ.info s').uid = x) : s = s' := by
  have h := (inv.conns x s).mpr ⟨hx, hs⟩
  have h' := (inv.conns x s').mpr ⟨hx, hs'⟩
  rw [h] at h'
  exact Option.some.inj h'

/-- A goroutine keeps what it relies on while another one moves. -/
theorem Change.ok (hc : Change σ σ' t) (inv : Inv σ) (hu : Ok σ u) (ha : Apart t u) :
    Ok σ' u where
  lease l hl := by
    obtain ⟨hmem, hhttp⟩ := hu.lease l hl
    refine ⟨(hc.leases l hmem).resolve_left fun ht => ha.lease l ht hl, fun s hs => ?_⟩
    rcases hc.http s l hs with h | h
    · exact hhttp s h
    · exact ha.lease l h hl
  gate s hs := (hc.gate s (hu.gate s hs)).resolve_left fun ht => ha.gate s ht hs
  claim s x hs := by
    obtain ⟨hx, hne⟩ := hu.claim s x hs
    refine ⟨?_, hne⟩
    rcases hc.uid s with h | h | h
    · exact h.trans hx
    · exact absurd (hx.symm.trans h) hne
    · obtain ⟨l, hl, hls⟩ := Thread.lease_of_claim hs
      exact absurd hls (h.not_leased (hu.lease l hl).1)
  bound x w hx := by
    obtain ⟨s, hclaim, hgate⟩ := Thread.claim_of_bound hx
    obtain ⟨huid, hne⟩ := hu.claim s x hclaim
    rcases hc.bound x with h | ⟨s', hs', h⟩
    · exact h.trans (hu.bound x w hx)
    · have hss : s' = s := inv.uid_inj hne hs' huid
      subst hss
      rcases h with h | h
      · exact absurd hgate (ha.gate s' h)
      · obtain ⟨l, hl, hls⟩ := Thread.lease_of_claim hclaim
        exact absurd hls (h.not_leased (hu.lease l hl).1)
  closes s hs := hc.connected s (hu.closes s hs)
  detached s hs := by
    intro h
    have hcl : u.closes = some s := by
      cases u with
      | closer kind s' stage =>
        simp only [Thread.detached] at hs
        split at hs
        · exact hs
        · cases hs
      | _ => cases hs
    exact hu.detached s hs (hc.sessions s (hu.closes s hcl) h)
  quiet s hs := (hu.quiet s hs).change hc

theorem Change.weaken (hc : Change σ σ' .finished) (t : Thread) : Change σ σ' t where
  leases l hl := .inr ((hc.leases l hl).resolve_left fun h => nomatch h)
  http s l hl := .inl ((hc.http s l hl).resolve_right fun h => nomatch h)
  gate s hs := .inr ((hc.gate s hs).resolve_left fun h => nomatch h)
  uid := hc.uid
  bound x := (hc.bound x).imp_right fun ⟨s, hs, h⟩ =>
    ⟨s, hs, .inr (h.resolve_left fun h => nomatch h)⟩
  connected := hc.connected
  sessions := hc.sessions
  grants := hc.grants

theorem Change.self_ok (hc : Change σ σ' .finished) (inv : Inv σ) (ht : Ok σ t) : Ok σ' t :=
  hc.ok inv ht (.finished t)

theorem Change.of_eq (htokens : σ'.tokens = σ.tokens) (hconn : σ'.connected = σ.connected)
    (hinfo : σ'.info = σ.info) (hreg : σ'.registry.uidToWL = σ.registry.uidToWL) :
    Change σ σ' .finished where
  leases l hl := .inr (htokens ▸ hl)
  http s l hl := .inl (hinfo ▸ hl)
  gate s hs := .inr (hinfo ▸ hs)
  uid s := .inl (by rw [hinfo])
  bound x := .inl (by rw [hreg])
  connected s hs := hconn ▸ hs
  sessions s _ hs := htokens ▸ hs
  grants l hl := .inl (htokens ▸ hl)

theorem Change.refl (σ : Shared) (t : Thread) : Change σ σ t :=
  (Change.of_eq rfl rfl rfl rfl).weaken t

theorem Change.of_tokens (inv : Inv σ) {a : Token.Action} {m : Manager}
    (h : σ.tokens.step a = some m) (hframe : σ.tokens.SameLeases m) :
    Change σ { σ with tokens := m } .finished := by
  obtain ⟨hleases, -, htracked⟩ := hframe
  exact
    { Change.refl σ .finished with
      leases := fun l hl => .inr (hleases ▸ hl)
      sessions := fun s _ hs => inv.tokens.mem_sessions_of_step h htracked hs
      grants := fun l hl => .inl (hleases ▸ hl) }

theorem Change.of_grant {s : Session} (hs : s ∈ σ.tokens.sessions) :
    Change σ { σ with tokens := (σ.tokens.grant s).1 } .finished := by
  refine { Change.refl σ .finished with
    leases := fun l hl => .inr (List.mem_cons_of_mem _ hl), grants := fun l hl => ?_ }
  rcases List.mem_cons.mp hl with rfl | h
  · exact .inr hs
  · exact .inl h

theorem Change.of_release {l : Lease} (ht : t.lease = some l) :
    Change σ { σ with tokens := σ.tokens.release l } t := by
  refine { Change.refl σ t with
    leases := fun k hk => ?_, grants := fun k hk => .inl (List.mem_filter.mp hk).1 }
  by_cases h : k = l
  · exact .inl (h ▸ ht)
  · exact .inr (List.mem_filter.mpr ⟨hk, decide_eq_true h⟩)

theorem setInfo_info (s u : Session) (f : SessionInfo → SessionInfo) :
    (σ.setInfo s f).info u = if u = s then f (σ.info u) else σ.info u := by
  by_cases h : u = s
  · subst h
    simp [Shared.setInfo]
  · simp [Shared.setInfo, h]

theorem setInfo_field {β : Type*} {f : SessionInfo → SessionInfo} (g : SessionInfo → β)
    (hf : ∀ i, g (f i) = g i) (s u : Session) :
    g ((σ.setInfo s f).info u) = g (σ.info u) := by
  rw [setInfo_info]
  split
  · exact hf _
  · rfl

theorem Change.of_setInfo {s : Session} {f : SessionInfo → SessionInfo}
    (huid : ∀ i, (f i).uid = i.uid) (hhttp : ∀ i, (f i).httpLease = i.httpLease)
    (hgate : t.gate = some s ∨ ∀ i, i.gate = true → (f i).gate = true) :
    Change σ (σ.setInfo s f) t := by
  refine { Change.refl σ t with
    http := fun x l hl => .inl ((setInfo_field SessionInfo.httpLease hhttp s x).symm.trans hl)
    gate := fun x hx => ?_
    uid := fun x => .inl (setInfo_field SessionInfo.uid huid s x) }
  rw [setInfo_info]
  split
  · next h =>
    subst h
    exact hgate.imp_right fun hf => hf _ hx
  · exact .inr hx

/-- The invariant under a change that keeps the uids, the replies and the bindings. -/
theorem Inv.keep (inv : Inv σ) (hquiet : ∀ s, σ.Quiet s → σ'.Quiet s) (htokens : σ'.tokens.Inv)
    (hid : ∀ l ∈ σ'.tokens.leases, l.id < σ'.tokens.nextLease)
    (htracked : ∀ s ∈ σ'.tokens.tracked, s ∈ σ'.connected)
    (hhttp : ∀ s l, (σ'.info s).httpLease = some l →
      (σ.info s).httpLease = some l ∧ l ∈ σ'.tokens.leases)
    (huid : ∀ s, (σ'.info s).uid = (σ.info s).uid)
    (hbegun : ∀ s, (σ'.info s).releaseOnce ≠ .idle → (σ.info s).releaseOnce ≠ .idle ∨ σ.Quiet s)
    (hconns : σ'.conns = σ.conns) (hreg : σ'.registry.uidToWL = σ.registry.uidToWL)
    (hrel : σ'.released = σ.released) (hbinder : σ'.binder = σ.binder) : Inv σ' where
  tokens := htokens
  leaseIDs := hid
  tracked := htracked
  http s l hl := ⟨(hhttp s l hl).2, (inv.http s l (hhttp s l hl).1).2⟩
  conns x s := by rw [hconns, huid, inv.conns]
  released s hs := by
    rw [hrel] at hs
    obtain ⟨hq, hu⟩ := inv.released s hs
    exact ⟨hquiet s hq, (huid s).trans hu⟩
  begun s hs := hquiet s ((hbegun s hs).elim (inv.begun s) id)
  binder x s hs := by
    rw [hconns]
    exact inv.binder x s (hbinder ▸ hs)
  bound x w hx := by
    rw [hbinder]
    exact inv.bound x w (hreg ▸ hx)

/-- What a step of `t` to `t'` that starts `new` has to give. -/
structure Good (σ : Shared) (t : Thread) (σ' : Shared) (t' : Thread) (new : Option Thread) :
    Prop where
  inv : Inv σ'
  ok : Ok σ' t'
  change : Change σ σ' t
  lease : ∀ l, t'.lease = some l →
    t.lease = some l ∨ l ∉ σ.tokens.leases ∨ ∃ s, (σ.info s).httpLease = some l
  gate : ∀ s, t'.gate = some s → t.gate = some s ∨ (σ.info s).gate = false
  started : ∀ n ∈ new, Ok σ' n ∧ Apart t' n ∧ n.gate = none ∧
    ∀ l, n.lease = some l → l ∉ σ.tokens.leases

theorem Good.others {new : Option Thread} {t' : Thread} (hg : Good σ t σ' t' new) (inv : Inv σ)
    (hu : Ok σ u) (ha : Apart t u) : Ok σ' u ∧ Apart t' u ∧ ∀ n ∈ new, Apart n u := by
  refine ⟨hg.change.ok inv hu ha, ⟨?_, ?_⟩, ?_⟩
  · intro l hl hul
    rcases hg.lease l hl with h | h | ⟨s, h⟩
    · exact ha.lease l h hul
    · exact h (hu.lease l hul).1
    · exact (hu.lease l hul).2 s h
  · intro s hs hus
    rcases hg.gate s hs with h | h
    · exact ha.gate s h hus
    · rw [hu.gate s hus] at h
      cases h
  · intro n hn
    obtain ⟨-, -, hgate, hlease⟩ := hg.started n hn
    refine ⟨fun l hl hul => hlease l hl (hu.lease l hul).1, fun s hs => ?_⟩
    rw [hgate] at hs
    cases hs

/-- What the ownership of leases, gates, uids and bindings rests on. -/
def Shared.owners (σ : Shared) :=
  (σ.tokens, σ.connected, σ.info, σ.conns, σ.registry.uidToWL, σ.released, σ.binder)

theorem Change.of_owners (h : σ'.owners = σ.owners) : Change σ σ' .finished := by
  simp only [Shared.owners, Prod.mk.injEq] at h
  obtain ⟨htokens, hconn, hinfo, -, hreg, -, -⟩ := h
  exact .of_eq htokens hconn hinfo hreg

theorem Inv.of_owners (inv : Inv σ) (h : σ'.owners = σ.owners) : Inv σ' := by
  have hc := Change.of_owners h
  simp only [Shared.owners, Prod.mk.injEq] at h
  obtain ⟨htokens, hconn, hinfo, hconns, hreg, hrel, hbinder⟩ := h
  exact inv.keep (fun _ hq => hq.change hc) (htokens ▸ inv.tokens)
    (htokens ▸ inv.leaseIDs) (by rw [htokens, hconn]; exact inv.tracked)
    (fun s l hl => by
      rw [hinfo] at hl
      rw [htokens]
      exact ⟨hl, (inv.http s l hl).1⟩)
    (fun s => by rw [hinfo]) (fun s hs => .inl (hinfo ▸ hs)) hconns hreg hrel hbinder

section Handler

/-- A handler at the first stage relies on no more than one at the second. -/
structure HandlerStage.Within (stage' stage : HandlerStage) : Prop where
  gate : stage'.inGate = true → stage.inGate = true
  claim : stage'.isClaimed = true → stage.isClaimed = true
  workload : ∀ w, stage'.workload = some w → stage.workload = some w

variable {h : Handler} {stage stage' : HandlerStage}

theorem HandlerStage.Within.keeps (hg : stage.inGate = true) (hc : stage.isClaimed = true)
    (hw : stage'.workload = stage.workload) : stage'.Within stage :=
  ⟨fun _ => hg, fun _ => hc, fun _ h => hw ▸ h⟩

theorem HandlerStage.Within.unclaimed (hc : stage'.isClaimed = false)
    (hg : stage'.inGate = true → stage.inGate = true) : stage'.Within stage := by
  have hnone : stage'.workload = none := by cases stage' <;> first | rfl | cases hc
  exact ⟨hg, by simp [hc], by simp [hnone]⟩

theorem Ok.handler (hl : h.lease ∈ σ.tokens.leases ∧ ∀ s, (σ.info s).httpLease ≠ some h.lease)
    (hg : stage.inGate = true → (σ.info h.session).gate = true)
    (hc : stage.isClaimed = true → (σ.info h.session).uid = h.uid ∧ h.uid ≠ "")
    (hw : ∀ w, stage.workload = some w → σ.registry.uidToWL h.uid = some w) :
    Ok σ (.handler h stage) where
  lease := by
    rintro l ⟨⟩
    exact hl
  gate s hs := by
    simp only [Thread.gate] at hs
    split at hs
    · next hin =>
      cases hs
      exact hg hin
    · cases hs
  claim s x hs := by
    simp only [Thread.claim] at hs
    split at hs
    · next hclaimed =>
      cases hs
      exact hc hclaimed
    · cases hs
  bound x w hx := by
    obtain ⟨v, hv, hvx⟩ := Option.map_eq_some_iff.mp hx
    cases hvx
    exact hw _ hv
  closes s hs := nomatch hs
  detached s hs := nomatch hs
  quiet s hs := nomatch hs

theorem Ok.handler_lease (hok : Ok σ (.handler h stage)) :
    h.lease ∈ σ.tokens.leases ∧ ∀ s, (σ.info s).httpLease ≠ some h.lease :=
  hok.lease h.lease rfl

theorem Ok.handler_gate (hok : Ok σ (.handler h stage)) (hs : stage.inGate = true) :
    (σ.info h.session).gate = true :=
  hok.gate _ (by simp [Thread.gate, hs])

theorem Ok.claimed_uid (hok : Ok σ (.handler h stage)) (hs : stage.isClaimed = true) :
    (σ.info h.session).uid = h.uid ∧ h.uid ≠ "" :=
  hok.claim _ _ (by simp [Thread.claim, hs])

theorem Ok.handler_within (hok : Ok σ (.handler h stage)) (hs : stage'.Within stage) :
    Ok σ (.handler h stage') :=
  .handler hok.handler_lease (fun hg => hok.handler_gate (hs.gate hg))
    (fun hc => hok.claimed_uid (hs.claim hc))
    fun w hw => hok.bound _ _ (by simp [Thread.bound, hs.workload w hw])

theorem Good.of_handler (hinv : Inv σ') (hok' : Ok σ' (.handler h stage'))
    (hc : Change σ σ' (.handler h stage)) (hg : stage'.inGate = true → stage.inGate = true) :
    Good σ (.handler h stage) σ' (.handler h stage') none where
  inv := hinv
  ok := hok'
  change := hc
  lease l hl := .inl hl
  gate s hs := by
    simp only [Thread.gate] at hs
    split at hs
    · next hin =>
      cases hs
      exact .inl (by simp [Thread.gate, hg hin])
    · cases hs
  started _ hn := nomatch hn

theorem Good.handler (inv : Inv σ) (hok : Ok σ (.handler h stage)) (hinv : Inv σ')
    (hc : Change σ σ' .finished) (hs : stage'.Within stage) :
    Good σ (.handler h stage) σ' (.handler h stage') none :=
  .of_handler hinv ((hc.self_ok inv hok).handler_within hs) (hc.weaken _) hs.gate

theorem Good.handler_same (inv : Inv σ) (hok : Ok σ (.handler h stage))
    (hsame : σ'.owners = σ.owners) (hs : stage'.Within stage) :
    Good σ (.handler h stage) σ' (.handler h stage') none :=
  .handler inv hok (inv.of_owners hsame) (.of_owners hsame) hs

end Handler

section Closer

variable {kind : Closing} {s : Session} {stage stage' : CloserStage}

theorem Ok.closer (hc : s ∈ σ.connected) (hl : (Thread.closer kind s stage).lease = none)
    (hd : stage.isDetached = true → s ∉ σ.tokens.sessions)
    (hq : stage.isQuiet = true → σ.Quiet s) : Ok σ (.closer kind s stage) where
  lease l h := by
    rw [hl] at h
    cases h
  gate _ h := nomatch h
  claim _ _ h := nomatch h
  bound _ _ h := nomatch h
  closes x h := by
    cases h
    exact hc
  detached x h := by
    simp only [Thread.detached] at h
    split at h
    · next hs =>
      cases h
      exact hd hs
    · cases h
  quiet x h := by
    simp only [Thread.quiet] at h
    split at h
    · next hs =>
      cases h
      exact hq hs
    · cases h

theorem Ok.closer_connected (hok : Ok σ (.closer kind s stage)) : s ∈ σ.connected :=
  hok.closes s rfl

theorem Ok.closer_detached (hok : Ok σ (.closer kind s stage)) (h : stage.isDetached = true) :
    s ∉ σ.tokens.sessions :=
  hok.detached s (by simp [Thread.detached, h])

theorem Ok.closer_quiet (hok : Ok σ (.closer kind s stage)) (h : stage.isQuiet = true) :
    σ.Quiet s :=
  hok.quiet s (by simp [Thread.quiet, h])

/-- A goroutine that owns neither a lease nor a gate after its step. -/
theorem Good.of_free {t' : Thread} (hinv : Inv σ') (hok : Ok σ' t') (hc : Change σ σ' t)
    (hl : t'.lease = none) (hg : t'.gate = none) : Good σ t σ' t' none where
  inv := hinv
  ok := hok
  change := hc
  lease l h := by
    rw [hl] at h
    cases h
  gate s h := by
    rw [hg] at h
    cases h
  started _ hn := nomatch hn

theorem Good.of_closer (hinv : Inv σ') (hc : Change σ σ' t) (hs : s ∈ σ'.connected)
    (hl : (Thread.closer kind s stage').lease = none)
    (hd : stage'.isDetached = true → s ∉ σ'.tokens.sessions)
    (hq : stage'.isQuiet = true → σ'.Quiet s) : Good σ t σ' (.closer kind s stage') none :=
  .of_free hinv (.closer hs hl hd hq) hc hl rfl

theorem Good.closer (inv : Inv σ) (hok : Ok σ (.closer kind s stage)) (hinv : Inv σ')
    (hc : Change σ σ' .finished) (hl : (Thread.closer kind s stage').lease = none)
    (hd : stage'.isDetached = true → stage.isDetached = true)
    (hq : stage'.isQuiet = true → stage.isQuiet = true) :
    Good σ (.closer kind s stage) σ' (.closer kind s stage') none := by
  have hok' := hc.self_ok inv hok
  exact .of_closer hinv (hc.weaken _) hok'.closer_connected hl
    (fun h => hok'.closer_detached (hd h)) fun h => hok'.closer_quiet (hq h)

theorem Good.closer_same (inv : Inv σ) (hok : Ok σ (.closer kind s stage))
    (hl : (Thread.closer kind s stage').lease = none)
    (hd : stage'.isDetached = true → stage.isDetached = true)
    (hq : stage'.isQuiet = true → σ.Quiet s) :
    Good σ (.closer kind s stage) σ (.closer kind s stage') none :=
  .of_closer inv ((Change.of_owners rfl).weaken _) hok.closer_connected hl
    (fun h => hok.closer_detached (hd h)) hq

end Closer

theorem Good.finish (hinv : Inv σ') (hc : Change σ σ' .finished) :
    Good σ t σ' .finished none :=
  .of_free hinv (.finished _) (hc.weaken t) rfl rfl

theorem Ok.of_lease {l : Lease} (hl : l ∈ σ.tokens.leases ∧ ∀ x, (σ.info x).httpLease ≠ some l)
    (ht : t = .sending l ∨ (∃ f, t = .sent l f) ∨ t = .autoPush l) : Ok σ t := by
  rcases ht with rfl | ⟨f, rfl⟩ | rfl <;>
    refine ⟨?_, fun _ h => (nomatch h), fun _ _ h => (nomatch h), fun _ _ h => (nomatch h),
      fun _ h => (nomatch h), fun _ h => (nomatch h), fun _ h => (nomatch h)⟩ <;>
    rintro k ⟨⟩ <;> exact hl

end OtelMagnify.Server
