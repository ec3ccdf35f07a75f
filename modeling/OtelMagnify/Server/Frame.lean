import OtelMagnify.Server.State

/-! Which goroutines write the bindings, the grace timers and the rows. -/
namespace OtelMagnify.Server
open Push
open Token hiding Time

namespace HandlerStage

def upserts : HandlerStage → Option (String × Workload)
  | upserting w row | refreshUpserting w row | reportUpserting w row => some (w, row)
  | _ => none

def writes : HandlerStage → Bool
  | accepted | cancelling _ | clearing _ => true
  | stage => stage.upserts.isSome

end HandlerStage

namespace CloserStage

def writes : CloserStage → Bool
  | unbinding | scheduling _ => true
  | _ => false

end CloserStage

namespace Thread

def writes : Thread → Bool
  | handler _ stage => stage.writes
  | closer _ _ stage => stage.writes
  | graceMark _ => true
  | _ => false

end Thread

structure Frame (σ σ' : Shared) : Prop where
  uidToWL : σ'.registry.uidToWL = σ.registry.uidToWL
  grace : σ'.grace = σ.grace
  rows : σ'.rows = σ.rows
  stopping : σ'.stopping = σ.stopping

variable {σ σ' : Shared} {t t' : Thread} {new : Option Thread} {c : Choice}

theorem Frame.refl (σ : Shared) : Frame σ σ := ⟨rfl, rfl, rfl, rfl⟩

theorem Frame.report (h : Handler) (w : String) (now : Time) : Frame σ (h.report σ w now).1 := by
  unfold Handler.report
  split
  · exact .refl σ
  split
  · exact .refl σ
  · exact ⟨rfl, rfl, rfl, rfl⟩

theorem Handler.accept_cases (h : Handler) (σ : Shared) :
    (∃ desc ins, h.msg.agentDescription = some desc ∧ h.accept σ =
      ({ σ with
          registry := σ.registry.bindInstance h.uid (fingerprint desc.attrs h.uid).id ins
          binder := Function.update σ.binder h.uid (some h.session) },
        .cancelling (fingerprint desc.attrs h.uid).id)) ∨
    h.msg.agentDescription = none ∧ (h.accept σ).1 = σ := by
  unfold Handler.accept
  split
  · next desc hdesc => exact .inl ⟨desc, _, hdesc, rfl⟩
  · next hdesc =>
    refine .inr ⟨hdesc, ?_⟩
    split <;> rfl

theorem resumeHandler_frame {h : Handler} {stage : HandlerStage} (hw : stage.writes = false)
    (hm : resumeHandler σ h stage c = some (σ', t', new)) : Frame σ σ' := by
  cases stage with
  | locking =>
    simp only [resumeHandler] at hm
    split at hm
    · cases hm
    split at hm <;> cases hm <;> exact ⟨rfl, rfl, rfl, rfl⟩
  | refreshing w | reportReading w snap =>
    simp only [resumeHandler] at hm
    split at hm <;> cases hm <;> exact .refl σ
  | reporting w =>
    cases hm
    exact .report h w c.now
  | replying =>
    simp only [resumeHandler] at hm
    split at hm
    · cases hm
      exact .refl σ
    · cases hm
      exact .refl σ
    · split at hm <;> cases hm <;> exact ⟨rfl, rfl, rfl, rfl⟩
  | claiming =>
    cases hm
    dsimp only [Handler.claim]
    split_ifs <;> exact ⟨rfl, rfl, rfl, rfl⟩
  | admitting =>
    cases hm
    dsimp only [Handler.setAdmitted]
    split <;> exact ⟨rfl, rfl, rfl, rfl⟩
  | marking | describing | aggregating | touching | refreshAggregating | launching | forking
  | unlocking | releasing =>
    cases hm
    exact ⟨rfl, rfl, rfl, rfl⟩
  | _ => cases hw

variable {kind : Closing} {s : Session} {stage : CloserStage} {e : Event}

theorem resumeCloser_frame
    (hw : stage.writes = false) (hm : resumeCloser σ kind s stage c = some (σ', t', new)) :
    Frame σ σ' ∧ σ'.conns = σ.conns ∧ σ'.registry = σ.registry := by
  cases stage with
  | finishing | disconnecting | releasing | awaiting =>
    simp only [resumeCloser] at hm
    split at hm <;> cases hm <;> exact ⟨⟨rfl, rfl, rfl, rfl⟩, rfl, rfl⟩
  | returning =>
    simp only [resumeCloser] at hm
    split at hm
    · obtain ⟨m, -, hm⟩ := Option.map_eq_some_iff.mp hm
      cases hm
      exact ⟨⟨rfl, rfl, rfl, rfl⟩, rfl, rfl⟩
    · cases hm
  | completing | cleaning =>
    obtain ⟨m, -, hm⟩ := Option.map_eq_some_iff.mp hm
    cases hm
    exact ⟨⟨rfl, rfl, rfl, rfl⟩, rfl, rfl⟩
  | removing | responding | draining | counting | releaseDone | disconnectDone =>
    cases hm
    exact ⟨⟨rfl, rfl, rfl, rfl⟩, rfl, rfl⟩
  | _ => cases hw

theorem resume_frame (hw : t.writes = false) (hm : resume σ t c = some (σ', t', new)) :
    Frame σ σ' := by
  cases t with
  | handler h stage => exact resumeHandler_frame hw hm
  | closer kind s stage => exact (resumeCloser_frame hw hm).1
  | graceMark w => cases hw
  | finished => cases hm
  | _ =>
    cases hm
    exact ⟨rfl, rfl, rfl, rfl⟩

/-- What a goroutine writes, with where it stands before and after. -/
inductive Write (σ : Shared) (c : Choice) : Thread → Shared → Thread → Prop where
  | accept (h : Handler) :
      Write σ c (.handler h .accepted) (h.accept σ).1 (.handler h (h.accept σ).2)
  | cancel (h : Handler) (w : String) :
      Write σ c (.handler h (.cancelling w)) { σ with grace := σ.grace.cancel w }
        (.handler h (.describing w))
  | upsert (h : Handler) (stage : HandlerStage) (w : String) (row : Workload) (t' : Thread)
      (hs : stage.upserts = some (w, row)) :
      Write σ c (.handler h stage) (σ.upsertWorkload c.ok w row) t'
  | clear (h : Handler) (w : String) :
      Write σ c (.handler h (.clearing w))
        (if c.ok then { σ with rows := Workloads.clearWorkloadRetention σ.rows w } else σ)
        (.handler h (.refreshing w))
  | unbind (kind : Closing) (s : Session) :
      Write σ c (.closer kind s .unbinding) (σ.unbind s).1 (.closer kind s (σ.unbind s).2)
  | schedule (kind : Closing) (s : Session) (w : String) :
      Write σ c (.closer kind s (.scheduling w)) { σ with grace := σ.grace.schedule w }
        (.closer kind s .releaseDone)
  | mark (w : String) :
      Write σ c (.graceMark w)
        (if c.ok then
          { σ with rows := Workloads.markWorkloadDisconnected σ.rows w (c.now + σ.retention) }
        else σ) .finished

/-- Every step of a goroutine leaves bindings, timers and rows alone or is one of the writes. -/
theorem resume_effect (hm : resume σ t c = some (σ', t', new)) :
    t.writes = false ∧ Frame σ σ' ∨ Write σ c t σ' t' := by
  by_cases hw : t.writes = false
  · exact .inl ⟨hw, resume_frame hw hm⟩
  right
  cases t with
  | handler h stage =>
    cases stage with
    | accepted =>
      cases hm
      exact .accept h
    | cancelling w =>
      cases hm
      exact .cancel h w
    | upserting w row | refreshUpserting w row | reportUpserting w row =>
      cases hm
      exact .upsert h _ w row _ rfl
    | clearing w =>
      cases hm
      exact .clear h w
    | _ => exact absurd rfl hw
  | closer kind s stage =>
    cases stage with
    | unbinding =>
      cases hm
      exact .unbind kind s
    | scheduling w =>
      cases hm
      exact .schedule kind s w
    | _ => exact absurd rfl hw
  | graceMark w =>
    cases hm
    exact .mark w
  | _ => exact absurd rfl hw

/-- The workload of whose row the goroutine has a copy that it writes back. -/
def HandlerStage.holds : HandlerStage → Option String
  | aggregating w _ | upserting w _ | refreshAggregating w _ | refreshUpserting w _ => some w
  | reportUpserting w _ => some w
  | _ => none

def Thread.holds : Thread → Option String
  | handler _ stage => stage.holds
  | _ => none

/-- How a goroutine comes to hold a copy, or changes the one it holds. -/
inductive Hold (σ : Shared) (c : Choice) (h : Handler) : HandlerStage → HandlerStage → Prop where
  | describe (w : String) : Hold σ c h (.describing w) (.aggregating w (σ.getWorkload c.ok w))
  | draft (w : String) (prev : Option Workload) :
      Hold σ c h (.aggregating w prev) (.upserting w (.described prev (fingerprint h.attrs h.uid)
        h.attrs h.msg (σ.registry.aggregatedStatus w) c.now c.stored))
  | refresh (w : String) (row : Workload) (hg : σ.getWorkload c.ok w = some row) :
      Hold σ c h (.refreshing w) (.refreshAggregating w row)
  | aggregate (w : String) (row : Workload) :
      Hold σ c h (.refreshAggregating w row) (.refreshUpserting w
        { row with status := σ.registry.aggregatedStatus w, lastSeenAt := c.now })
  | report (w : String) (snap : RemoteConfigStatus) (row : Workload)
      (hg : σ.getWorkload c.ok w = some row) :
      Hold σ c h (.reportReading w snap)
        (.reportUpserting w { row with remoteConfigStatus := some snap })

/-- A step after which nobody new holds a copy. -/
def Drops (t' : Thread) (new : Option Thread) : Prop :=
  t'.holds = none ∧ ∀ n ∈ new, n.holds = none

theorem Drops.alone (h : t'.holds = none) : Drops t' none := ⟨h, by simp⟩

def Thread.forks : Thread → Bool
  | handler _ (.forking _) => true
  | _ => false

/-- Where a step of a goroutine leads, and which goroutine it starts. -/
inductive Flow (σ σ' : Shared) (c : Choice) : Thread → Thread → Option Thread → Prop where
  | hold {h : Handler} {stage stage' : HandlerStage} (hσ : σ' = σ)
      (hold : Hold σ c h stage stage') : Flow σ σ' c (.handler h stage) (.handler h stage') none
  | go {h : Handler} {stage stage' : HandlerStage} (hs : (Thread.handler h stage).forks = false)
      (hh : stage'.holds = none) (hs' : (Thread.handler h stage').forks = false) :
      Flow σ σ' c (.handler h stage) (.handler h stage') none
  | launch (h : Handler) (w : String) (row : Workload) :
      Flow σ σ' c (.handler h (.launching w row)) (.handler h (.forking w)) none
  | fork (h : Handler) (w : String) :
      Flow σ σ' c (.handler h (.forking w)) (.handler h (.reporting w))
        ((σ.tokens.fork h.session).2.map .autoPush)
  | disconnect (h : Handler) (d : Bool) :
      Flow σ σ' c (.handler h (.releasing d)) (.closer .disconnect h.session .removing) none
  | close (kind : Closing) (s : Session) (stage stage' : CloserStage) :
      Flow σ σ' c (.closer kind s stage) (.closer kind s stage') none
  | arrive (s : Session) (msg : AgentMessage) (sameConn : Bool) (l : Lease) :
      Flow σ σ' c (.arriving s msg sameConn) (.handler ⟨l, msg, sameConn⟩ .locking) none
  | found (uid : String) (s : Session) : Flow σ σ' c (.lookingUp uid) (.acquiring s) none
  | acquired (s : Session) (l : Lease) : Flow σ σ' c (.acquiring s) (.sending l) none
  | send (l : Lease) (failed : Bool) : Flow σ σ' c (.sending l) (.sent l failed) none
  | fail (l : Lease) (f : Bool) :
      Flow σ σ' c (.sent l f) (.closer .disconnect l.session .removing) none
  | expired (w : String) : Flow σ σ' c (.graceCheck w) (.graceMark w) none
  | finish (t : Thread) (ht : t.forks = false) : Flow σ σ' c t .finished none

theorem resumeHandler_flow {h : Handler} {stage : HandlerStage}
    (hm : resumeHandler σ h stage c = some (σ', t', new)) :
    Flow σ σ' c (.handler h stage) t' new := by
  cases stage with
  | describing w =>
    cases hm
    exact .hold rfl (.describe w)
  | aggregating w prev =>
    cases hm
    exact .hold rfl (.draft w prev)
  | refreshAggregating w row =>
    cases hm
    exact .hold rfl (.aggregate w row)
  | refreshing w =>
    simp only [resumeHandler] at hm
    split at hm <;> cases hm
    · exact .go rfl rfl rfl
    · next row hrow => exact .hold rfl (.refresh w row hrow)
  | reportReading w snap =>
    simp only [resumeHandler] at hm
    split at hm <;> cases hm
    · exact .go rfl rfl rfl
    · next row hrow => exact .hold rfl (.report w snap row hrow)
  | launching w row =>
    cases hm
    split
    · exact .launch h w row
    · exact .go rfl rfl rfl
  | forking w =>
    cases hm
    exact .fork h w
  | releasing d =>
    cases hm
    split
    · exact .disconnect h d
    · exact .finish _ rfl
  | locking =>
    simp only [resumeHandler] at hm
    split at hm
    · cases hm
    split at hm <;> cases hm <;> exact .go rfl rfl rfl
  | replying =>
    simp only [resumeHandler] at hm
    split at hm
    · cases hm
      exact .go rfl rfl rfl
    · cases hm
      exact .go rfl rfl rfl
    · split at hm <;> cases hm
      · exact .finish _ rfl
      · exact .go rfl rfl rfl
  | claiming =>
    cases hm
    dsimp only [Handler.claim]
    split_ifs <;> exact .go rfl rfl rfl
  | accepted =>
    cases hm
    dsimp only [Handler.accept]
    split
    · exact .go rfl rfl rfl
    · split <;> exact .go rfl rfl rfl
  | reporting w =>
    cases hm
    dsimp only [Handler.report]
    split
    · exact .go rfl rfl rfl
    · split <;> exact .go rfl rfl rfl
  | admitting =>
    cases hm
    dsimp only [Handler.setAdmitted]
    split <;> exact .go rfl rfl rfl
  | marking | upserting | unlocking =>
    cases hm
    split <;> exact .go rfl rfl rfl
  | cancelling | clearing | touching | refreshUpserting | reportUpserting =>
    cases hm
    exact .go rfl rfl rfl

theorem resumeCloser_flow (hm : resumeCloser σ kind s stage c = some (σ', t', new)) :
    Flow σ σ' c (.closer kind s stage) t' new := by
  cases stage with
  | finishing | awaiting | disconnecting | releasing =>
    simp only [resumeCloser] at hm
    split at hm <;> cases hm <;> exact .close kind s _ _
  | completing =>
    obtain ⟨m, -, hm⟩ := Option.map_eq_some_iff.mp hm
    cases hm
    split
    · exact .close kind s _ _
    · exact .finish _ rfl
  | cleaning =>
    obtain ⟨m, -, hm⟩ := Option.map_eq_some_iff.mp hm
    cases hm
    exact .finish _ rfl
  | returning =>
    simp only [resumeCloser] at hm
    split at hm
    · obtain ⟨m, -, hm⟩ := Option.map_eq_some_iff.mp hm
      cases hm
      exact .finish _ rfl
    · cases hm
  | _ =>
    cases hm
    exact .close kind s _ _

theorem resume_flow (hm : resume σ t c = some (σ', t', new)) : Flow σ σ' c t t' new := by
  cases t with
  | handler h stage => exact resumeHandler_flow hm
  | closer kind s stage => exact resumeCloser_flow hm
  | arriving s msg sameConn =>
    cases hm
    cases (σ.tokens.acquire s c.now).2 with
    | none => exact .finish _ rfl
    | some l => exact .arrive s msg sameConn l
  | acquiring s =>
    cases hm
    cases (σ.tokens.acquire s c.now).2 with
    | none => exact .finish _ rfl
    | some l => exact .acquired s l
  | lookingUp uid =>
    cases hm
    cases σ.conns uid with
    | none => exact .finish _ rfl
    | some s => exact .found uid s
  | sending l =>
    cases hm
    exact .send l _
  | sent l failed =>
    cases hm
    cases failed with
    | false => exact .finish _ rfl
    | true => exact .fail l true
  | graceCheck w =>
    cases hm
    split
    · exact .finish _ rfl
    · exact .expired w
  | autoPush | graceMark =>
    cases hm
    exact .finish _ rfl
  | finished => cases hm

theorem resumeCloser_thread (hm : resumeCloser σ kind s stage c = some (σ', t', new)) :
    t' = .finished ∨ ∃ stage', t' = .closer kind s stage' := by
  cases resumeCloser_flow hm with
  | close => exact .inr ⟨_, rfl⟩
  | finish => exact .inl rfl

/-- After a step the goroutine holds no copy, or one that it has just read or changed. -/
theorem resume_hold (hm : resume σ t c = some (σ', t', new)) :
    Drops t' new ∨ ∃ h stage stage', t = .handler h stage ∧ t' = .handler h stage' ∧ σ' = σ ∧
      new = none ∧ Hold σ c h stage stage' := by
  cases resume_flow hm with
  | hold hσ hold => exact .inr ⟨_, _, _, rfl, rfl, hσ, rfl, hold⟩
  | go _ hh => exact .inl (.alone hh)
  | fork h w =>
    refine .inl ⟨rfl, fun n hn => ?_⟩
    obtain ⟨l, -, rfl⟩ := Option.map_eq_some_iff.mp hn
    rfl
  | _ => exact .inl (.alone rfl)

/-- What an event does, with what it has checked. -/
inductive Occurs (σ : Shared) : Event → Shared → Option Thread → Prop
  | connect {s : Session} {now : Token.Time} (hs : s ∉ σ.connected) :
    Occurs σ (.connect s now)
      { σ with tokens := (σ.tokens.track s now).1, connected := s :: σ.connected } none
  | message {s : Session} {msg : AgentMessage} {sameConn : Bool} :
    Occurs σ (.message s msg sameConn) σ (some (.arriving s msg sameConn))
  | close {s : Session} (hs : s ∈ σ.connected) :
    Occurs σ (.close s) σ (some (.closer .close s .removing))
  | send {uid : String} : Occurs σ (.send uid) σ (some (.lookingUp uid))
  | onDisabled {target : DrainTarget} {s : Session} (hd : disables σ.tokens target s = true) :
    Occurs σ (.onDisabled target s) σ (some (.closer (.disabled target) s .disconnecting))
  | tokens {a : Token.Action} {m : Manager} (hi : internal σ.tokens a = true)
    (hstep : σ.tokens.step a = some m) : Occurs σ (.tokens a) { σ with tokens := m } none
  | fire {w : String} {id : ℕ} :
    Occurs σ (.fire w id) { σ with grace := σ.grace.cancel w } (some (.graceCheck w))
  | late {w : String} {id : ℕ} : Occurs σ (.fire w id) σ none
  | janitor {now : Time} : Occurs σ (.janitor now)
      { σ with rows := Workloads.archiveExpiredWorkloads σ.rows now } none
  | stopGrace : Occurs σ .stopGrace { σ with stopping := true, grace := σ.grace.beginStop } none
  | stopTokens : Occurs σ .stopTokens { σ with tokens := σ.tokens.beginStop } none

theorem arrive_occurs (hm : arrive σ e = some (σ', new)) : Occurs σ e σ' new := by
  cases e with
  | connect s now =>
    simp only [arrive] at hm
    split at hm <;> cases hm
    next hs => exact .connect hs
  | close s =>
    simp only [arrive] at hm
    split at hm <;> cases hm
    next hs => exact .close hs
  | onDisabled target s =>
    simp only [arrive] at hm
    split at hm <;> cases hm
    next hd => exact .onDisabled hd
  | tokens a =>
    simp only [arrive] at hm
    split at hm
    · next hi =>
      obtain ⟨m, hstep, hm⟩ := Option.map_eq_some_iff.mp hm
      cases hm
      exact .tokens hi hstep
    · cases hm
  | fire w id =>
    cases hm
    dsimp only [Grace.fire]
    split
    · exact .fire
    · exact .late
  | stopTokens =>
    simp only [arrive] at hm
    split at hm <;> cases hm
    exact .stopTokens
  | _ =>
    cases hm
    constructor

theorem arrive_holds (hm : arrive σ e = some (σ', new)) : ∀ n ∈ new, n.holds = none := by
  intro n hn
  cases arrive_occurs hm with
  | message | close | send | onDisabled | fire =>
    cases hn
    rfl
  | _ => cases hn

/-- What an event writes: a timer that fires is handed to its callback, the janitor archives
rows, and a stop ends the timers. -/
inductive Arrival (σ : Shared) : Shared → Option Thread → Prop where
  | frame {σ' : Shared} (new : Option Thread) (hf : Frame σ σ') (hconns : σ'.conns = σ.conns)
      (hreg : σ'.registry = σ.registry) : Arrival σ σ' new
  | fire (w : String) :
      Arrival σ { σ with grace := σ.grace.cancel w } (some (.graceCheck w))
  | janitor (now : Time) :
      Arrival σ { σ with rows := Workloads.archiveExpiredWorkloads σ.rows now } none
  | stop : Arrival σ { σ with stopping := true, grace := σ.grace.beginStop } none

theorem arrive_effect (hm : arrive σ e = some (σ', new)) : Arrival σ σ' new := by
  cases arrive_occurs hm with
  | fire => exact .fire _
  | janitor => exact .janitor _
  | stopGrace => exact .stop
  | _ => exact .frame _ ⟨rfl, rfl, rfl, rfl⟩ rfl rfl

/-- No event writes `conns` or the registry. -/
theorem arrive_registry (hm : arrive σ e = some (σ', new)) :
    σ'.conns = σ.conns ∧ σ'.registry = σ.registry := by
  cases arrive_effect hm with
  | frame _ hf hconns hreg => exact ⟨hconns, hreg⟩
  | fire | janitor | stop => exact ⟨rfl, rfl⟩

end OtelMagnify.Server
