import OtelMagnify.Lib.Pool
import OtelMagnify.Server.Workload
import OtelMagnify.Token.Manager

/-! The OpAMP server: the sessions and their instance uids, the registry, the grace timers and
the workload rows, with the callbacks, pushes and timers that run over them. One step is one
mutex section, one registry or store call, one wait or one send. -/
namespace OtelMagnify.Server
open Push
open Token hiding Time

/-- `sync.Once` -/
inductive OnceState where
  | idle | running | done
  deriving DecidableEq, Repr

/-- The fields of a `tokenSession` that the server uses. `gate` is whether `messageGate` is
locked. -/
structure SessionInfo where
  uid : String
  admitted : Bool
  terminal : Bool
  gate : Bool
  httpLease : Option Lease
  releaseOnce : OnceState
  disconnectOnce : OnceState
  deriving DecidableEq, Repr

def SessionInfo.initial : SessionInfo where
  uid := ""
  admitted := false
  terminal := false
  gate := false
  httpLease := none
  releaseOnce := .idle
  disconnectOnce := .idle

structure Grace where
  timers : String → Option ℕ
  nextID : ℕ
  stopped : Bool

namespace Grace

def initial : Grace where
  timers := fun _ => none
  nextID := 0
  stopped := false

def schedule (g : Grace) (key : String) : Grace :=
  if g.stopped then g
  else
    { g with
      nextID := g.nextID + 1
      timers := Function.update g.timers key (some (g.nextID + 1)) }

def cancel (g : Grace) (key : String) : Grace :=
  { g with timers := Function.update g.timers key none }

/-- The locked section of a timer that fires: whether it may run its callback. -/
def fire (g : Grace) (key : String) (id : ℕ) : Grace × Bool :=
  if g.stopped = false ∧ g.timers key = some id then (g.cancel key, true) else (g, false)

def beginStop (g : Grace) : Grace := { g with stopped := true, timers := fun _ => none }

end Grace

/-- The state of the server. `connected` are the sessions whose `OnConnected` has run. The last
two fields are history: the sessions whose release went through its locked section, and the
session whose message made the registry binding of a uid. -/
structure Shared where
  tokens : Manager
  connected : List Session
  info : Session → SessionInfo
  conns : String → Option Session
  registry : Registry
  grace : Grace
  rows : Workloads
  retention : Time
  stopping : Bool
  released : List Session
  binder : String → Option Session

/-- `New` -/
def Shared.initial (retention : Time) (rows : Workloads) : Shared where
  tokens := .initial
  connected := []
  info := fun _ => .initial
  conns := fun _ => none
  registry := .empty
  grace := .initial
  rows := rows
  retention := retention
  stopping := false
  released := []
  binder := fun _ => none

def Shared.setInfo (σ : Shared) (s : Session) (f : SessionInfo → SessionInfo) : Shared :=
  { σ with info := Function.update σ.info s (f (σ.info s)) }

/-- The local values of one `onSessionMessage`. -/
structure Handler where
  lease : Lease
  msg : AgentMessage
  sameConn : Bool
  deriving DecidableEq, Repr

def Handler.session (h : Handler) : Session := h.lease.session

def Handler.uid (h : Handler) : String := h.msg.uid

/-- Where an `onSessionMessage` stands, with the workload and the row it works on. -/
inductive HandlerStage where
  | locking
  | claiming
  | marking
  | admitting
  | accepted
  | cancelling (w : String)
  | describing (w : String)
  | aggregating (w : String) (prev : Option Workload)
  | upserting (w : String) (row : Workload)
  | clearing (w : String)
  | touching (w : String)
  | refreshing (w : String)
  | refreshAggregating (w : String) (row : Workload)
  | refreshUpserting (w : String) (row : Workload)
  | launching (w : String) (row : Workload)
  | forking (w : String)
  | reporting (w : String)
  | reportReading (w : String) (snap : RemoteConfigStatus)
  | reportUpserting (w : String) (row : Workload)
  | unlocking (disconnect : Bool)
  | releasing (disconnect : Bool)
  | replying
  deriving DecidableEq, Repr

/-- Who closes a session: `onSessionConnectionClose`, `disconnectSession` in its variants, or
`disconnectSessions` for a drain. -/
inductive Closing where
  | close
  | disconnect
  | disabled (target : DrainTarget)
  deriving DecidableEq, Repr

inductive CloserStage where
  | removing
  | finishing
  | responding (l : Lease)
  | draining
  | awaiting
  | disconnecting
  | releasing
  | unbinding
  | counting (w : String)
  | scheduling (w : String)
  | releaseDone
  | disconnectDone
  | completing
  | cleaning
  | returning
  deriving DecidableEq, Repr

inductive Thread where
  | arriving (s : Session) (msg : AgentMessage) (sameConn : Bool)
  | handler (h : Handler) (stage : HandlerStage)
  | closer (kind : Closing) (s : Session) (stage : CloserStage)
  | lookingUp (uid : String)
  | acquiring (s : Session)
  | sending (l : Lease)
  | sent (l : Lease) (failed : Bool)
  | autoPush (l : Lease)
  | graceCheck (w : String)
  | graceMark (w : String)
  | finished
  deriving DecidableEq, Repr

/-- How the transport takes a reply: a plain HTTP connection keeps it until it is flushed. -/
inductive SendOutcome where
  | delivered
  | invalidHTTP
  | failed
  deriving DecidableEq, Repr

/-- What the environment decides in a step: the clock, whether the store call succeeds, whether
the reported config is in the store, and what becomes of a send. -/
structure Choice where
  now : Time
  ok : Bool
  stored : Bool
  outcome : SendOutcome
  deriving DecidableEq, Repr

abbrev Moved := Option (Shared × Thread × Option Thread)

/-- `classifyAgentMessage` with `LookupWorkload` or `BindInstance`. -/
def Handler.accept (h : Handler) (σ : Shared) : Shared × HandlerStage :=
  match h.msg.agentDescription with
  | some desc =>
    let attrs := desc.attrs
    let w := (fingerprint attrs h.uid).id
    let ins : Instance :=
      { instanceUID := ""
        podName := attr attrs "k8s.pod.name"
        version := attr attrs "service.version"
        effectiveConfigHash :=
          (h.msg.remoteConfigStatus.map fun r => Sha256.hexEncode r.lastRemoteConfigHash).getD ""
        healthy := h.msg.health.getD true
        acceptsRemoteConfig := h.msg.acceptsRemoteConfig
        remoteConfigCapabilityKnown := true
        remoteConfigStatus := none }
    ({ σ with
        registry := σ.registry.bindInstance h.uid w ins
        binder := Function.update σ.binder h.uid (some h.session) }, .cancelling w)
  | none =>
    match σ.registry.lookupWorkload h.uid with
    | some w => (σ, .touching w)
    | none => (σ, .unlocking false)

/-- The first locked section of `processSessionMessage`, after its checks of the message. -/
def Handler.claim (h : Handler) (σ : Shared) : Shared × HandlerStage :=
  let info := σ.info h.session
  if h.msg.instanceUid.length ≠ 16 ∨ h.sameConn = false then (σ, .unlocking true)
  else if info.admitted then
    if info.uid = h.uid ∧ σ.conns h.uid = some h.session then (σ, .accepted)
    else (σ, .unlocking true)
  else if info.uid ≠ "" then (σ, .unlocking true)
  else if (σ.conns h.uid).any (· ≠ h.session) then (σ, .unlocking true)
  else
    ({ σ.setInfo h.session fun i => { i with uid := h.uid } with
        conns := Function.update σ.conns h.uid (some h.session) }, .marking)

/-- The second locked section of `processSessionMessage`. -/
def Handler.setAdmitted (h : Handler) (σ : Shared) : Shared × HandlerStage :=
  if σ.conns h.uid = some h.session then
    (σ.setInfo h.session fun i => { i with admitted := true }, .accepted)
  else (σ, .unlocking true)

/-- The attributes of the description, empty for a message without one. -/
def Handler.attrs (h : Handler) : Attrs :=
  (h.msg.agentDescription.map AgentDescription.attrs).getD []

/-- `recordRemoteConfigStatus` up to its snapshot. -/
def Handler.report (h : Handler) (σ : Shared) (w : String) (now : Time) : Shared × HandlerStage :=
  match h.msg.remoteConfigStatus with
  | none => (σ, .unlocking false)
  | some r =>
    match r.status with
    | none => (σ, .unlocking false)
    | some status =>
      let snap : RemoteConfigStatus :=
        { status := status
          configHash := Sha256.hexEncode r.lastRemoteConfigHash
          errorMessage := sanitizeRemoteConfigErrorMessage r.errorMessage
          updatedAt := now }
      ({ σ with registry := σ.registry.updateInstance h.uid fun i =>
          { i with effectiveConfigHash := snap.configHash, remoteConfigStatus := some snap } },
        .reportReading w snap)

/-- Whether `maybeTriggerAutoPush` launches a push to this instance. -/
def Handler.diverges (h : Handler) (σ : Shared) (w : String) (row : Workload) : Bool :=
  row.activeConfigHash ≠ "" && row.activeConfigID.isSome &&
    (σ.registry.instances w).any fun i =>
      i.instanceUID = h.uid && i.effectiveConfigHash ≠ "" &&
        i.effectiveConfigHash ≠ row.activeConfigHash

/-- `GetWorkload`, which fails on a store error and on a missing row. -/
def Shared.getWorkload (σ : Shared) (ok : Bool) (w : String) : Option Workload :=
  if ok then σ.rows w else none

def Shared.upsertWorkload (σ : Shared) (ok : Bool) (w : String) (row : Workload) : Shared :=
  if ok then { σ with rows := Workloads.upsertWorkload σ.rows w row } else σ

/-- `onSessionMessage` from `messageGate.Lock` on. -/
def resumeHandler (σ : Shared) (h : Handler) (stage : HandlerStage) (c : Choice) : Moved :=
  let next (p : Shared × HandlerStage) : Moved := some (p.1, .handler h p.2, none)
  match stage with
  | .locking =>
    if (σ.info h.session).gate then none
    else if (σ.info h.session).terminal then next (σ, .releasing false)
    else next (σ.setInfo h.session fun i => { i with gate := true }, .claiming)
  | .claiming => next (h.claim σ)
  | .marking => next (σ, if c.ok then .admitting else .unlocking true)
  | .admitting => next (h.setAdmitted σ)
  | .accepted => next (h.accept σ)
  | .cancelling w => next ({ σ with grace := σ.grace.cancel w }, .describing w)
  | .describing w => next (σ, .aggregating w (σ.getWorkload c.ok w))
  | .aggregating w prev =>
    next (σ, .upserting w (.described prev (fingerprint h.attrs h.uid) h.attrs h.msg
      (σ.registry.aggregatedStatus w) c.now c.stored))
  | .upserting w row =>
    next (σ.upsertWorkload c.ok w row, if c.ok then .clearing w else .refreshing w)
  | .clearing w =>
    next (if c.ok then { σ with rows := Workloads.clearWorkloadRetention σ.rows w } else σ,
      .refreshing w)
  | .touching w =>
    next ({ σ with registry := σ.registry.updateInstance h.uid fun i =>
        { i with
          healthy := h.msg.health.getD i.healthy
          effectiveConfigHash := (h.msg.remoteConfigStatus.map fun r =>
            Sha256.hexEncode r.lastRemoteConfigHash).getD i.effectiveConfigHash } },
      .refreshing w)
  | .refreshing w =>
    match σ.getWorkload c.ok w with
    | none => next (σ, .reporting w)
    | some row => next (σ, .refreshAggregating w row)
  | .refreshAggregating w row =>
    next (σ, .refreshUpserting w
      { row with status := σ.registry.aggregatedStatus w, lastSeenAt := c.now })
  | .refreshUpserting w row => next (σ.upsertWorkload c.ok w row, .launching w row)
  | .launching w row =>
    next (σ, if h.diverges σ w row && !σ.stopping then .forking w else .reporting w)
  | .forking w =>
    let forked := σ.tokens.fork h.session
    some ({ σ with tokens := forked.1 }, .handler h (.reporting w), forked.2.map Thread.autoPush)
  | .reporting w => next (h.report σ w c.now)
  | .reportReading w snap =>
    match σ.getWorkload c.ok w with
    | none => next (σ, .unlocking false)
    | some row => next (σ, .reportUpserting w { row with remoteConfigStatus := some snap })
  | .reportUpserting w row => next (σ.upsertWorkload c.ok w row, .unlocking false)
  | .unlocking disconnect =>
    next (σ.setInfo h.session fun i =>
        { i with gate := false, terminal := i.terminal || disconnect },
      if disconnect then .releasing true else .replying)
  | .releasing disconnect =>
    some ({ σ with tokens := σ.tokens.release h.lease },
      if disconnect then .closer .disconnect h.session .removing else .finished, none)
  | .replying =>
    match c.outcome with
    | .delivered => next (σ, .releasing false)
    | .failed => next (σ, .releasing true)
    | .invalidHTTP =>
      if (σ.info h.session).httpLease = none then
        some (σ.setInfo h.session fun i => { i with httpLease := some h.lease }, .finished, none)
      else next (σ, .releasing true)

def Closing.afterDrain : Closing → CloserStage
  | .close => .releasing
  | _ => .disconnecting

def Closing.afterRelease : Closing → CloserStage
  | .close => .completing
  | _ => .disconnectDone

def Closing.afterDisconnect : Closing → CloserStage
  | .disabled _ => .returning
  | _ => .completing

/-- The locked section of `releaseSessionOnce`. -/
def Shared.unbind (σ : Shared) (s : Session) : Shared × CloserStage :=
  let uid := (σ.info s).uid
  if uid = "" ∨ σ.conns uid ≠ some s then ({ σ with released := s :: σ.released }, .releaseDone)
  else
    let unbound := σ.registry.unbindInstance uid
    ({ σ.setInfo s fun i => { i with uid := "", admitted := false } with
        conns := Function.update σ.conns uid none
        registry := unbound.1
        binder := Function.update σ.binder uid none
        released := s :: σ.released },
      if unbound.2 = "" then .releaseDone else .counting unbound.2)

/-- `onSessionConnectionClose`, `disconnectSession` and `disconnectSessions`. -/
def resumeCloser (σ : Shared) (kind : Closing) (s : Session) (stage : CloserStage) (c : Choice) :
    Moved :=
  let next (p : Shared × CloserStage) : Moved := some (p.1, .closer kind s p.2, none)
  match stage with
  | .removing =>
    next ({ σ with tokens := σ.tokens.remove s c.now },
      if kind = .close then .finishing else .draining)
  | .finishing =>
    match (σ.info s).httpLease with
    | none => next (σ, .draining)
    | some l => next (σ.setInfo s fun i => { i with httpLease := none }, .responding l)
  | .responding l => next ({ σ with tokens := σ.tokens.release l }, .draining)
  | .draining =>
    next (σ, if s ∈ σ.tokens.removals.index then .awaiting else kind.afterDrain)
  | .awaiting =>
    match σ.tokens.removals.state s with
    | some (.draining _) => none
    | _ => next (σ, kind.afterDrain)
  | .disconnecting =>
    match (σ.info s).disconnectOnce with
    | .idle => next (σ.setInfo s fun i => { i with disconnectOnce := .running }, .releasing)
    | .running => none
    | .done => next (σ, kind.afterDisconnect)
  | .releasing =>
    match (σ.info s).releaseOnce with
    | .idle => next (σ.setInfo s fun i => { i with releaseOnce := .running }, .unbinding)
    | .running => none
    | .done => next (σ, kind.afterRelease)
  | .unbinding => next (σ.unbind s)
  | .counting w => next (σ, if σ.registry.count w = 0 then .scheduling w else .releaseDone)
  | .scheduling w => next ({ σ with grace := σ.grace.schedule w }, .releaseDone)
  | .releaseDone =>
    next (σ.setInfo s fun i => { i with releaseOnce := .done }, kind.afterRelease)
  | .disconnectDone =>
    next (σ.setInfo s fun i => { i with disconnectOnce := .done }, kind.afterDisconnect)
  | .completing =>
    (σ.tokens.step (.completeRemove s)).map fun m =>
      ({ σ with tokens := m },
        if s ∈ σ.tokens.removals.index then .closer kind s .cleaning else .finished, none)
  | .cleaning =>
    (σ.tokens.step (.closeCleanup s)).map fun m => ({ σ with tokens := m }, .finished, none)
  | .returning =>
    match kind with
    | .disabled target =>
      (σ.tokens.step (.drainSession target s)).map fun m =>
        ({ σ with tokens := m }, .finished, none)
    | _ => none

def resume (σ : Shared) (t : Thread) (c : Choice) : Moved :=
  match t with
  | .arriving s msg sameConn =>
    let acquired := σ.tokens.acquire s c.now
    some ({ σ with tokens := acquired.1 },
      (acquired.2.map fun l => .handler ⟨l, msg, sameConn⟩ .locking).getD .finished, none)
  | .handler h stage => resumeHandler σ h stage c
  | .closer kind s stage => resumeCloser σ kind s stage c
  | .lookingUp uid => some (σ, ((σ.conns uid).map .acquiring).getD .finished, none)
  | .acquiring s =>
    let acquired := σ.tokens.acquire s c.now
    some ({ σ with tokens := acquired.1 }, (acquired.2.map .sending).getD .finished, none)
  | .sending l => some (σ, .sent l (c.outcome ≠ .delivered), none)
  | .sent l failed =>
    some ({ σ with tokens := σ.tokens.release l },
      if failed then .closer .disconnect l.session .removing else .finished, none)
  | .autoPush l => some ({ σ with tokens := σ.tokens.release l }, .finished, none)
  | .graceCheck w => some (σ, if 0 < σ.registry.count w then .finished else .graceMark w, none)
  | .graceMark w =>
    some (if c.ok then
        { σ with rows := Workloads.markWorkloadDisconnected σ.rows w (c.now + σ.retention) }
      else σ, .finished, none)
  | .finished => none

/-- What happens around the goroutines: callbacks of the transport, pushes, timers, the janitor,
the stop, and the manager's own goroutines. -/
inductive Event where
  | connect (s : Session) (now : Time)
  | message (s : Session) (msg : AgentMessage) (sameConn : Bool)
  | close (s : Session)
  | send (uid : String)
  | onDisabled (target : DrainTarget) (s : Session)
  | tokens (a : Token.Action)
  | fire (w : String) (id : ℕ)
  | janitor (now : Time)
  | stopGrace
  | stopTokens
  deriving DecidableEq, Repr

/-- The steps that the manager's own goroutines and callers of `Disable` take. The cleanup of a
drain is the server's: it is taken by `onDisabled`. -/
def internal (m : Manager) : Token.Action → Bool
  | .finishRemove _ | .disable _ | .returnDisable _ | .drainNext _ | .closeDrain _ => true
  | .expire _ _ | .expireCheck _ _ _ | .expireExit _ => true
  | .drainSession target _ =>
    match (m.drainOf target).map Drain.phase with
    | some (.disabling _) => false
    | _ => true
  | _ => false

def disables (m : Manager) (target : DrainTarget) (s : Session) : Bool :=
  match (m.drainOf target).map Drain.phase with
  | some (.disabling rest) => s ∈ rest
  | _ => false

/-- The transport calls `OnConnected` once for a session, and `OnConnectionClose` after it. -/
def arrive (σ : Shared) : Event → Option (Shared × Option Thread)
  | .connect s now =>
    if s ∈ σ.connected then none
    else some ({ σ with
      tokens := (σ.tokens.track s now).1
      connected := s :: σ.connected }, none)
  | .message s msg sameConn => some (σ, some (.arriving s msg sameConn))
  | .close s => if s ∈ σ.connected then some (σ, some (.closer .close s .removing)) else none
  | .send uid => some (σ, some (.lookingUp uid))
  | .onDisabled target s =>
    if disables σ.tokens target s then some (σ, some (.closer (.disabled target) s .disconnecting))
    else none
  | .tokens a =>
    if internal σ.tokens a then (σ.tokens.step a).map fun m => ({ σ with tokens := m }, none)
    else none
  | .fire w id =>
    let fired := σ.grace.fire w id
    some ({ σ with grace := fired.1 }, if fired.2 then some (.graceCheck w) else none)
  | .janitor now =>
    some ({ σ with rows := Workloads.archiveExpiredWorkloads σ.rows now }, none)
  | .stopGrace => some ({ σ with stopping := true, grace := σ.grace.beginStop }, none)
  | .stopTokens =>
    if σ.stopping then some ({ σ with tokens := σ.tokens.beginStop }, none) else none

def program : Pool.Program Shared Thread Choice Event := ⟨resume, arrive⟩

abbrev State := Pool Shared Thread

abbrev Action := Pool.Label Choice Event

def step : State → Action → Option State := program.step

def initial (retention : Time) (rows : Workloads) : State :=
  ⟨.initial retention rows, []⟩

end OtelMagnify.Server
