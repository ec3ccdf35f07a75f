import OtelMagnify.Lib.IndexedSet
import OtelMagnify.Lib.StepSystem
import Mathlib.Logic.Function.Basic
import Mathlib.Data.Int.Order.Basic

/-! The connections of managed tokens: `tokenConnections` with its sessions, leases, removals,
disables, expiry timers and stop, one step per mutex section, channel operation or wait. -/
namespace OtelMagnify.Token

abbrev Time := ℤ

structure Session where
  object : ℕ
  tokenID : String
  expiresAt : Option Time
  deriving DecidableEq, Repr

def Session.isExpired (s : Session) (now : Time) : Bool := s.expiresAt.any (· ≤ now)

/-- A read lock on the gate of the session. -/
structure Lease where
  id : ℕ
  session : Session
  deriving DecidableEq, Repr

/-- A `tokenRemoveState` and how far its `finishRemove` has come. It waits for the leases, then
for `cleanupDone`; it is past `drained` only with `cleanupDone` closed. -/
inductive Removal where
  | draining (cleanupDone : Bool)
  | drained (cleanupDone : Bool)
  | unlinked
  | closed
  | exited
  deriving DecidableEq, Repr

namespace Removal

def isOpen : Removal → Bool
  | draining _ => true
  | drained _ => true
  | _ => false

def isDone : Removal → Bool
  | closed => true
  | exited => true
  | _ => false

def isComplete : Removal → Bool
  | draining b => b
  | drained b => b
  | _ => true

/-- `completeTokenRemove` -/
def complete : Removal → Removal
  | draining _ => draining true
  | drained _ => drained true
  | r => r

/-- The steps of `finishRemove` that keep the removal registered or unregistered. -/
def next : Removal → Removal
  | draining b => drained b
  | unlinked => closed
  | closed => exited
  | r => r

@[simp] theorem isOpen_next (r : Removal) : r.next.isOpen = r.isOpen := by
  cases r <;> rfl

@[simp] theorem isOpen_complete (r : Removal) : r.complete.isOpen = r.isOpen := by
  cases r <;> rfl

@[simp] theorem isDone_complete (r : Removal) : r.complete.isDone = r.isDone := by
  cases r <;> rfl

theorem isComplete_of_not_isOpen {r : Removal} (h : r.isOpen = false) : r.isComplete = true := by
  cases r <;> first | rfl | cases h

theorem isOpen_eq_false_of_isDone {r : Removal} (h : r.isDone = true) : r.isOpen = false := by
  cases r <;> first | rfl | cases h

end Removal

/-- The removal states, indexed by session and by token while they are registered. `wg` is
`removeWG`. -/
structure Removals where
  index : IndexedSet Session.tokenID
  state : Session → Option Removal
  wg : ℕ
  mem_index : ∀ s, s ∈ index ↔ ∃ r, state s = some r ∧ r.isOpen = true

namespace Removals

def empty : Removals where
  index := .empty
  state := fun _ => none
  wg := 0
  mem_index := by simp

/-- `registerRemoveLocked` for a session without a registered removal. -/
def insert (m : Removals) (s : Session) : Removals where
  index := m.index.insert s
  state := Function.update m.state s (some (.draining false))
  wg := m.wg + 1
  mem_index := by
    intro u
    by_cases hu : u = s
    · simp [hu, Removal.isOpen]
    · simp [hu, m.mem_index]

/-- `registerRemoveLocked`: the table and whether the removal was created. -/
def registerRemove (m : Removals) (s : Session) : Removals × Bool :=
  if s ∈ m.index then (m, false) else (m.insert s, true)

/-- `registerRemoveLocked` for each session, and those whose removal was created. -/
def registerRemoves (m : Removals) : List Session → Removals × List Session
  | [] => (m, [])
  | s :: l =>
    let first := m.registerRemove s
    let rest := first.1.registerRemoves l
    (rest.1, if first.2 then s :: rest.2 else rest.2)

def modify (m : Removals) (s : Session) (f : Removal → Removal)
    (hf : ∀ r, (f r).isOpen = r.isOpen) : Removals where
  index := m.index
  state := Function.update m.state s ((m.state s).map f)
  wg := m.wg
  mem_index := by
    intro u
    rw [m.mem_index]
    by_cases hu : u = s
    · simp [hu, hf]
    · simp [hu]

def complete (m : Removals) (s : Session) : Removals :=
  m.modify s Removal.complete Removal.isOpen_complete

/-- The locked section of `finishRemove`. -/
def unlink (m : Removals) (s : Session) : Removals where
  index := m.index.erase s
  state := Function.update m.state s (some .unlinked)
  wg := m.wg
  mem_index := by
    intro u
    by_cases hu : u = s
    · simp [hu, Removal.isOpen]
    · simp [hu, m.mem_index]

/-- `finishRemove`, one step: the wait for the leases, the wait for `cleanupDone` with the
unlinking, `close(done)` and `removeWG.Done`. -/
def finishRemove (m : Removals) (s : Session) (leased : Bool) : Option Removals :=
  match m.state s with
  | none => none
  | some (.draining _) =>
    if leased then none else some (m.modify s Removal.next Removal.isOpen_next)
  | some (.drained b) => if b then some (m.unlink s) else none
  | some .unlinked => some (m.modify s Removal.next Removal.isOpen_next)
  | some .closed => some { m.modify s Removal.next Removal.isOpen_next with wg := m.wg - 1 }
  | some .exited => none

end Removals

/-- Where a `completeDisable` or `completeStop` stands, with the sessions it has yet to handle
in that phase. They are handled in any order: the source collects them from maps. -/
inductive DrainPhase where
  | waiting (rest : List Session)
  | disabling (rest : List Session)
  | completing (rest : List Session)
  | joining (rest : List Session)
  | joined
  deriving DecidableEq, Repr

/-- What `completeDisable` and `completeStop` work through. -/
structure Drain where
  sessions : List Session
  removals : List Session
  owned : List Session
  phase : DrainPhase
  deriving DecidableEq, Repr

def Drain.next (d : Drain) : Option Drain :=
  match d.phase with
  | .waiting [] => some { d with phase := .disabling d.sessions }
  | .disabling [] => some { d with phase := .completing d.owned }
  | .completing [] => some { d with phase := .joining d.removals }
  | .joining [] => some { d with phase := .joined }
  | _ => none

structure DisableState where
  drain : Drain
  done : Bool
  deriving DecidableEq, Repr

/-- `disableDone` are the tokens whose disable was still running when the stop began. -/
structure StopState where
  drain : Drain
  disableDone : List String
  done : Bool
  deriving DecidableEq, Repr

structure ExpiryTimer where
  expiresAt : Time
  delay : Time
  generation : ℕ
  deriving DecidableEq, Repr

/-- A goroutine that `expiryWG` counts: an `expireToken` before its second section, or one that
waits for the disable of its token to be done. -/
inductive ExpiryRun where
  | checking (tokenID : String) (generation : ℕ)
  | joining (tokenID : String)
  deriving DecidableEq, Repr

inductive DrainTarget where
  | disable (tokenID : String)
  | stop
  deriving DecidableEq, Repr

/-- A `Disable` call that has not returned and the channel it waits for. -/
structure DisableCall where
  tokenID : String
  awaits : DrainTarget
  deriving DecidableEq, Repr

/-- `tokenConnections`. `stopped` is `stopState ≠ none`. `completing` are the `CompleteRemove`
calls between their two steps. The last three fields are history: the sessions that were
tracked, those that went through `onDisabled` or through their owner's cleanup, and the tokens
of the `Disable` calls that have returned. -/
structure Manager where
  sessions : IndexedSet Session.tokenID
  removals : Removals
  disableStates : String → Option DisableState
  disabledIDs : List String
  expiryTimers : String → Option ExpiryTimer
  nextTimerID : ℕ
  stopState : Option StopState
  expiryRuns : List ExpiryRun
  leases : List Lease
  nextLease : ℕ
  completing : List Session
  disableCalls : List DisableCall
  tracked : List Session
  cleaned : List Session
  returned : List String

namespace Manager

def initial : Manager where
  sessions := .empty
  removals := .empty
  disableStates := fun _ => none
  disabledIDs := []
  expiryTimers := fun _ => none
  nextTimerID := 0
  stopState := none
  expiryRuns := []
  leases := []
  nextLease := 0
  completing := []
  disableCalls := []
  tracked := []
  cleaned := []
  returned := []

def isStopped (m : Manager) : Bool := m.stopState.isSome

def isDisabled (m : Manager) (tokenID : String) : Bool := (m.disableStates tokenID).isSome

def isLeased (m : Manager) (s : Session) : Bool := m.leases.any (·.session = s)

/-- The earliest expiry of the sessions, as the loop of `scheduleExpiryLocked` finds it. -/
def earliestExpiry (l : List Session) : Option Time :=
  l.foldl (fun earliest s =>
    match s.expiresAt, earliest with
    | none, _ => earliest
    | some e, none => some e
    | some e, some e' => if e < e' then some e else some e') none

def scheduleExpiry (m : Manager) (tokenID : String) (now : Time) : Manager :=
  match earliestExpiry (m.sessions.byKey tokenID) with
  | none => { m with expiryTimers := Function.update m.expiryTimers tokenID none }
  | some e =>
    if (m.expiryTimers tokenID).any (·.expiresAt = e) then m
    else
      { m with
        nextTimerID := m.nextTimerID + 1
        expiryTimers := Function.update m.expiryTimers tokenID
          (some ⟨e, e - now, m.nextTimerID + 1⟩) }

/-- The state that `beginDisableLocked` registers for a token that has none. -/
def disableDrain (m : Manager) (tokenID : String) : Drain :=
  let byID := m.sessions.byKey tokenID
  let removing := m.removals.index.byKey tokenID
  let sessions := removing ++ byID.filter (· ∉ removing)
  { sessions := sessions
    removals := removing ++ byID
    owned := (m.removals.registerRemoves byID).2
    phase := .waiting sessions }

/-- `beginDisableLocked`: the state and whether the caller won. -/
def beginDisable (m : Manager) (tokenID : String) : Manager × Bool :=
  if m.isDisabled tokenID then (m, false)
  else
    ({ m with
        sessions := m.sessions.eraseKey tokenID
        removals := (m.removals.registerRemoves (m.sessions.byKey tokenID)).1
        disableStates := Function.update m.disableStates tokenID
          (some ⟨m.disableDrain tokenID, false⟩)
        disabledIDs := tokenID :: m.disabledIDs
        expiryTimers := Function.update m.expiryTimers tokenID none }, true)

/-- `Track`. An expired session disables its token; the drain then runs on the caller. -/
def track (m : Manager) (s : Session) (now : Time) : Manager × Bool :=
  if s.tokenID = "" then (m, false)
  else if m.isStopped then (m, false)
  else if m.isDisabled s.tokenID then (m, false)
  else if s.isExpired now then ((m.beginDisable s.tokenID).1, false)
  else if s ∈ m.sessions then (m, false)
  else
    (scheduleExpiry { m with sessions := m.sessions.insert s, tracked := s :: m.tracked }
      s.tokenID now, true)

/-- The read lock of `Acquire` and `Fork`. It is taken under the mutex and does not wait: the
gate of a session in `sessions` has no writer. -/
def grant (m : Manager) (s : Session) : Manager × Option Lease :=
  ({ m with leases := ⟨m.nextLease, s⟩ :: m.leases, nextLease := m.nextLease + 1 },
    some ⟨m.nextLease, s⟩)

def acquire (m : Manager) (s : Session) (now : Time) : Manager × Option Lease :=
  if m.isStopped then (m, none)
  else if m.isDisabled s.tokenID then (m, none)
  else if s ∉ m.sessions then (m, none)
  else if s.isExpired now then
    let begun := m.beginDisable s.tokenID
    (if begun.2 then { begun.1 with expiryRuns := .joining s.tokenID :: begun.1.expiryRuns }
      else begun.1, none)
  else m.grant s

/-- `tokenLease.Fork`, for a lease of the session. It does not ask whether that lease is held. -/
def fork (m : Manager) (s : Session) : Manager × Option Lease :=
  if m.isStopped then (m, none)
  else if m.isDisabled s.tokenID then (m, none)
  else if s ∉ m.sessions then (m, none)
  else m.grant s

def release (m : Manager) (l : Lease) : Manager := { m with leases := m.leases.filter (· ≠ l) }

def remove (m : Manager) (s : Session) (now : Time) : Manager :=
  if s ∈ m.removals.index then m
  else if m.isStopped then m
  else if s ∉ m.sessions then m
  else
    scheduleExpiry
      { m with
        sessions := m.sessions.erase s
        removals := (m.removals.registerRemove s).1 } s.tokenID now

def stopDrain (m : Manager) : Drain where
  sessions := m.sessions.all
  removals := (m.removals.registerRemoves m.sessions.all).1.index.all
  owned := (m.removals.registerRemoves m.sessions.all).2
  phase := .waiting m.sessions.all

def isClosed (m : Manager) : DrainTarget → Bool
  | .disable tokenID => (m.disableStates tokenID).any (·.done)
  | .stop => m.stopState.any (·.done)

def beginStop (m : Manager) : Manager :=
  if m.isStopped then m
  else
    { m with
      sessions := .empty
      removals := (m.removals.registerRemoves m.sessions.all).1
      stopState := some
        { drain := m.stopDrain
          disableDone := m.disabledIDs.filter fun t => !m.isClosed (.disable t)
          done := false }
      expiryTimers := fun _ => none }

def drainOf (m : Manager) : DrainTarget → Option Drain
  | .disable tokenID => (m.disableStates tokenID).map (·.drain)
  | .stop => m.stopState.map (·.drain)

def setDrain (m : Manager) (d : Drain) : DrainTarget → Manager
  | .disable tokenID =>
    { m with
      disableStates := Function.update m.disableStates tokenID
        ((m.disableStates tokenID).map fun x => { x with drain := d }) }
  | .stop => { m with stopState := m.stopState.map fun x => { x with drain := d } }

/-- A drain handles one of its sessions: the wait for the leases, `onDisabled`,
`completeTokenRemove` and the wait for the removal. -/
def drainSession (m : Manager) (d : Drain) (s : Session) : Option (Manager × Drain) :=
  match d.phase with
  | .waiting rest =>
    if s ∈ rest ∧ m.isLeased s = false then
      some (m, { d with phase := .waiting (rest.filter (· ≠ s)) })
    else none
  | .disabling rest =>
    if s ∈ rest then
      some ({ m with cleaned := s :: m.cleaned },
        { d with phase := .disabling (rest.filter (· ≠ s)) })
    else none
  | .completing rest =>
    if s ∈ rest then
      some ({ m with removals := m.removals.complete s },
        { d with phase := .completing (rest.filter (· ≠ s)) })
    else none
  | .joining rest =>
    if s ∈ rest ∧ (m.removals.state s).any Removal.isDone = true then
      some (m, { d with phase := .joining (rest.filter (· ≠ s)) })
    else none
  | .joined => none

/-- The second section of `expireToken`, and what is left of its goroutine. -/
def expireCheck (m : Manager) (tokenID : String) (generation : ℕ) (now : Time) :
    Manager × Option ExpiryRun :=
  if m.isStopped then (m, none)
  else
    match m.expiryTimers tokenID with
    | none => (m, none)
    | some timer =>
      if timer.generation ≠ generation then (m, none)
      else if now < timer.expiresAt then
        (scheduleExpiry
          { m with expiryTimers := Function.update m.expiryTimers tokenID none } tokenID now, none)
      else ((m.beginDisable tokenID).1, some (.joining tokenID))

end Manager

/-- One mutex section, channel operation or wait. The step carries every choice: which caller
runs, its clock, which lease is released and which session a drain handles next. -/
inductive Action where
  | track (s : Session) (now : Time)
  | acquire (s : Session) (now : Time)
  | fork (s : Session)
  | release (l : Lease)
  | remove (s : Session) (now : Time)
  | completeRemove (s : Session)
  | closeCleanup (s : Session)
  | finishRemove (s : Session)
  | disable (tokenID : String)
  | returnDisable (call : DisableCall)
  | beginStop
  | drainSession (target : DrainTarget) (s : Session)
  | drainNext (target : DrainTarget)
  | closeDrain (target : DrainTarget)
  | expire (tokenID : String) (generation : ℕ)
  | expireCheck (tokenID : String) (generation : ℕ) (now : Time)
  | expireExit (tokenID : String)
  deriving DecidableEq, Repr

namespace Manager

/-- `close(state.done)` at the end of `completeDisable` and of `completeStop`; the latter first
waits for the disables that were running, for `expiryWG` and for `removeWG`. -/
def closeDrain (m : Manager) : DrainTarget → Option Manager
  | .disable tokenID =>
    match m.disableStates tokenID with
    | none => none
    | some x =>
      if x.drain.phase = .joined then
        some { m with
          disableStates := Function.update m.disableStates tokenID (some { x with done := true }) }
      else none
  | .stop =>
    match m.stopState with
    | none => none
    | some x =>
      if x.drain.phase = .joined ∧ (x.disableDone.all fun t => m.isClosed (.disable t)) = true ∧
          m.expiryRuns = [] ∧ m.removals.wg = 0 then
        some { m with stopState := some { x with done := true } }
      else none

/-- One step. A session that has been tracked is not tracked again. -/
def step (m : Manager) : Action → Option Manager
  | .track s now =>
    if s ∈ m.tracked ∧ (m.track s now).2 = true then none else some (m.track s now).1
  | .acquire s now => some (m.acquire s now).1
  | .fork s => some (m.fork s).1
  | .release l => some (m.release l)
  | .remove s now => some (m.remove s now)
  | .completeRemove s =>
    if s ∈ m.removals.index then some { m with completing := s :: m.completing } else some m
  | .closeCleanup s =>
    if s ∈ m.completing then
      some { m with
        completing := m.completing.erase s
        removals := m.removals.complete s
        cleaned := s :: m.cleaned }
    else none
  | .finishRemove s =>
    (m.removals.finishRemove s (m.isLeased s)).map fun r => { m with removals := r }
  | .disable tokenID =>
    if m.isStopped then some { m with disableCalls := ⟨tokenID, .stop⟩ :: m.disableCalls }
    else
      let begun := (m.beginDisable tokenID).1
      some { begun with disableCalls := ⟨tokenID, .disable tokenID⟩ :: begun.disableCalls }
  | .returnDisable call =>
    if call ∈ m.disableCalls ∧ m.isClosed call.awaits = true then
      some { m with
        disableCalls := m.disableCalls.erase call
        returned := call.tokenID :: m.returned }
    else none
  | .beginStop => some m.beginStop
  | .drainSession target s =>
    (m.drainOf target).bind fun d =>
      (m.drainSession d s).map fun p => p.1.setDrain p.2 target
  | .drainNext target =>
    (m.drainOf target).bind fun d => d.next.map fun d' => m.setDrain d' target
  | .closeDrain target => m.closeDrain target
  | .expire tokenID generation =>
    if m.isStopped then some m
    else some { m with expiryRuns := .checking tokenID generation :: m.expiryRuns }
  | .expireCheck tokenID generation now =>
    if .checking tokenID generation ∈ m.expiryRuns then
      let checked := m.expireCheck tokenID generation now
      some { checked.1 with
        expiryRuns := checked.2.toList ++ m.expiryRuns.erase (.checking tokenID generation) }
    else none
  | .expireExit tokenID =>
    if .joining tokenID ∈ m.expiryRuns ∧ m.isClosed (.disable tokenID) = true then
      some { m with expiryRuns := m.expiryRuns.erase (.joining tokenID) }
    else none

end Manager

end OtelMagnify.Token
