import OtelMagnify.Server.Released
import OtelMagnify.Lib.Threads

/-! `Server.Stop`. The server with what its stop waits for: the callbacks of the grace timers and
their wait group, the operations that `beginOperation` admits and theirs, the `Stop` calls and the
goroutine that closes the done channel. -/
namespace OtelMagnify.Server
open Push Token StepSystem

namespace Thread

/-- An auto-push that `beginOperation` has admitted: before its `Fork`, and its goroutine. -/
def isOperation : Thread → Bool
  | handler _ (.forking _) | autoPush _ => true
  | _ => false

/-- The callback that `releaseSessionOnce` schedules, past the check of its timer. -/
def isGraceBody : Thread → Bool
  | graceCheck _ | graceMark _ => true
  | _ => false

/-- `beginOperation` of `launchAutoPush` admits it. -/
def begins : Thread → Option Thread → Bool
  | handler _ (.launching _ _), some (handler _ (.forking _)) => true
  | _, _ => false

/-- The step leaves nothing of an auto-push but its `operation.Done`. -/
def ends (forked : Bool) : Thread → Bool
  | handler _ (.forking _) => !forked
  | autoPush _ => true
  | _ => false

end Thread

/-- A `graceTimer` whose callback has not had its locked section. It has `elapsed` when the runtime
has started the callback, and `timer.Stop` comes too late. -/
structure GraceTimer where
  key : String
  id : ℕ
  elapsed : Bool
  deriving DecidableEq, Repr

/-- What a `GraceController` has under way beside its map of timers. `leaving` is the number of
callbacks that have only their `finish` left, `done` is the channel of its stop. -/
structure GraceRuns where
  timers : List GraceTimer
  leaving : ℕ
  wg : ℕ
  done : Bool
  deriving DecidableEq, Repr

def GraceTimer.isCurrent (x : GraceTimer) (c : Grace) : Bool := c.timers x.key = some x.id

namespace GraceRuns

def initial : GraceRuns := ⟨[], 0, 0, false⟩

/-- `timer.Stop` for the timers of a class, with the `finish` of those that it stops. -/
def stopTimers (g : GraceRuns) (p : GraceTimer → Bool) : GraceRuns :=
  let kept := g.timers.filter fun x => x.elapsed || !p x
  { g with timers := kept, wg := g.wg - (g.timers.length - kept.length) }

/-- `Cancel`, before which the controller is `c`. -/
def cancel (g : GraceRuns) (c : Grace) (key : String) : GraceRuns :=
  g.stopTimers fun x => x.isCurrent c && x.key = key

def schedule (g : GraceRuns) (c : Grace) (key : String) : GraceRuns :=
  if c.stopped then g
  else
    let g := g.cancel c key
    { g with timers := ⟨key, c.nextID + 1, false⟩ :: g.timers, wg := g.wg + 1 }

def beginStop (g : GraceRuns) (c : Grace) : GraceRuns := g.stopTimers (·.isCurrent c)

def elapse (g : GraceRuns) (x : GraceTimer) : Option GraceRuns :=
  if x ∈ g.timers ∧ x.elapsed = false then
    some { g with timers := { x with elapsed := true } :: g.timers.erase x }
  else none

/-- The locked section of a callback, which may run its body or only `finish`. -/
def fire (g : GraceRuns) (x : GraceTimer) (runs : Bool) : GraceRuns :=
  { g with timers := g.timers.erase x, leaving := g.leaving + if runs then 0 else 1 }

def finish (g : GraceRuns) : Option GraceRuns :=
  if 0 < g.leaving then some { g with leaving := g.leaving - 1, wg := g.wg - 1 } else none

/-- What the step of a goroutine from `t` to `t'` does with the controller. -/
def resume (g : GraceRuns) (c : Grace) (t : Thread) (t' : Option Thread) : GraceRuns :=
  match t with
  | .closer _ _ (.scheduling w) => g.schedule c w
  | .handler _ (.cancelling w) => g.cancel c w
  | .graceCheck _ | .graceMark _ =>
    if t' = some .finished then { g with leaving := g.leaving + 1 } else g
  | _ => g

end GraceRuns

/-- Where the goroutine of `beginStop` stands, and the two steps before it. -/
inductive StopStage where
  | stoppingTokens
  | awaitingGrace
  | awaitingTokens
  | awaitingOperations
  | stoppingTransport
  | closed
  deriving DecidableEq, Repr

namespace StopStage

def pastGrace : StopStage → Bool
  | stoppingTokens | awaitingGrace => false
  | _ => true

def pastTokens : StopStage → Bool
  | awaitingOperations | stoppingTransport | closed => true
  | _ => false

def pastOperations : StopStage → Bool
  | stoppingTransport | closed => true
  | _ => false

end StopStage

/-- The server and its stop. `operations` is the wait group, `authenticating` the requests past
`beginOperation`, `ending` the auto-pushes that have only `operation.Done` left, and `waiting` the
`Stop` calls that wait for the done channel or their context. -/
structure Stopping where
  run : Calls
  operations : ℕ
  authenticating : ℕ
  ending : ℕ
  grace : GraceRuns
  stopState : Option StopStage
  waiting : ℕ

inductive StopAction where
  | calls (a : CallAction)
  | authenticate
  | authenticated
  | operationDone
  | elapse (x : GraceTimer)
  | fire (x : GraceTimer)
  | finishGrace
  | closeGrace
  | stop
  | stopTokens
  | advance
  | returnStop (expired : Bool)

namespace Stopping

def initial (retention : Push.Time) (rows : Workloads) : Stopping where
  run := .initial retention rows
  operations := 0
  authenticating := 0
  ending := 0
  grace := .initial
  stopState := none
  waiting := 0

abbrev shared (p : Stopping) : Shared := p.run.server.shared

abbrev threads (p : Stopping) : List Thread := p.run.server.threads

def beginOperation (p : Stopping) : Option Stopping :=
  if p.stopState = none then some { p with operations := p.operations + 1 } else none

def resume (p : Stopping) (i : ℕ) (c : Choice) : Option Stopping :=
  (p.run.thread i).bind fun t =>
    (p.run.resume i c).map fun r =>
      { p with
        run := r
        operations := p.operations + if t.begins (r.thread i) then 1 else 0
        ending := p.ending +
          if t.ends (p.threads.length < r.server.threads.length) then 1 else 0
        grace := p.grace.resume p.shared.grace t (r.thread i) }

/-- Any other step of the server and its calls, apart from the timers and the stop. -/
def call (p : Stopping) (a : CallAction) : Option Stopping :=
  match a with
  | .server (.resume i c) => p.resume i c
  | .server (.arrive (.fire _ _)) => none
  | .server (.arrive .stopGrace) => none
  | .server (.arrive .stopTokens) => none
  | a => (p.run.step a).map fun r => { p with run := r }

/-- The locked section of a callback that has been started. -/
def fire (p : Stopping) (x : GraceTimer) : Option Stopping :=
  if x ∈ p.grace.timers ∧ x.elapsed = true then
    (p.run.arrive (.fire x.key x.id)).map fun r =>
      { p with
        run := r
        grace := p.grace.fire x (p.shared.grace.fire x.key x.id).2 }
  else none

/-- `Stop` up to its wait. The first call begins the stop, the others join it. -/
def stop (p : Stopping) : Option Stopping :=
  match p.stopState with
  | some _ => some { p with waiting := p.waiting + 1 }
  | none =>
    (p.run.arrive .stopGrace).map fun r =>
      { p with
        run := r
        grace := p.grace.beginStop p.shared.grace
        stopState := some .stoppingTokens
        waiting := p.waiting + 1 }

/-- The second half of `beginStop`: `tokens.beginStop` and the start of the goroutine. -/
def stopTokens (p : Stopping) : Option Stopping :=
  if p.stopState = some .stoppingTokens then
    (p.run.arrive .stopTokens).map fun r =>
      { p with run := r, stopState := some .awaitingGrace }
  else none

/-- The goroutine of `beginStop`. -/
def advance (p : Stopping) : Option Stopping :=
  let next (go : Bool) (stage : StopStage) : Option Stopping :=
    if go then some { p with stopState := some stage } else none
  match p.stopState with
  | some .awaitingGrace => next p.grace.done .awaitingTokens
  | some .awaitingTokens => next (p.shared.tokens.isClosed .stop) .awaitingOperations
  | some .awaitingOperations => next (p.operations = 0) .stoppingTransport
  | some .stoppingTransport => next true .closed
  | _ => none

/-- A `Stop` returns, with the error of its context when that has expired. -/
def returnStop (p : Stopping) (expired : Bool) : Option Stopping :=
  if 0 < p.waiting ∧ (expired = true ∨ p.stopState = some .closed) then
    some { p with waiting := p.waiting - 1 }
  else none

def step (p : Stopping) : StopAction → Option Stopping
  | .calls a => p.call a
  | .authenticate =>
    p.beginOperation.map fun q => { q with authenticating := q.authenticating + 1 }
  | .authenticated =>
    if 0 < p.authenticating then
      some { p with authenticating := p.authenticating - 1, operations := p.operations - 1 }
    else none
  | .operationDone =>
    if 0 < p.ending then
      some { p with ending := p.ending - 1, operations := p.operations - 1 }
    else none
  | .elapse x => (p.grace.elapse x).map fun g => { p with grace := g }
  | .fire x => p.fire x
  | .finishGrace => p.grace.finish.map fun g => { p with grace := g }
  | .closeGrace =>
    if p.shared.grace.stopped = true ∧ p.grace.wg = 0 then
      some { p with grace := { p.grace with done := true } }
    else none
  | .stop => p.stop
  | .stopTokens => p.stopTokens
  | .advance => p.advance
  | .returnStop expired => p.returnStop expired

end Stopping

open Thread

section Balance

variable {σ σ' : Shared} {t t' : Thread} {c : Choice} {new : Option Thread} {e : Event}

/-- One step of a goroutine: the auto-pushes after it and those that end in it are the ones before
it and the one that it begins. -/
theorem operation_balance (hm : resume σ t c = some (σ', t', new)) :
    (if t'.isOperation then 1 else 0) + new.toList.countP isOperation +
        (if t.ends new.isSome then 1 else 0) =
      (if t.isOperation then 1 else 0) + if t.begins (some t') then 1 else 0 := by
  cases resume_flow hm with
  | hold hσ hold => cases hold <;> rfl
  | @go h stage stage' hs hh hs' =>
    have hplain : ∀ {stage : HandlerStage}, (handler h stage).forks = false →
        (handler h stage).isOperation = false ∧
          (handler h stage).ends false = false := by
      intro stage hs
      cases stage with
      | forking w => cases hs
      | _ => exact ⟨rfl, rfl⟩
    have hbegins : (handler h stage).begins (some (.handler h stage')) = false := by
      cases stage' with
      | forking w => cases hs'
      | _ => cases stage <;> rfl
    simp [hplain hs, hplain hs', hbegins]
  | fork h w => cases (σ.tokens.fork h.session).2 <;> rfl
  | finish _ hf =>
    cases t with
    | handler h stage =>
      cases stage with
      | forking w => cases hf
      | _ => rfl
    | _ => rfl
  | _ => rfl

/-- One step of a goroutine: a body of a grace callback goes on or leaves, and none begins. -/
theorem graceBody_balance (hm : resume σ t c = some (σ', t', new)) :
    new.toList.countP isGraceBody = 0 ∧ (t'.isGraceBody = true → t.isGraceBody = true) ∧
      (t.isGraceBody = true → t'.isGraceBody = true ∨ t' = .finished) := by
  cases resume_flow hm with
  | fork h w =>
    refine ⟨?_, fun h => (nomatch h), fun h => nomatch h⟩
    cases (σ.tokens.fork h.session).2 <;> rfl
  | expired w => exact ⟨rfl, fun _ => rfl, fun _ => .inl rfl⟩
  | finish => exact ⟨rfl, fun h => (nomatch h), fun _ => .inr rfl⟩
  | _ => exact ⟨rfl, fun h => (nomatch h), fun h => nomatch h⟩

theorem resume_stopping (hm : resume σ t c = some (σ', t', new)) :
    σ'.stopping = σ.stopping ∧ σ'.grace.stopped = σ.grace.stopped := by
  rcases resume_effect hm with ⟨-, hf⟩ | hw
  · exact ⟨hf.stopping, by rw [hf.grace]⟩
  cases hw with
  | accept h =>
    rcases h.accept_cases σ with ⟨desc, ins, -, he⟩ | ⟨-, he⟩ <;> rw [he] <;> exact ⟨rfl, rfl⟩
  | cancel => exact ⟨rfl, rfl⟩
  | upsert =>
    unfold Shared.upsertWorkload
    split <;> exact ⟨rfl, rfl⟩
  | clear | mark => split <;> exact ⟨rfl, rfl⟩
  | unbind kind s =>
    dsimp only [Shared.unbind]
    split <;> exact ⟨rfl, rfl⟩
  | schedule =>
    refine ⟨rfl, ?_⟩
    dsimp only [Grace.schedule]
    split <;> rfl

theorem not_stopping_of_begins (hm : resume σ t c = some (σ', t', new))
    (h : t.begins (some t') = true) : σ.stopping = false := by
  cases t with
  | handler h' stage =>
    cases stage with
    | launching w row =>
      cases hm
      dsimp only at h
      split at h
      · next hl => simpa using (Bool.and_eq_true_iff.mp hl).2
      · cases h
    | _ => cases h
  | _ => cases h

theorem arrive_started (hm : arrive σ e = some (σ', new)) :
    new.toList.countP isOperation = 0 ∧
      ((∀ w id, e ≠ .fire w id) → new.toList.countP isGraceBody = 0) := by
  cases arrive_occurs hm with
  | @fire w id => exact ⟨rfl, fun h => absurd rfl (h w id)⟩
  | _ => exact ⟨rfl, fun _ => rfl⟩

end Balance

namespace GraceRuns

variable {g g' : GraceRuns} {c : Grace} {key : String} {x : GraceTimer} {n : ℕ}

/-- The wait group counts the timers, the bodies and the callbacks that are leaving. -/
def Counts (g : GraceRuns) (bodies : ℕ) : Prop := g.wg = g.timers.length + g.leaving + bodies

theorem stopTimers_spec (h : g.Counts n) (p : GraceTimer → Bool) :
    (g.stopTimers p).Counts n ∧ (g.stopTimers p).wg ≤ g.wg := by
  have hlen : (g.timers.filter fun x => x.elapsed || !p x).length ≤ g.timers.length :=
    List.length_filter_le _ _
  simp only [Counts, stopTimers] at h ⊢
  omega

theorem schedule_spec (c : Grace) (key : String) (h : g.Counts n) :
    (g.schedule c key).Counts n ∧ (c.stopped = true → g.schedule c key = g) := by
  unfold schedule
  split
  · exact ⟨h, fun _ => rfl⟩
  · next hs =>
    obtain ⟨hcount, -⟩ := stopTimers_spec h fun x => x.isCurrent c && x.key = key
    refine ⟨?_, fun hc => absurd hc hs⟩
    simp only [Counts, cancel, List.length_cons] at hcount ⊢
    omega

theorem elapse_spec (h : g.Counts n) (he : g.elapse x = some g') :
    g'.Counts n ∧ g'.wg = g.wg ∧ g'.done = g.done := by
  unfold elapse at he
  split at he
  · next hx =>
    cases he
    refine ⟨?_, rfl, rfl⟩
    have hlen := List.length_erase_of_mem hx.1
    have hpos := List.length_pos_of_mem hx.1
    simp only [Counts, List.length_cons] at h ⊢
    omega
  · cases he

theorem fire_spec (h : g.Counts n) (hx : x ∈ g.timers) (runs : Bool) :
    (g.fire x runs).Counts (n + if runs then 1 else 0) := by
  have hlen := List.length_erase_of_mem hx
  have hpos := List.length_pos_of_mem hx
  simp only [Counts, fire] at h ⊢
  cases runs <;> simp only [if_true, if_false, Bool.false_eq_true] <;> omega

theorem finish_spec (h : g.Counts n) (hf : g.finish = some g') :
    g'.Counts n ∧ g'.wg ≤ g.wg ∧ g'.done = g.done := by
  unfold finish at hf
  split at hf
  · cases hf
    refine ⟨?_, Nat.sub_le _ _, rfl⟩
    simp only [Counts] at h ⊢
    omega
  · cases hf

end GraceRuns

variable {g : GraceRuns} {new : Option Thread} {σ' : Shared}

namespace GraceRuns

/-- A step of a goroutine keeps the count, and a controller that is stopped gets no new timer. -/
theorem resume_spec {σ : Shared} {t t' : Thread} {c : Choice}
    {n n' : ℕ} (h : g.Counts n) (hm : Server.resume σ t c = some (σ', t', new))
    (hn : n' + (if t.isGraceBody then 1 else 0) = n + if t'.isGraceBody then 1 else 0) :
    (g.resume σ.grace t (some t')).Counts n' ∧
      (σ.grace.stopped = true → (g.resume σ.grace t (some t')).wg ≤ g.wg) ∧
      (g.resume σ.grace t (some t')).done = g.done := by
  obtain ⟨-, hback, hgo⟩ := graceBody_balance hm
  have hstay : t.isGraceBody = false → n' = n := by
    intro ht
    have ht' : t'.isGraceBody = false := by
      by_contra hb
      rw [hback (eq_true_of_ne_false hb)] at ht
      cases ht
    simpa [ht, ht'] using hn
  have hbody : t.isGraceBody = true →
      (if some t' = some finished then { g with leaving := g.leaving + 1 } else g).Counts n' ∧
        (if some t' = some finished then { g with leaving := g.leaving + 1 } else g).wg =
          g.wg ∧
        (if some t' = some finished then { g with leaving := g.leaving + 1 } else g).done =
          g.done := by
    intro ht
    rcases hgo ht with hb | rfl
    · have hne : some t' ≠ some finished := by
        rintro ⟨⟩
        cases hb
      rw [if_neg hne]
      simp only [ht, hb, if_true] at hn
      obtain rfl : n' = n := by omega
      exact ⟨h, rfl, rfl⟩
    · rw [if_pos rfl]
      refine ⟨?_, rfl, rfl⟩
      have hf : finished.isGraceBody = false := rfl
      simp only [ht, hf, if_true, if_false, Bool.false_eq_true] at hn
      simp only [Counts] at h ⊢
      omega
  cases t with
  | handler h' stage =>
    cases stage with
    | cancelling w =>
      obtain rfl := hstay rfl
      obtain ⟨hc, hle⟩ := stopTimers_spec h fun x => x.isCurrent σ.grace && x.key = w
      exact ⟨hc, fun _ => hle, rfl⟩
    | _ =>
      obtain rfl := hstay rfl
      exact ⟨h, fun _ => Nat.le_refl _, rfl⟩
  | closer kind s stage =>
    cases stage with
    | scheduling w =>
      obtain rfl := hstay rfl
      obtain ⟨hc, hsame⟩ := schedule_spec σ.grace w h
      refine ⟨hc, fun hs => (congrArg GraceRuns.wg (hsame hs)).le, ?_⟩
      dsimp only [resume, schedule]
      split <;> rfl
    | _ =>
      obtain rfl := hstay rfl
      exact ⟨h, fun _ => Nat.le_refl _, rfl⟩
  | graceCheck w | graceMark w =>
    obtain ⟨hc, hwg, hd⟩ := hbody rfl
    exact ⟨hc, fun _ => hwg.le, hd⟩
  | _ =>
    obtain rfl := hstay rfl
    exact ⟨h, fun _ => Nat.le_refl _, rfl⟩

end GraceRuns

namespace Stopping

variable {p p' : Stopping} {a : StopAction}

/-- The wait groups count what is under way, and each stage of the stop has what it waited for. -/
structure Sound (p : Stopping) : Prop where
  operations : p.operations = p.authenticating + p.ending + p.threads.countP Thread.isOperation
  grace : p.grace.Counts (p.threads.countP Thread.isGraceBody)
  stopping : p.shared.stopping = p.stopState.isSome
  stopped : p.shared.grace.stopped = p.stopState.isSome
  graceDone : p.grace.done = true → p.shared.grace.stopped = true ∧ p.grace.wg = 0
  pastGrace : ∀ stage, p.stopState = some stage → stage.pastGrace = true → p.grace.done = true
  pastTokens : ∀ stage, p.stopState = some stage → stage.pastTokens = true →
    p.shared.tokens.isClosed .stop = true
  pastOperations : ∀ stage, p.stopState = some stage → stage.pastOperations = true →
    p.operations = 0
  expiry : p.shared.tokens.isClosed .stop = true → p.shared.tokens.expiryRuns = []

theorem Sound.initial (retention : Push.Time) (rows : Workloads) :
    (initial retention rows).Sound where
  operations := rfl
  grace := rfl
  stopping := rfl
  stopped := rfl
  graceDone h := nomatch h
  pastGrace _ h := nomatch h
  pastTokens _ h := nomatch h
  pastOperations _ h := nomatch h
  expiry h := nomatch h

/-- A step of the server that is not part of the stop. Nothing is admitted once it has begun. -/
theorem Sound.moved (hp : p.Sound) (hinv : Inv p.shared) {b : Action}
    (hstep : Server.step p.run.server b = some p'.run.server)
    (hstate : p'.stopState = p.stopState)
    (hops : p'.operations = p'.authenticating + p'.ending + p'.threads.countP isOperation)
    (hzero : p.shared.stopping = true → p'.operations ≤ p.operations)
    (hgrace : p'.grace.Counts (p'.threads.countP isGraceBody))
    (hwg : p.shared.grace.stopped = true → p'.grace.wg ≤ p.grace.wg)
    (hdone : p'.grace.done = p.grace.done)
    (hstop : p'.shared.stopping = p.shared.stopping ∧
      p'.shared.grace.stopped = p.shared.grace.stopped) : p'.Sound where
  operations := hops
  grace := hgrace
  stopping := by rw [hstop.1, hp.stopping, hstate]
  stopped := by rw [hstop.2, hp.stopped, hstate]
  graceDone h := by
    obtain ⟨hs, h0⟩ := hp.graceDone (hdone ▸ h)
    exact ⟨hstop.2.trans hs, Nat.le_zero.mp (h0 ▸ hwg hs)⟩
  pastGrace stage hs h := hdone.trans (hp.pastGrace stage (hstate ▸ hs) h)
  pastTokens stage hs h := by
    have hc := hp.pastTokens stage (hstate ▸ hs) h
    rcases step_tokens hinv hstep with he | ⟨b, hb⟩
    · exact he ▸ hc
    · exact (Manager.isClosed_step hb .stop).1 hc
  pastOperations stage hs h := by
    have hsome : p.stopState = some stage := hstate ▸ hs
    have h0 := hp.pastOperations stage hsome h
    have hle := hzero (by rw [hp.stopping, hsome]; rfl)
    exact Nat.le_zero.mp (h0 ▸ hle)
  expiry h := by
    rcases step_tokens hinv hstep with he | ⟨b, hb⟩
    · exact he ▸ hp.expiry (he ▸ h)
    · exact Manager.expiryRuns_of_isClosed hp.expiry hb h

theorem Sound.resume (hp : p.Sound) (hinv : Inv p.shared) {i : ℕ} {c : Choice}
    (h : p.resume i c = some p') : p'.Sound := by
  obtain ⟨t, ht, h⟩ := Option.bind_eq_some_iff.mp h
  obtain ⟨r, hr, h⟩ := Option.map_eq_some_iff.mp h
  obtain ⟨t₀, σ', t', new, ht₀, -, hm, hr'⟩ := Calls.resume_eq_some hr
  obtain rfl : t₀ = t := Option.some.inj (ht₀.symm.trans ht)
  have hserver : r.server = ⟨σ', p.threads.set i t' ++ new.toList⟩ := by rw [hr', threads]
  obtain ⟨hlt, -⟩ := List.getElem?_eq_some_iff.mp ht
  have hthread : r.thread i = some t' := by
    rw [Calls.thread, hserver, List.getElem?_append_left (by simpa using hlt),
      List.getElem?_set_self hlt]
  have hforked : decide (p.threads.length < r.server.threads.length) = new.isSome := by
    rw [hserver]
    cases new <;> simp
  rw [hthread, hforked] at h
  subst h
  have hcountOps := Threads.countP_set_add ht t' isOperation
  have hcountGrace := Threads.countP_set_add ht t' isGraceBody
  have hbalance := operation_balance hm
  obtain ⟨hnone, -⟩ := graceBody_balance hm
  obtain ⟨hcounts, hwg, hdone⟩ := GraceRuns.resume_spec hp.grace hm hcountGrace
  have hops := hp.operations
  refine hp.moved hinv (b := .resume i c) (Pool.Program.step_resume_eq_some.mpr
    ⟨t₀, σ', t', new, ht, hm, hserver⟩) rfl ?_ ?_ ?_ hwg hdone ?_
  · simp only [threads, hserver, List.countP_append] at hops ⊢
    omega
  · intro hs
    have hnew : t₀.begins (some t') = false := by
      by_contra hb
      rw [not_stopping_of_begins hm (eq_true_of_ne_false hb)] at hs
      cases hs
    simp [hnew]
  · simpa only [threads, hserver, List.countP_append, hnone, Nat.add_zero] using hcounts
  · simpa only [shared, hserver] using resume_stopping hm

variable {e : Event} {r : Calls}

theorem arrive_stopping {σ : Shared} (he : e ≠ .stopGrace)
    (hm : Server.arrive σ e = some (σ', new)) :
    σ'.stopping = σ.stopping ∧ σ'.grace.stopped = σ.grace.stopped := by
  cases arrive_occurs hm with
  | stopGrace => exact absurd rfl he
  | _ => exact ⟨rfl, rfl⟩

theorem Sound.arrive (hp : p.Sound) (hinv : Inv p.shared)
    (hm : Server.arrive p.shared e = some (σ', new)) (he : e ≠ .stopGrace)
    (hserver : r.server = ⟨σ', p.threads ++ new.toList⟩)
    (hgrace : g.Counts (p.threads.countP isGraceBody +
      new.toList.countP isGraceBody))
    (hwg : g.wg = p.grace.wg) (hdone : g.done = p.grace.done) :
    Sound { p with run := r, grace := g } := by
  have hops := hp.operations
  refine hp.moved hinv (b := .arrive e) (Pool.Program.step_arrive_eq_some.mpr
    ⟨σ', new, hm, hserver⟩) rfl ?_ (fun _ => Nat.le_refl _) ?_ (fun _ => hwg.le) hdone ?_
  · simp only [threads, hserver, List.countP_append, (arrive_started hm).1] at hops ⊢
    exact hops
  · simpa only [threads, hserver, List.countP_append] using hgrace
  · simpa only [shared, hserver] using arrive_stopping he hm

theorem Sound.event (hp : p.Sound) (hinv : Inv p.shared)
    (hfire : ∀ w id, e ≠ .fire w id) (he : e ≠ .stopGrace)
    (h : p.run.arrive e = some r) : Sound { p with run := r } := by
  obtain ⟨σ', new, hm, -, rfl⟩ := Calls.arrive_eq_some h
  refine hp.arrive hinv hm he rfl ?_ rfl rfl
  rw [(arrive_started hm).2 hfire]
  exact hp.grace

theorem Sound.of_server (hp : p.Sound) (h : r.server = p.run.server) :
    Sound { p with run := r } where
  operations := by simpa only [threads, h] using hp.operations
  grace := by simpa only [threads, h] using hp.grace
  stopping := by simpa only [shared, h] using hp.stopping
  stopped := by simpa only [shared, h] using hp.stopped
  graceDone := by simpa only [shared, h] using hp.graceDone
  pastGrace := hp.pastGrace
  pastTokens := by simpa only [shared, h] using hp.pastTokens
  pastOperations := hp.pastOperations
  expiry := by simpa only [shared, h] using hp.expiry

theorem Sound.call (hp : p.Sound) (hinv : Inv p.shared) {b : CallAction}
    (h : p.call b = some p') : p'.Sound := by
  cases b with
  | server l =>
    cases l with
    | resume i c => exact hp.resume hinv h
    | arrive e =>
      have hcase : (∀ w id, e ≠ .fire w id) ∧ e ≠ .stopGrace ∧
          (p.run.arrive e).map (fun r => { p with run := r }) = some p' := by
        cases e <;> first | exact ⟨nofun, nofun, h⟩ | cases h
      obtain ⟨hfire, he, h⟩ := hcase
      obtain ⟨r, hr, rfl⟩ := Option.map_eq_some_iff.mp h
      exact hp.event hinv hfire he hr
  | _ =>
    obtain ⟨r, hr, rfl⟩ := Option.map_eq_some_iff.mp h
    rcases Calls.step_calls hr fun b hb => nomatch hb with he | ⟨uid, he⟩
    · exact hp.of_server he
    · exact hp.arrive hinv (e := .send uid) rfl (fun h => nomatch h) he hp.grace rfl rfl

theorem Sound.setStage (hp : p.Sound) {stage : StopStage} (hsome : p.stopState.isSome = true)
    (hgrace : stage.pastGrace = true → p.grace.done = true)
    (htokens : stage.pastTokens = true → p.shared.tokens.isClosed .stop = true)
    (hops : stage.pastOperations = true → p.operations = 0) :
    Sound { p with stopState := some stage } :=
  { hp with
    stopping := hp.stopping.trans hsome
    stopped := hp.stopped.trans hsome
    pastGrace := by
      rintro _ ⟨⟩
      exact hgrace
    pastTokens := by
      rintro _ ⟨⟩
      exact htokens
    pastOperations := by
      rintro _ ⟨⟩
      exact hops }

theorem Sound.setGrace (hp : p.Sound)
    (hcounts : g.Counts (p.threads.countP isGraceBody)) (hwg : g.wg ≤ p.grace.wg)
    (hdone : g.done = p.grace.done) : Sound { p with grace := g } :=
  { hp with
    grace := hcounts
    graceDone := by
      intro h
      obtain ⟨hs, h0⟩ := hp.graceDone (hdone ▸ h)
      exact ⟨hs, Nat.le_zero.mp (h0 ▸ hwg)⟩
    pastGrace := fun stage hs h => hdone.trans (hp.pastGrace stage hs h) }

theorem Sound.setOperations (hp : p.Sound) {n k l : ℕ}
    (hn : n = k + l + p.threads.countP isOperation)
    (hzero : p.stopState.isSome = true → n ≤ p.operations) :
    Sound { p with operations := n, authenticating := k, ending := l } :=
  { hp with
    operations := hn
    pastOperations := by
      intro stage hs h
      have hle := hzero (by rw [hs]; rfl)
      exact Nat.le_zero.mp (hp.pastOperations stage hs h ▸ hle) }

theorem Sound.fire (hp : p.Sound) (hinv : Inv p.shared) {x : GraceTimer}
    (h : p.fire x = some p') : p'.Sound := by
  unfold Stopping.fire at h
  split at h
  · next hx =>
    obtain ⟨r, hr, rfl⟩ := Option.map_eq_some_iff.mp h
    obtain ⟨σ', new, hm, -, rfl⟩ := Calls.arrive_eq_some hr
    refine hp.arrive hinv hm (fun h => nomatch h) rfl ?_ rfl rfl
    have hcount : new.toList.countP isGraceBody =
        if (p.shared.grace.fire x.key x.id).2 then 1 else 0 := by
      cases hm
      split <;> rfl
    rw [hcount]
    exact GraceRuns.fire_spec hp.grace hx.1 _
  · cases h

theorem Sound.stop (hp : p.Sound) (h : p.stop = some p') : p'.Sound := by
  unfold Stopping.stop at h
  split at h
  · cases h
    exact { hp with }
  · next hnone =>
    obtain ⟨r, hr, rfl⟩ := Option.map_eq_some_iff.mp h
    obtain ⟨σ', new, hm, -, rfl⟩ := Calls.arrive_eq_some hr
    cases hm
    obtain ⟨hcounts, -⟩ := GraceRuns.stopTimers_spec hp.grace (·.isCurrent p.shared.grace)
    refine ⟨?_, ?_, rfl, rfl, fun hd => ?_, ?_, ?_, ?_, hp.expiry⟩
    · simpa only [threads, Option.toList_none, List.append_nil] using hp.operations
    · simpa only [threads, Option.toList_none, List.append_nil, GraceRuns.beginStop] using hcounts
    · have hs := (hp.graceDone hd).1
      rw [hp.stopped, hnone] at hs
      cases hs
    all_goals
      rintro _ ⟨⟩ h
      cases h

theorem Sound.advance (hp : p.Sound) (h : p.advance = some p') : p'.Sound := by
  unfold Stopping.advance at h
  dsimp only at h
  split at h
  · next hs =>
    split at h <;> cases h
    next hd => exact hp.setStage (by rw [hs]; rfl) (fun _ => hd) nofun nofun
  · next hs =>
    split at h <;> cases h
    next hc =>
      exact hp.setStage (by rw [hs]; rfl) (fun _ => hp.pastGrace _ hs rfl) (fun _ => hc) nofun
  · next hs =>
    split at h <;> cases h
    next h0 =>
      exact hp.setStage (by rw [hs]; rfl) (fun _ => hp.pastGrace _ hs rfl)
        (fun _ => hp.pastTokens _ hs rfl) fun _ => of_decide_eq_true h0
  · next hs =>
    cases h
    exact hp.setStage (by rw [hs]; rfl) (fun _ => hp.pastGrace _ hs rfl)
      (fun _ => hp.pastTokens _ hs rfl) fun _ => hp.pastOperations _ hs rfl
  · cases h

theorem Sound.step (hp : p.Sound) (hinv : Inv p.shared) (h : p.step a = some p') : p'.Sound := by
  have hops := hp.operations
  cases a with
  | calls b => exact hp.call hinv h
  | authenticate =>
    obtain ⟨q, hq, rfl⟩ := Option.map_eq_some_iff.mp h
    unfold beginOperation at hq
    split at hq
    · next hnone =>
      cases hq
      refine hp.setOperations ?_ fun hs => ?_
      · dsimp only
        omega
      · rw [hnone] at hs
        cases hs
    · cases hq
  | authenticated | operationDone =>
    simp only [step] at h
    split at h <;> cases h
    exact hp.setOperations (by omega) fun _ => Nat.sub_le _ _
  | elapse x =>
    obtain ⟨g, hg, rfl⟩ := Option.map_eq_some_iff.mp h
    obtain ⟨hcounts, hwg, hdone⟩ := GraceRuns.elapse_spec hp.grace hg
    exact hp.setGrace hcounts hwg.le hdone
  | fire x => exact hp.fire hinv h
  | finishGrace =>
    obtain ⟨g, hg, rfl⟩ := Option.map_eq_some_iff.mp h
    obtain ⟨hcounts, hwg, hdone⟩ := GraceRuns.finish_spec hp.grace hg
    exact hp.setGrace hcounts hwg hdone
  | closeGrace =>
    simp only [step] at h
    split at h
    · next hg =>
      cases h
      exact { hp with graceDone := fun _ => hg, pastGrace := fun _ _ _ => rfl }
    · cases h
  | stop => exact hp.stop h
  | stopTokens =>
    simp only [step, stopTokens] at h
    split at h
    · next hs =>
      obtain ⟨r, hr, rfl⟩ := Option.map_eq_some_iff.mp h
      have hmoved := hp.event (e := .stopTokens) hinv nofun nofun hr
      exact hmoved.setStage (by rw [hs]; rfl) nofun nofun nofun
    · cases h
  | advance => exact hp.advance h
  | returnStop expired =>
    simp only [step, returnStop] at h
    split at h <;> cases h
    exact { hp with }

/-- Every step is one of the server with its calls, or leaves it as it is. -/
theorem step_run (h : p.step a = some p') : p'.run = p.run ∨ ∃ b, p.run.step b = some p'.run := by
  cases a with
  | calls b =>
    cases b with
    | server l =>
      cases l with
      | resume i c =>
        obtain ⟨t, -, h⟩ := Option.bind_eq_some_iff.mp h
        obtain ⟨r, hr, rfl⟩ := Option.map_eq_some_iff.mp h
        exact .inr ⟨.server (.resume i c), hr⟩
      | arrive e =>
        have hmap : (p.run.arrive e).map (fun r => { p with run := r }) = some p' := by
          cases e <;> first | exact h | cases h
        obtain ⟨r, hr, rfl⟩ := Option.map_eq_some_iff.mp hmap
        exact .inr ⟨.server (.arrive e), hr⟩
    | _ =>
      obtain ⟨r, hr, rfl⟩ := Option.map_eq_some_iff.mp h
      exact .inr ⟨_, hr⟩
  | authenticate =>
    obtain ⟨q, hq, rfl⟩ := Option.map_eq_some_iff.mp h
    unfold beginOperation at hq
    split at hq <;> cases hq
    exact .inl rfl
  | authenticated | operationDone | closeGrace =>
    simp only [step] at h
    split at h <;> cases h
    exact .inl rfl
  | elapse | finishGrace =>
    obtain ⟨g, -, rfl⟩ := Option.map_eq_some_iff.mp h
    exact .inl rfl
  | fire x =>
    simp only [step, fire] at h
    split at h
    · obtain ⟨r, hr, rfl⟩ := Option.map_eq_some_iff.mp h
      exact .inr ⟨.server (.arrive (.fire x.key x.id)), hr⟩
    · cases h
  | stop =>
    simp only [step, stop] at h
    split at h
    · cases h
      exact .inl rfl
    · obtain ⟨r, hr, rfl⟩ := Option.map_eq_some_iff.mp h
      exact .inr ⟨.server (.arrive .stopGrace), hr⟩
  | stopTokens =>
    simp only [step, stopTokens] at h
    split at h
    · obtain ⟨r, hr, rfl⟩ := Option.map_eq_some_iff.mp h
      exact .inr ⟨.server (.arrive .stopTokens), hr⟩
    · cases h
  | advance =>
    simp only [step, advance] at h
    split at h
    · split at h <;> cases h
      exact .inl rfl
    · split at h <;> cases h
      exact .inl rfl
    · split at h <;> cases h
      exact .inl rfl
    · cases h
      exact .inl rfl
    · cases h
  | returnStop expired =>
    simp only [step, returnStop] at h
    split at h <;> cases h
    exact .inl rfl

variable {retention : Push.Time} {rows : Workloads}

theorem server_reachable (h : Reachable Stopping.step (initial retention rows) p) :
    Reachable Server.step (Server.initial retention rows) p.run.server :=
  (h.project (f := run) fun _ _ _ => step_run).project (f := Calls.server) fun _ _ _ =>
    Calls.step_server

theorem sound_of_reachable (h : Reachable Stopping.step (initial retention rows) p) : p.Sound := by
  have hboth : Owned p.run.server ∧ p.Sound := by
    refine h.invariant (P := fun p => Owned p.run.server ∧ p.Sound)
      ⟨owned_initial retention rows, .initial retention rows⟩ fun q a q' hq hs => ⟨?_, ?_⟩
    · rcases step_run hs with he | ⟨b, hb⟩
      · rw [he]
        exact hq.1
      · exact Calls.owned_step hq.1 hb
    · exact hq.2.step hq.1.shared hs
  exact hboth.2

/-- Once the done channel of the stop is closed: no operation is unfinished and none is admitted;
no lease is held or granted; no callback of a grace timer runs, and none is left that could; no
expiry callback runs, and none enters; and every session that was ever tracked has been released,
so that the registry binds nothing. -/
theorem stop_barrier (h : Reachable Stopping.step (initial retention rows) p)
    (hdone : p.stopState = some .closed) :
    (p.authenticating = 0 ∧ p.ending = 0 ∧ (∀ t ∈ p.threads, t.isOperation = false) ∧
        p.beginOperation = none) ∧
      (p.shared.tokens.leases = [] ∧ ∀ s now, (p.shared.tokens.acquire s now).2 = none ∧
        (p.shared.tokens.fork s).2 = none) ∧
      ((∀ t ∈ p.threads, t.isGraceBody = false) ∧ p.grace.timers = []) ∧
      (p.shared.tokens.expiryRuns = [] ∧ ∀ tokenID generation,
        p.shared.tokens.step (.expire tokenID generation) = some p.shared.tokens) ∧
      (∀ s ∈ p.shared.tokens.tracked, s ∈ p.shared.released) ∧
      ∀ uid, p.shared.registry.lookupWorkload uid = none := by
  have hp := sound_of_reachable h
  obtain ⟨hown, hacc⟩ := accounted_of_reachable (server_reachable h)
  have hclosed := hp.pastTokens _ hdone rfl
  have hstopped := Manager.isStopped_of_isClosed hclosed
  have hcount : p.threads.countP isOperation = 0 ∧ p.authenticating = 0 ∧ p.ending = 0 := by
    have h0 := hp.pastOperations _ hdone rfl
    have hops := hp.operations
    omega
  have hgrace : p.threads.countP isGraceBody = 0 ∧ p.grace.timers.length = 0 := by
    have h0 := (hp.graceDone (hp.pastGrace _ hdone rfl)).2
    have hcounts : p.grace.wg = _ := hp.grace
    omega
  have hquiet := fun s => hown.shared.tokens.of_isClosed hclosed (s := s) trivial
  have hreleased : ∀ s ∈ p.shared.tokens.tracked, s ∈ p.shared.released := fun s hs =>
    hacc.doneWith.cleaned s ((hquiet s).2.2 hs)
  refine ⟨⟨hcount.2.1, hcount.2.2, ?_, ?_⟩, ⟨?_, ?_⟩, ⟨?_, ?_⟩, ⟨hp.expiry hclosed, ?_⟩,
    hreleased, ?_⟩
  · intro t ht
    simpa using List.countP_eq_zero.mp hcount.1 t ht
  · rw [beginOperation, hdone, if_neg nofun]
  · refine List.eq_nil_iff_forall_not_mem.mpr fun l hl => ?_
    have hheld := Manager.isLeased_iff.mpr ⟨l, hl, rfl⟩
    rw [(hquiet l.session).2.1] at hheld
    cases hheld
  · exact fun s now => (Manager.rejects_of_tombstone now (.inr hstopped)).2
  · intro t ht
    simpa using List.countP_eq_zero.mp hgrace.1 t ht
  · exact List.length_eq_zero_iff.mp hgrace.2
  · intro tokenID generation
    simp [Manager.step, hstopped]
  · intro uid
    cases hw : p.shared.registry.lookupWorkload uid with
    | none => rfl
    | some w =>
      -- the session that made the binding owns the uid, was tracked and so has been released
      obtain ⟨-, s, hs⟩ := hown.shared.bound uid w hw
      have hconn := hown.shared.binder uid s hs
      obtain ⟨hne, huid⟩ := (hown.shared.conns uid s).mp hconn
      have hrel := hreleased s (hacc.doneWith.owner uid s hconn)
      exact absurd (huid.symm.trans (hown.shared.released s hrel).2) hne

/-- A server with one session is stopped: the drain of the manager releases the session, the
wait for the operations ends, and the call returns. -/
def stopRun : List StopAction :=
  let a : Session := ⟨0, "t", none⟩
  let event (e : Event) : StopAction := .calls (.server (.arrive e))
  let drain : StopAction := event (.tokens (.drainSession .stop a))
  let next : StopAction := event (.tokens (.drainNext .stop))
  [.authenticate, event (.connect a 0), .authenticated, .stop, .stopTokens, .closeGrace, .advance,
    drain, next, event (.onDisabled .stop a)] ++ List.replicate 6 (.calls (Calls.go 0)) ++
    [next, drain, next] ++ List.replicate 4 (event (.tokens (.finishRemove a))) ++
    [drain, next, event (.tokens (.closeDrain .stop)), .advance, .advance, .advance,
      .returnStop false]

theorem stop_barrier_one_session :
    ∃ p, StepSystem.run Stopping.step (initial 0 fun _ => none) stopRun = some p ∧
      p.stopState = some .closed ∧ (⟨0, "t", none⟩ : Session) ∈ p.shared.released := by
  obtain ⟨p, hr, hdone, htracked⟩ : ∃ p,
      StepSystem.run Stopping.step (initial 0 fun _ => none) stopRun = some p ∧
        p.stopState = some .closed ∧ (⟨0, "t", none⟩ : Session) ∈ p.shared.tokens.tracked := by
    decide +kernel
  exact ⟨p, hr, hdone, (stop_barrier ⟨stopRun, hr⟩ hdone).2.2.2.2.1 _ htracked⟩

/-- At every moment the two wait groups count exactly what they wait for: the operations under way,
and the timers and callbacks of the grace periods. So from the moment when a stop has waited for
one of them there are no such operations, or no such timers and callbacks, any more. -/
theorem wait_groups_exact (h : Reachable Stopping.step (initial retention rows) p) :
    p.operations = p.authenticating + p.ending + p.threads.countP isOperation ∧
    p.grace.wg = p.grace.timers.length + p.grace.leaving + p.threads.countP isGraceBody ∧
    ∀ stage, p.stopState = some stage →
      (stage.pastOperations = true → p.authenticating + p.ending = 0 ∧
        ∀ t ∈ p.threads, t.isOperation = false) ∧
      (stage.pastGrace = true → p.grace.timers.length + p.grace.leaving = 0 ∧
        ∀ t ∈ p.threads, t.isGraceBody = false) := by
  have hp := sound_of_reachable h
  have hops := hp.operations
  have hgrace : p.grace.wg = _ := hp.grace
  refine ⟨hops, hgrace, fun stage hstage => ⟨fun hpast => ?_, fun hpast => ?_⟩⟩
  · have h0 := hp.pastOperations stage hstage hpast
    refine ⟨by omega, fun t ht => ?_⟩
    simpa using List.countP_eq_zero.mp (by omega : p.threads.countP isOperation = 0) t ht
  · have h0 := (hp.graceDone (hp.pastGrace stage hstage hpast)).2
    refine ⟨by omega, fun t ht => ?_⟩
    simpa using List.countP_eq_zero.mp (by omega : p.threads.countP isGraceBody = 0) t ht

theorem wait_groups_exact_closed :
    ∃ p, StepSystem.run Stopping.step (initial 0 fun _ => none) stopRun = some p ∧
      p.stopState = some .closed ∧ p.authenticating + p.ending = 0 ∧
      p.grace.timers.length + p.grace.leaving = 0 := by
  obtain ⟨p, hr, hdone⟩ : ∃ p,
      StepSystem.run Stopping.step (initial 0 fun _ => none) stopRun = some p ∧
        p.stopState = some .closed := by
    decide +kernel
  obtain ⟨-, -, hpast⟩ := wait_groups_exact ⟨stopRun, hr⟩
  obtain ⟨hoperations, hgrace⟩ := hpast _ hdone
  exact ⟨p, hr, hdone, (hoperations rfl).1, (hgrace rfl).1⟩

end Stopping

end OtelMagnify.Server
