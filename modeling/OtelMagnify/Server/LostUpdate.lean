import OtelMagnify.Server.Handled

/-! Concurrent writers of one workload row. Descriptions, grace callbacks, retention clears and
archive requests set columns on purpose; heartbeats and status reports write back a whole row
that they read before. As long as nobody changes a row between the read and the write of another
goroutine, every column has the value of the last operation that set it. -/
namespace OtelMagnify.Server
open Push StepSystem
open Token hiding Time

/-- The config id that a description sets, when its message has an effective config. -/
def Handler.reported (h : Handler) (row : Workload) : Option String :=
  if (persistEffectiveConfig h.msg.effectiveConfig true).isSome then row.activeConfigID else none

/-- The columns of the rows, as the operations that set columns leave them. Each operation takes
effect at once, when its statement is executed. -/
abbrev Ledger := String → Option Columns

def Thread.sets (t : Thread) (σ : Shared) (c : Choice) (l : Ledger) : Ledger :=
  match t with
  | .handler h (.upserting w row) =>
    if c.ok then
      Function.update l w
        (some (.describe h.attrs h.msg.acceptsRemoteConfig (h.reported row) (l w)))
    else l
  | .handler _ (.clearing w) =>
    if c.ok then Function.update l w ((l w).map .clearRetention) else l
  | .graceMark w =>
    if c.ok then Function.update l w ((l w).map (.setRetention (c.now + σ.retention))) else l
  | _ => l

def Event.sets (e : Event) (l : Ledger) : Ledger :=
  match e with
  | .janitor now => fun w => (l w).map (.archiveExpired now)
  | _ => l

/-- The server and the archive requests of the API, with the ledger as history. `archiving` are
the workloads that `handleArchiveWorkload` found disconnected and is about to archive. -/
structure Recorded where
  state : State
  archiving : List String
  ledger : Ledger

inductive Request where
  | server (a : Action)
  | archiveCheck (w : String) (ok : Bool)
  | archiveWrite (i : ℕ) (now : Time) (ok : Bool)

namespace Recorded

def initial (retention : Time) (rows : Workloads) : Recorded where
  state := Server.initial retention rows
  archiving := []
  ledger := rows.columns

def record (o : Recorded) (a : Action) : Ledger :=
  match a with
  | .resume i c =>
    match o.state.threads[i]? with
    | some t => t.sets o.state.shared c o.ledger
    | none => o.ledger
  | .arrive e => e.sets o.ledger

/-- `handleArchiveWorkload` reads the row and refuses a workload that is not disconnected; then
it calls `ArchiveWorkload`. -/
def step (o : Recorded) : Request → Option Recorded
  | .server a =>
    (Server.step o.state a).map fun p => { o with state := p, ledger := o.record a }
  | .archiveCheck w ok =>
    some
      (if (o.state.shared.getWorkload ok w).any (·.status = .disconnected) then
        { o with archiving := o.archiving ++ [w] }
      else o)
  | .archiveWrite i now ok =>
    o.archiving[i]?.map fun w =>
      let o' := { o with archiving := o.archiving.eraseIdx i }
      if ok then
        { o' with
          state := { o.state with shared := { o.state.shared with
            rows := o.state.shared.rows.archiveWorkload w now } }
          ledger := Function.update o.ledger w
            ((o.ledger w).map fun c => (c.setRetention now).archive now) }
      else o'

def bystanders (o : Recorded) : Request → List Thread
  | .server (.resume i _) => o.state.threads.eraseIdx i
  | _ => o.state.threads

/-- Whether the read of a description succeeds, if the step is one. -/
def reads (o : Recorded) : Request → Bool
  | .server (.resume i c) =>
    match o.state.threads[i]? with
    | some (.handler _ (.describing _)) => c.ok
    | _ => true
  | _ => true

/-- The step changes no column of a row of which another goroutine holds a copy, and the read of
a description succeeds. -/
def undisturbed (o : Recorded) (r : Request) : Bool :=
  o.reads r &&
    (o.step r).all fun o' => (o.bystanders r).all fun t => t.holds.all fun w =>
      o'.state.shared.rows.columns w = o.state.shared.rows.columns w

end Recorded

def Thread.Current (l : Ledger) : Thread → Prop
  | handler _ (.aggregating w prev) => prev.map Workload.columns = l w
  | handler h (.upserting w row) =>
    row.columns = .describe h.attrs h.msg.acceptsRemoteConfig (h.reported row) (l w)
  | handler _ (.refreshAggregating w row) => l w = some row.columns
  | handler _ (.refreshUpserting w row) => l w = some row.columns
  | handler _ (.reportUpserting w row) => l w = some row.columns
  | _ => True

variable {σ σ' : Shared} {t t' : Thread} {new : Option Thread} {c : Choice} {h : Handler}
  {w : String} {row : Workload} {l l' : Ledger}

theorem Thread.Current.of_holds (ht : t.Current l) (hl : ∀ w, t.holds = some w → l' w = l w) :
    t.Current l' := by
  cases t with
  | handler h stage =>
    cases stage with
    | aggregating w prev => exact ht.trans (hl w rfl).symm
    | upserting w row =>
      simp only [Current] at ht ⊢
      rw [hl w rfl, ← ht]
    | refreshAggregating w row | refreshUpserting w row | reportUpserting w row =>
      exact (hl w rfl).trans ht
    | _ => trivial
  | _ => trivial

theorem Thread.current_of_holds_none (h : t.holds = none) : t.Current l := by
  cases t with
  | handler h' stage => cases stage <;> trivial
  | _ => trivial

theorem persistEffectiveConfig_eq_none {effective : List (String × List UInt8)}
    (h : persistEffectiveConfig effective true = none) (stored : Bool) :
    persistEffectiveConfig effective stored = none := by
  cases stored with
  | true => exact h
  | false => simp [persistEffectiveConfig]

/-- Whether or not the store holds the effective config, the draft has the columns that the
description sets. -/
theorem columns_eq_reported {old : Option Columns} {stored : Bool}
    (hrow : row.columns = .describe h.attrs h.msg.acceptsRemoteConfig
      (persistEffectiveConfig h.msg.effectiveConfig stored) old) :
    row.columns = .describe h.attrs h.msg.acceptsRemoteConfig (h.reported row) old := by
  have hid : row.activeConfigID = (persistEffectiveConfig h.msg.effectiveConfig stored).or
      (old.getD Workload.zero.columns).activeConfigID := congrArg Columns.activeConfigID hrow
  have hsame : (h.reported row).or (old.getD Workload.zero.columns).activeConfigID =
      (persistEffectiveConfig h.msg.effectiveConfig stored).or
        (old.getD Workload.zero.columns).activeConfigID := by
    unfold Handler.reported
    split
    · rw [hid, Option.or_assoc, Option.or_self]
    · next hnone =>
      rw [persistEffectiveConfig_eq_none (Option.not_isSome_iff_eq_none.mp hnone)]
  rw [hrow]
  dsimp only [Columns.describe]
  rw [hsame]

/-- What a goroutine writes is what it sets on purpose, when its copy is current. -/
theorem columns_resume (ht : t.Current σ.rows.columns)
    (hm : resume σ t c = some (σ', t', new)) :
    σ'.rows.columns = t.sets σ c σ.rows.columns := by
  rcases resume_effect hm with ⟨hw, hf⟩ | hwrite
  · rw [hf.rows]
    cases t with
    | handler h stage => cases stage <;> first | rfl | cases hw
    | graceMark w => cases hw
    | _ => rfl
  cases hwrite with
  | accept h => rcases h.accept_cases σ with ⟨desc, ins, -, he⟩ | ⟨-, he⟩ <;> rw [he] <;> rfl
  | cancel h w => rfl
  | upsert h stage w row _ hs =>
    unfold Shared.upsertWorkload
    cases stage <;> cases hs
    · simp only [Thread.sets, Thread.Current] at ht ⊢
      split
      · rw [← ht]
        exact Workloads.columns_upsertWorkload _ _ _
      · rfl
    · split
      · exact Workloads.columns_upsertWorkload_self ht
      · rfl
    · split
      · exact Workloads.columns_upsertWorkload_self ht
      · rfl
  | clear h w =>
    simp only [Thread.sets]
    split
    · exact Workloads.columns_clearWorkloadRetention _ _
    · rfl
  | unbind kind s =>
    dsimp only [Shared.unbind]
    split <;> rfl
  | schedule kind s w => rfl
  | mark w =>
    simp only [Thread.sets]
    split
    · exact Workloads.columns_markWorkloadDisconnected _ _ _
    · rfl

theorem columns_arrive {e : Event} (hm : arrive σ e = some (σ', new)) :
    σ'.rows.columns = e.sets σ.rows.columns := by
  cases arrive_occurs hm with
  | janitor => exact Workloads.columns_archiveExpiredWorkloads _ _
  | _ => rfl

theorem current_hold {stage stage' : HandlerStage}
    (ht : (Thread.handler h stage).Current σ.rows.columns)
    (hread : ∀ w, stage = .describing w → c.ok = true) (hold : Hold σ c h stage stage') :
    (Thread.handler h stage').Current σ.rows.columns := by
  cases hold with
  | describe w => simp [Thread.Current, Shared.getWorkload, hread w rfl, Workloads.columns]
  | draft w prev =>
    have hprev : prev.map Workload.columns = σ.rows.columns w := ht
    rw [Thread.Current, ← hprev]
    exact columns_eq_reported (columns_described _ _ _ _ _ _ _)
  | refresh w row hrow => exact columns_of_getWorkload hrow
  | aggregate w row => exact ht
  | report w snap row hrow =>
    have hcol := columns_of_getWorkload hrow
    exact hcol

/-- The ledger agrees with the rows, and so does every copy. -/
structure Recorded.Sound (o : Recorded) : Prop where
  ledger : o.state.shared.rows.columns = o.ledger
  current : ∀ t ∈ o.state.threads, t.Current o.ledger

theorem Recorded.Sound.initial (retention : Time) (rows : Workloads) :
    (Recorded.initial retention rows).Sound :=
  ⟨rfl, by simp [Recorded.initial, Server.initial]⟩

/-- The bystanders of a step that leaves the columns they hold alone. -/
theorem Recorded.Sound.bystander {o o' : Recorded} {r : Request} (ho : o.Sound)
    (hu : o.undisturbed r = true) (hs : o.step r = some o')
    (hl : o'.state.shared.rows.columns = o'.ledger) (ht : t ∈ o.bystanders r)
    (hmem : t ∈ o.state.threads) : t.Current o'.ledger := by
  simp only [undisturbed, hs, Bool.and_eq_true, Option.all_some, List.all_eq_true] at hu
  refine (ho.current t hmem).of_holds fun w hw => ?_
  have hsame := hu.2 t ht
  rw [hw, Option.all_some] at hsame
  rw [← hl, ← ho.ledger]
  exact of_decide_eq_true hsame

theorem Recorded.Sound.server {o o' : Recorded} {a : Action} (ho : o.Sound)
    (hu : o.undisturbed (.server a) = true) (hs : o.step (.server a) = some o') : o'.Sound := by
  have hs' := hs
  obtain ⟨p, hp, rfl⟩ := Option.map_eq_some_iff.mp hs
  cases a with
  | resume i c =>
    obtain ⟨t, σ', t', new, ht, hm, rfl⟩ := Pool.Program.step_resume_eq_some.mp hp
    have hmem := List.mem_of_getElem? ht
    have hcur : t.Current o.state.shared.rows.columns := ho.ledger ▸ ho.current t hmem
    have hl : σ'.rows.columns = o.record (.resume i c) := by
      rw [columns_resume hcur hm, ho.ledger, Recorded.record, ht]
    refine ⟨hl, fun u hmem' => ?_⟩
    dsimp only at hmem' ⊢
    rcases Pool.mem_set_append hmem' with ⟨j, hj, hju⟩ | rfl | hn
    · exact ho.bystander hu hs' hl (List.mem_eraseIdx_iff_getElem?.mpr ⟨j, hj, hju⟩)
        (List.mem_of_getElem? hju)
    · rcases resume_hold hm with hd | ⟨h, stage, stage', rfl, rfl, rfl, rfl, hold⟩
      · exact Thread.current_of_holds_none hd.1
      · rw [← hl]
        refine current_hold hcur ?_ hold
        rintro w rfl
        simp only [Recorded.undisturbed, Recorded.reads, ht, Bool.and_eq_true] at hu
        exact hu.1
    · rcases resume_hold hm with hd | ⟨h, stage, stage', rfl, rfl, rfl, rfl, hold⟩
      · exact Thread.current_of_holds_none (hd.2 u hn)
      · cases hn
  | arrive e =>
    obtain ⟨σ', new, hm, rfl⟩ := Pool.Program.step_arrive_eq_some.mp hp
    have hl : σ'.rows.columns = o.record (.arrive e) := by
      rw [columns_arrive hm, ho.ledger, Recorded.record]
    refine ⟨hl, fun u hmem => ?_⟩
    rcases List.mem_append.mp hmem with hmem | hn
    · exact ho.bystander hu hs' hl hmem hmem
    · exact Thread.current_of_holds_none (arrive_holds hm u (Option.mem_toList.mp hn))

theorem Recorded.Sound.step {o o' : Recorded} {r : Request} (ho : o.Sound)
    (hu : o.undisturbed r = true) (hs : o.step r = some o') : o'.Sound := by
  cases r with
  | server a => exact ho.server hu hs
  | archiveCheck w ok =>
    cases hs
    split
    · exact ⟨ho.ledger, ho.current⟩
    · exact ho
  | archiveWrite i now ok =>
    have hs' := hs
    obtain ⟨w, hw, rfl⟩ := Option.map_eq_some_iff.mp hs
    cases ok with
    | false => exact ⟨ho.ledger, ho.current⟩
    | true =>
      have hl : (o.state.shared.rows.archiveWorkload w now).columns =
          Function.update o.ledger w
            ((o.ledger w).map fun c => (c.setRetention now).archive now) := by
        rw [Workloads.columns_archiveWorkload, ho.ledger]
      exact ⟨hl, fun t ht => ho.bystander hu hs' hl ht ht⟩

theorem no_lost_updates {retention : Time} {rows : Workloads} {reqs : List Request} {o : Recorded}
    (hkeep : Meets Recorded.step (fun o r => o.undisturbed r = true)
      (Recorded.initial retention rows) reqs)
    (hrun : run Recorded.step (Recorded.initial retention rows) reqs = some o) (w : String) :
    o.state.shared.rows.columns w = o.ledger w := by
  have ho : o.Sound := run_invariant_of_meets (fun _ _ _ ho hu hs => ho.step hu hs)
    (.initial retention rows) hkeep hrun
  rw [ho.ledger]

/-- A message of the instance whose bytes are all `b`, on the host `n1`: a description with a
version, or a heartbeat. -/
def hostMessage (b : UInt8) (version : Option String) : AgentMessage where
  instanceUid := List.replicate 16 b
  agentDescription := version.map fun v => ⟨[("host.name", "n1"), ("service.version", v)], []⟩
  capabilities := 2

/-- `n` steps of one goroutine, with a store and a transport that work. -/
def steps (n i : ℕ) : List Request :=
  List.replicate n (.server (.resume i ⟨10, true, true, .delivered⟩))

/-- The instance `7` describes version `1` of its workload. -/
def firstVersion : List Request :=
  let a : Session := ⟨0, "t", none⟩
  [.server (.arrive (.connect a 10)),
    .server (.arrive (.message a (hostMessage 7 (some "1")) true))]
    ++ steps 19 0

def heartbeat : List Request :=
  [.server (.arrive (.message ⟨0, "t", none⟩ (hostMessage 7 none) true))]

/-- The instance `8` describes version `2` of the same workload. -/
def secondVersion : List Request :=
  let b : Session := ⟨1, "t", none⟩
  [.server (.arrive (.connect b 10)),
    .server (.arrive (.message b (hostMessage 8 (some "2")) true))]
    ++ steps 19 2

/-- A heartbeat between the two descriptions, and the archive request for another workload. -/
def separateRun : List Request :=
  firstVersion ++ heartbeat ++ steps 13 1 ++ secondVersion ++
    [.archiveCheck "old" true, .archiveWrite 0 10 true]

theorem no_lost_updates_separate :
    ∃ o, run Recorded.step (Recorded.initial 0 fun w =>
        if w = "old" then some (departedRow none) else none) separateRun = some o ∧
      (o.state.shared.rows.columns (hash24 "host||n1")).map Columns.version = some "2" ∧
      (o.state.shared.rows.columns "old").map Columns.archivedAt = some (some 10) := by
  obtain ⟨o, ho, hversion, harch⟩ : ∃ o, run Recorded.step (Recorded.initial 0 fun w =>
        if w = "old" then some (departedRow none) else none) separateRun = some o ∧
      (o.ledger (hash24 "host||n1")).map Columns.version = some "2" ∧
      (o.ledger "old").map Columns.archivedAt = some (some 10) := by
    decide +kernel
  have hsame := no_lost_updates (by decide +kernel) ho
  exact ⟨o, ho, by rw [hsame, hversion], by rw [hsame, harch]⟩

/-- The heartbeat reads the row before the second description and writes it back after it. -/
def lostUpdateRun : List Request :=
  firstVersion ++ heartbeat ++ steps 6 1 ++ secondVersion ++ steps 7 1

theorem heartbeat_reverts_description :
    ∃ o, run Recorded.step (Recorded.initial 0 fun _ => none) lostUpdateRun = some o ∧
      (∀ t ∈ o.state.threads, t = .finished) ∧
      (o.ledger (hash24 "host||n1")).map Columns.version = some "2" ∧
      (o.state.shared.rows.columns (hash24 "host||n1")).map Columns.version = some "1" := by
  decide +kernel

end OtelMagnify.Server
