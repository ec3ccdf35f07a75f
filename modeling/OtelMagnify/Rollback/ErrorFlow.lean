import OtelMagnify.Lib.Pool
import OtelMagnify.Push.Clean
import OtelMagnify.Rollback.Attempt

/-! Where the text of a remote-config error goes. A report is handled by one thread, which stores
it in the history, in the registry and in the workload row, broadcasts it and may roll the push
back; an operator's push ends with an error of the transport. The threads interleave at every store
call with each other, with writers of the workload row and with reads. -/
namespace OtelMagnify.Push.RemoteConfigStatus

def marshalJSON (r : RemoteConfigStatus) : RemoteConfigStatus := r.sanitized

def unmarshalJSON (encoded : RemoteConfigStatus) : RemoteConfigStatus := encoded.sanitized

/-- What `Value` writes into a column. -/
def value (r : RemoteConfigStatus) : RemoteConfigStatus := r.sanitized.marshalJSON

/-- What `Scan` reads from a column. -/
def scan (column : RemoteConfigStatus) : RemoteConfigStatus := column.unmarshalJSON.sanitized

def messages (r : RemoteConfigStatus) : List String :=
  r.errorMessage :: r.pushStatus.elim [] WorkloadConfig.messages

end OtelMagnify.Push.RemoteConfigStatus

namespace OtelMagnify.ErrorFlow
open Push Rollback Pool StepSystem

inductive Output where
  /-- `BroadcastConfigStatus` -/
  | configStatus (workloadID : String) (status : RemoteConfigStatus)
  /-- `BroadcastAutoRollback` -/
  | autoRollback (workloadID fromHash toHash reason : String) (kind : TargetKind)
  /-- The status in `BroadcastWorkloadUpdate` or in a workload that is read. -/
  | workload (workloadID : String) (status : Option RemoteConfigStatus)
  /-- The status of a live instance. -/
  | inst (uid : String) (status : RemoteConfigStatus)
  /-- A push status. -/
  | push (wc : WorkloadConfig)
  /-- The answer to a push that could not be sent. -/
  | badGateway (message : String)

def Output.messages : Output → List String
  | configStatus _ status => status.messages
  | autoRollback _ _ _ reason _ => [reason]
  | workload _ status => status.elim [] RemoteConfigStatus.messages
  | inst _ status => status.messages
  | push wc => wc.messages
  | badGateway message => [message]

/-- The tables, the `remote_config_status` column of the workloads, the `snap` of every report in
the order in which they were made, which of them the registry points to for an instance, and what
has left the server. -/
structure World where
  db : Tables
  statuses : String → Option RemoteConfigStatus
  snapshots : List RemoteConfigStatus
  registry : String → Option ℕ
  outputs : List Output

def World.setHistory (s : World) (history : WorkloadConfigs) : World :=
  { s with db := { s.db with history } }

def World.emit (s : World) (o : Output) : World := { s with outputs := s.outputs ++ [o] }

/-- `UpsertWorkload`: a workload without a status keeps the one in the column. -/
def World.upsertWorkload (s : World) (workloadID : String) (status : Option RemoteConfigStatus) :
    World :=
  match status with
  | some r => { s with statuses := Function.update s.statuses workloadID (some r.sanitized.value) }
  | none => s

def World.getWorkload (s : World) (workloadID : String) : Option RemoteConfigStatus :=
  (s.statuses workloadID).map RemoteConfigStatus.scan

/-- A report on a workload, with what the environment decides while its push status is read. -/
structure Incoming extends AgentReport where
  workloadID : String
  latest : ℕ
  readAt : Time
  deriving DecidableEq, Repr

/-- An operator's push. `err` is the error of the transport. -/
structure Sending where
  push : ConfigPush
  err : Option String
  sentAt : Time
  deriving DecidableEq, Repr

inductive Thread where
  | received (m : Incoming)
  | rowStatus (m : Incoming) (snap : ℕ)
  | instanceStatus (m : Incoming) (snap : ℕ)
  | pushStatus (m : Incoming) (snap : ℕ)
  | getWorkload (m : Incoming) (snap : ℕ)
  | upsertWorkload (m : Incoming) (snap : ℕ)
  | broadcast (m : Incoming) (snap : ℕ)
  | rollback (m : Incoming) (stage : RollbackStage)
  | recordPush (p : Sending)
  | sendPush (p : Sending)
  | failPush (p : ConfigPush) (err : String)
  | markPush (p : ConfigPush) (sentAt : Time)
  | loaded (workloadID : String) (status : Option RemoteConfigStatus)
  | updated (workloadID : String) (status : Option RemoteConfigStatus)
  | finished

/-- `errorMessage := models.SanitizeRemoteConfigErrorMessage(rcs.ErrorMessage)` -/
def Incoming.sanitized (m : Incoming) : Incoming :=
  { m with err := sanitizeRemoteConfigErrorMessage m.err }

def Incoming.snapshot (m : Incoming) : RemoteConfigStatus where
  status := m.report
  configHash := m.hash
  errorMessage := m.err
  updatedAt := m.updatedAt

def getLatestWorkloadConfig (db : Tables) (m : Incoming) : Option WorkloadConfig :=
  (db.history.newestAt m.latest (fun r => r.workloadID = m.workloadID)
    WorkloadConfigRow.appliedAt).map fun r => scanWorkloadConfig (db.content r.configID) m.readAt r

/-- `BroadcastAutoRollback` is the last statement of a rollback. -/
def World.announce (s : World) (m : Incoming) : RollbackStage → World
  | .announcing target => s.emit (.autoRollback m.workloadID m.hash target.configID
      (sanitizeRemoteConfigErrorMessage m.err) target.kind)
  | _ => s

/-- One statement of `handleRemoteConfigStatus` or `attemptAutoRollback`, of a handler that pushes
a config, or of a writer of the workload row. `ok` says that it succeeds; an error of a statement
is logged, and ends the thread where the source returns. -/
def resume (s : World) (t : Thread) (ok : Bool) : Option (World × Thread × Option Thread) :=
  match t with
  | .received m =>
    let m := m.sanitized
    -- an instance that is not in the registry is not updated
    let registry := if ok then Function.update s.registry m.uid (some s.snapshots.length)
      else s.registry
    some ({ s with snapshots := s.snapshots ++ [m.snapshot], registry },
      .rowStatus m s.snapshots.length, none)
  | .rowStatus m snap =>
    some (if ok then s.setHistory (updateWorkloadConfigStatus s.db.history m.workloadID m.hash
        m.report.status m.err) else s, .instanceStatus m snap, none)
  | .instanceStatus m snap =>
    some (if ok then s.setHistory (updateWorkloadConfigInstanceStatus s.db.history m.workloadID
        m.hash m.uid m.report.status m.err (s.db.content m.hash) m.scanNow m.clock m.updatedAt)
      else s, .pushStatus m snap, none)
  | .pushStatus m snap =>
    -- `snap` is shared with the registry
    some (if ok then { s with
        snapshots := s.snapshots.modify snap fun r =>
          { r with pushStatus := getLatestWorkloadConfig s.db m } } else s,
      .getWorkload m snap, none)
  | .getWorkload m snap => some (s, if ok then .upsertWorkload m snap else .broadcast m snap, none)
  | .upsertWorkload m snap =>
    some (if ok then s.upsertWorkload m.workloadID s.snapshots[snap]? else s, .broadcast m snap,
      none)
  | .broadcast m snap =>
    let next := if m.report = .failed then Thread.rollback m (.lookup .knownGood) else .finished
    match s.snapshots[snap]? with
    | some r =>
      some (if ok then s.emit (.configStatus m.workloadID r.sanitized.marshalJSON) else s, next,
        none)
    | none => none
  | .rollback m stage =>
    let after := stage.step s.db m.workloadID m.toAgentReport ok
    let s := { s with db := after.1 }
    some (if ok then s.announce m stage else s, after.2.elim .finished (.rollback m), none)
  | .recordPush p =>
    match recordWorkloadConfig s.db.history p.push.submittedAt p.push.workloadConfig with
    | some history =>
      if ok then some (s.setHistory history, .sendPush p, none) else some (s, .finished, none)
    | none => some (s, .finished, none)
  | .sendPush p =>
    match p.err with
    | some err => some (s, .failPush p.push (sanitizeRemoteConfigErrorMessage err), none)
    | none => some (s, .markPush p.push p.sentAt, none)
  | .failPush p err =>
    let s := if ok then
        s.setHistory (updateWorkloadConfigStatus s.db.history p.workloadID p.configID .failed err)
      else s
    some (s.emit (.badGateway err), .finished, none)
  | .markPush p sentAt =>
    some (if ok then s.setHistory (markWorkloadConfigSent s.db.history p.workloadID p.configID
        sentAt) else s, .finished, none)
  | .loaded workloadID status =>
    some (if ok then s.upsertWorkload workloadID status else s, .updated workloadID status, none)
  | .updated workloadID status =>
    let status := status.map fun r => r.sanitized.marshalJSON
    some (if ok then s.emit (.workload workloadID status) else s, .finished, none)
  | .finished => none

inductive Event where
  | report (m : Incoming)
  | push (p : Sending)
  /-- A push to a target of a canary fails; `handleStartCanary`, `handlePromoteCanary` and
  `handleRollbackCanary` keep no text of it. -/
  | canaryError (err : String)
  /-- A writer of the workload row, with the status that it has loaded or without. -/
  | touchWorkload (workloadID : String) (load : Bool)
  | deleteWorkload (workloadID : String)
  | readPush (key : String × String × Time) (now : Time)
  /-- A query that returns its row as it is stored. -/
  | readRow (key : String × String × Time)
  | readHistory (workloadID : String) (now : Time)
  | readWorkload (workloadID : String)
  | readInstance (uid : String)
  /-- Writers of the other tables. -/
  | other (knownGood : String → Option String) (content : String → String)

/-- The columns that a query without hydration reads. -/
def storedWorkloadConfig (r : WorkloadConfigRow) : WorkloadConfig where
  workloadID := r.workloadID
  configID := r.configID
  appliedAt := r.appliedAt
  status := r.status
  errorMessage := r.errorMessage
  pushedBy := r.pushedBy
  label := r.label

def arrive (s : World) : Event → Option (World × Option Thread)
  | .report m => some (s, some (.received m))
  | .push p => some (s, some (.recordPush p))
  | .canaryError err => some (s.emit (.badGateway (sanitizeRemoteConfigErrorMessage err)), none)
  | .touchWorkload workloadID load =>
    some (s, some (.loaded workloadID (if load then s.getWorkload workloadID else none)))
  | .deleteWorkload workloadID =>
    some ({ s.setHistory (s.db.history.delete fun r => r.workloadID = workloadID) with
      statuses := Function.update s.statuses workloadID none }, none)
  | .readPush key now =>
    (s.db.history.get? key).map fun r =>
      (s.emit (.push (scanWorkloadConfig (s.db.content r.configID) now r)), none)
  | .readRow key =>
    (s.db.history.get? key).map fun r => (s.emit (.push (storedWorkloadConfig r)), none)
  | .readHistory workloadID now =>
    some ({ s with
      outputs := s.outputs ++ (s.db.history.rows.filter (·.workloadID = workloadID)).map fun r =>
        .push (scanWorkloadConfig "" now r) }, none)
  | .readWorkload workloadID =>
    some (s.emit (.workload workloadID ((s.getWorkload workloadID).map (·.marshalJSON))), none)
  | .readInstance uid =>
    ((s.registry uid).bind fun snap => s.snapshots[snap]?).map fun r =>
      (s.emit (.inst uid r.marshalJSON), none)
  | .other knownGood content => some ({ s with db := { s.db with knownGood, content } }, none)

def program : Program World Thread Bool Event where
  resume := resume
  arrive := arrive

section Texts

open RemoteConfigStatus

theorem messages_snapshot_sanitized (m : Incoming) :
    m.sanitized.snapshot.messages = [sanitizeRemoteConfigErrorMessage m.err] := by
  simp only [messages, Incoming.snapshot, Incoming.sanitized, Option.elim_none]

theorem messages_setPushStatus {r : RemoteConfigStatus} (hr : r.messages ⊆ keptTexts)
    {push : Option WorkloadConfig} (hpush : ∀ wc ∈ push, wc.messages ⊆ keptTexts) :
    messages { r with pushStatus := push } ⊆ keptTexts := by
  refine List.cons_subset.2 ⟨(List.cons_subset.1 hr).1, ?_⟩
  cases push with
  | none => exact List.nil_subset _
  | some wc => exact hpush wc rfl

/-- A status with the sanitiser's own texts is as good as sanitised. -/
theorem sanitized_eq_self {r : RemoteConfigStatus} (h : r.messages ⊆ keptTexts) :
    r.sanitized = r := by
  obtain ⟨hmsg, hpush⟩ := List.cons_subset.1 h
  have hwc (wc : WorkloadConfig) (hwc : wc.messages ⊆ keptTexts) :
      sanitizeRemoteConfigErrors wc = wc := by
    obtain ⟨herr, -, hinsts, hgroups, htimeline⟩ := (messages_subset_iff wc).1 hwc
    have hmap {α : Type} {f : α → α} {l : List α} (hf : ∀ a ∈ l, f a = a) : l.map f = l :=
      (List.map_congr_left hf).trans (List.map_id' l)
    unfold sanitizeRemoteConfigErrors
    rw [sanitize_of_mem_keptTexts herr,
      hmap fun t ht => by rw [sanitize_of_mem_keptTexts (htimeline t ht)],
      hmap fun i hi => by rw [sanitize_of_mem_keptTexts (hinsts i hi)],
      hmap fun g hg => by rw [sanitize_of_mem_keptTexts (hgroups g hg)]]
  unfold sanitized
  rw [sanitize_of_mem_keptTexts hmsg]
  cases hstatus : r.pushStatus with
  | none => rw [Option.map_none, ← hstatus]
  | some wc =>
    rw [hstatus] at hpush
    rw [Option.map_some, hwc wc hpush, ← hstatus]

theorem messages_sanitized {r : RemoteConfigStatus} (h : r.messages ⊆ keptTexts) :
    r.sanitized.messages ⊆ keptTexts :=
  (sanitized_eq_self h).symm ▸ h

theorem sanitize_subset_keptTexts (err : String) :
    [sanitizeRemoteConfigErrorMessage err] ⊆ keptTexts :=
  List.cons_subset.2 ⟨sanitize_mem_keptTexts err, List.nil_subset _⟩

/-- Every text that is stored or has left the server is one of the sanitiser's. -/
structure World.Clean (s : World) : Prop where
  history : CleanHistory s.db.history
  statuses : ∀ workloadID, ∀ r ∈ s.statuses workloadID, r.messages ⊆ keptTexts
  snapshots : ∀ r ∈ s.snapshots, r.messages ⊆ keptTexts
  outputs : ∀ o ∈ s.outputs, o.messages ⊆ keptTexts

/-- The texts that a thread carries to the outside. -/
def Thread.Clean : Thread → Prop
  | .failPush _ err => err ∈ keptTexts
  | .loaded _ status | .updated _ status => ∀ r ∈ status, r.messages ⊆ keptTexts
  | _ => True

namespace World.Clean

variable {s : World}

theorem setHistory (h : s.Clean) {history : WorkloadConfigs} (hh : CleanHistory history) :
    (s.setHistory history).Clean :=
  ⟨hh, h.statuses, h.snapshots, h.outputs⟩

theorem emit (h : s.Clean) {o : Output} (ho : o.messages ⊆ keptTexts) : (s.emit o).Clean := by
  refine ⟨h.history, h.statuses, h.snapshots, fun o' ho' => ?_⟩
  rcases List.mem_append.1 ho' with hold | hnew
  · exact h.outputs o' hold
  · rw [List.mem_singleton.1 hnew]
    exact ho

theorem upsertWorkload (h : s.Clean) (workloadID : String) {status : Option RemoteConfigStatus}
    (hstatus : ∀ r ∈ status, r.messages ⊆ keptTexts) :
    (s.upsertWorkload workloadID status).Clean := by
  cases status with
  | none => exact h
  | some r =>
    have hr := hstatus r rfl
    refine ⟨h.history, fun w r' hr' => ?_, h.snapshots, h.outputs⟩
    simp only [World.upsertWorkload, value, marshalJSON,
      sanitized_eq_self hr] at hr'
    by_cases hw : w = workloadID
    · rw [hw, Function.update_self, Option.mem_some_iff] at hr'
      exact hr' ▸ hr
    · rw [Function.update_of_ne hw] at hr'
      exact h.statuses w r' hr'

theorem getWorkload (h : s.Clean) (workloadID : String) :
    ∀ r ∈ s.getWorkload workloadID, r.messages ⊆ keptTexts := by
  intro r hr
  obtain ⟨column, hcolumn, rfl⟩ := Option.mem_map.1 hr
  exact messages_sanitized (messages_sanitized (h.statuses workloadID column hcolumn))

theorem modifySnapshot (h : s.Clean) (snap : ℕ) {f : RemoteConfigStatus → RemoteConfigStatus}
    (hf : ∀ r, r.messages ⊆ keptTexts → (f r).messages ⊆ keptTexts) :
    World.Clean { s with snapshots := s.snapshots.modify snap f } := by
  refine ⟨h.history, h.statuses, fun r hr => ?_, h.outputs⟩
  obtain ⟨i, hi⟩ := List.mem_iff_getElem?.1 hr
  rw [List.getElem?_modify] at hi
  obtain ⟨r₀, hr₀, rfl⟩ := Option.map_eq_some_iff.1 hi
  have hclean := h.snapshots r₀ (List.mem_of_getElem? hr₀)
  split
  · exact hf r₀ hclean
  · exact hclean

theorem getElem?_snapshots (h : s.Clean) (snap : ℕ) :
    ∀ r ∈ s.snapshots[snap]?, r.messages ⊆ keptTexts :=
  fun r hr => h.snapshots r (List.mem_of_getElem? hr)

theorem ite {s' : World} (h : s.Clean) (h' : s'.Clean) (ok : Bool) :
    (if ok then s' else s).Clean := by
  cases ok
  · exact h
  · exact h'

end World.Clean

/-- A statement leaves only the sanitiser's texts behind. -/
theorem clean_resume {s s' : World} {t t' : Thread} {ok : Bool} {new : Option Thread}
    (h : s.Clean) (ht : t.Clean) (hr : resume s t ok = some (s', t', new)) :
    s'.Clean ∧ t'.Clean ∧ ∀ n ∈ new, n.Clean := by
  have hnone : ∀ n ∈ (none : Option Thread), n.Clean := fun n hn => nomatch hn
  cases t with
  | received m =>
    cases hr
    have hsnap : m.sanitized.snapshot.messages ⊆ keptTexts := by
      rw [messages_snapshot_sanitized]
      exact sanitize_subset_keptTexts m.err
    refine ⟨⟨h.history, h.statuses, fun r hmem => ?_, h.outputs⟩, trivial, hnone⟩
    rcases List.mem_append.1 hmem with hold | hnew
    · exact h.snapshots r hold
    · rw [List.mem_singleton.1 hnew]
      exact hsnap
  | rowStatus m snap =>
    cases hr
    exact ⟨h.ite (h.setHistory h.history.updateWorkloadConfigStatus) ok, trivial, hnone⟩
  | instanceStatus m snap =>
    cases hr
    exact ⟨h.ite (h.setHistory h.history.updateWorkloadConfigInstanceStatus) ok, trivial,
      hnone⟩
  | pushStatus m snap =>
    cases hr
    have hpush : ∀ wc ∈ getLatestWorkloadConfig s.db m, wc.messages ⊆ keptTexts := by
      intro wc hwc
      obtain ⟨row, -, rfl⟩ := Option.mem_map.1 hwc
      exact messages_scanWorkloadConfig ..
    exact ⟨h.ite (h.modifySnapshot snap fun r hr => messages_setPushStatus hr hpush) ok, trivial,
      hnone⟩
  | getWorkload m snap =>
    cases hr
    refine ⟨h, ?_, hnone⟩
    split <;> trivial
  | upsertWorkload m snap =>
    cases hr
    exact ⟨h.ite (h.upsertWorkload _ (h.getElem?_snapshots snap)) ok, trivial, hnone⟩
  | broadcast m snap =>
    simp only [resume] at hr
    split at hr
    · next r hsnap =>
      cases hr
      have hclean := messages_sanitized (h.getElem?_snapshots snap r hsnap)
      refine ⟨h.ite (h.emit ?_) ok, ?_, hnone⟩
      · exact messages_sanitized hclean
      · split <;> trivial
    · cases hr
  | rollback m stage =>
    cases hr
    have hdb :
        World.Clean { s with db := (stage.step s.db m.workloadID m.toAgentReport ok).1 } := by
      refine ⟨?_, h.statuses, h.snapshots, h.outputs⟩
      rcases RollbackStage.step_history (Prod.eta (stage.step s.db _ _ ok)).symm with
        he | ⟨p, hrecord⟩ | ⟨hash, at_, he⟩
      · exact he ▸ h.history
      · exact h.history.recordWorkloadConfig hrecord
      · exact he ▸ h.history.markWorkloadConfigSent
    refine ⟨hdb.ite ?_ ok, ?_, hnone⟩
    · cases stage with
      | announcing target => exact hdb.emit (sanitize_subset_keptTexts m.err)
      | _ => exact hdb
    · cases (stage.step s.db m.workloadID m.toAgentReport ok).2 <;> trivial
  | markPush p sentAt =>
    cases hr
    exact ⟨h.ite (h.setHistory h.history.markWorkloadConfigSent) ok, trivial, hnone⟩
  | recordPush p =>
    simp only [resume] at hr
    split at hr
    · next history hrecord =>
      split at hr <;> cases hr
      · exact ⟨h.setHistory (h.history.recordWorkloadConfig hrecord), trivial, hnone⟩
      · exact ⟨h, trivial, hnone⟩
    · cases hr
      exact ⟨h, trivial, hnone⟩
  | sendPush p =>
    simp only [resume] at hr
    split at hr <;> cases hr
    · exact ⟨h, sanitize_mem_keptTexts _, hnone⟩
    · exact ⟨h, trivial, hnone⟩
  | failPush p err =>
    cases hr
    refine ⟨World.Clean.emit ?_ ?_, trivial, hnone⟩
    · exact h.ite (h.setHistory h.history.updateWorkloadConfigStatus) ok
    · exact List.cons_subset.2 ⟨ht, List.nil_subset _⟩
  | loaded workloadID status =>
    cases hr
    exact ⟨h.ite (h.upsertWorkload _ ht) ok, ht, hnone⟩
  | updated workloadID status =>
    cases hr
    refine ⟨h.ite (h.emit ?_) ok, trivial, hnone⟩
    cases status with
    | none => exact List.nil_subset _
    | some r => exact messages_sanitized (messages_sanitized (ht r rfl))
  | finished => cases hr

/-- What arrives leaves only the sanitiser's texts behind. -/
theorem clean_arrive {s s' : World} {e : Event} {new : Option Thread} (h : s.Clean)
    (hr : arrive s e = some (s', new)) : s'.Clean ∧ ∀ n ∈ new, n.Clean := by
  have hnone : ∀ n ∈ (none : Option Thread), n.Clean := fun n hn => nomatch hn
  cases e with
  | report m | push p =>
    cases hr
    exact ⟨h, fun n hn => by cases hn; trivial⟩
  | canaryError err =>
    cases hr
    exact ⟨h.emit (sanitize_subset_keptTexts err), hnone⟩
  | touchWorkload workloadID load =>
    cases hr
    refine ⟨h, fun n hn => ?_⟩
    cases hn
    cases load
    · exact fun r hr => nomatch hr
    · exact h.getWorkload workloadID
  | deleteWorkload workloadID =>
    cases hr
    refine ⟨⟨fun r hr => h.history r (List.mem_of_mem_filter hr), fun w r hr => ?_, h.snapshots,
      h.outputs⟩, hnone⟩
    by_cases hw : w = workloadID
    · dsimp only at hr
      rw [hw, Function.update_self] at hr
      cases hr
    · dsimp only at hr
      rw [Function.update_of_ne hw] at hr
      exact h.statuses w r hr
  | readPush key now =>
    obtain ⟨row, -, hrow⟩ := Option.map_eq_some_iff.1 hr
    cases hrow
    exact ⟨h.emit (messages_scanWorkloadConfig ..), hnone⟩
  | readRow key =>
    obtain ⟨row, hget, hrow⟩ := Option.map_eq_some_iff.1 hr
    cases hrow
    have hmsg := (List.cons_subset.1 (h.history row (List.mem_of_find?_eq_some hget))).1
    have hstored : (storedWorkloadConfig row).messages ⊆ keptTexts := by
      refine (messages_subset_iff _).2 ⟨hmsg, empty_mem_keptTexts, ?_, ?_, ?_⟩
      all_goals exact fun _ hmem => absurd hmem List.not_mem_nil
    exact ⟨h.emit hstored, hnone⟩
  | readHistory workloadID now =>
    cases hr
    refine ⟨⟨h.history, h.statuses, h.snapshots, fun o ho => ?_⟩, hnone⟩
    rcases List.mem_append.1 ho with hold | hnew
    · exact h.outputs o hold
    · obtain ⟨row, -, rfl⟩ := List.mem_map.1 hnew
      exact messages_scanWorkloadConfig ..
  | readWorkload workloadID =>
    cases hr
    refine ⟨h.emit ?_, hnone⟩
    have hclean := h.getWorkload workloadID
    cases hstatus : s.getWorkload workloadID with
    | none => exact List.nil_subset _
    | some r => exact messages_sanitized (hclean r hstatus)
  | readInstance uid =>
    obtain ⟨r, hget, hout⟩ := Option.map_eq_some_iff.1 hr
    obtain ⟨snap, -, hsnap⟩ := Option.bind_eq_some_iff.1 hget
    cases hout
    exact ⟨h.emit (messages_sanitized (h.getElem?_snapshots snap r hsnap)), hnone⟩
  | other knownGood content =>
    cases hr
    exact ⟨⟨h.history, h.statuses, h.snapshots, h.outputs⟩, hnone⟩

theorem keeps_clean : Keeps program World.Clean (fun _ t => t.Clean) fun _ _ => True where
  symm _ _ _ := trivial
  resume s t ok s' t' new h ht hr := by
    obtain ⟨hs', ht', hnew⟩ := clean_resume h ht hr
    exact ⟨hs', ht', fun n hn => ⟨hnew n hn, trivial⟩⟩
  others s t ok s' t' new u h ht hr hu _ := ⟨hu, trivial, fun _ _ => trivial⟩
  arrive s e s' new h hr := clean_arrive h hr
  arriveOthers s e s' new u h hr hu := ⟨hu, fun _ _ => trivial⟩

end Texts

section TwoRuns

def Sending.sanitized (p : Sending) : Sending :=
  { p with err := p.err.map sanitizeRemoteConfigErrorMessage }

def Thread.sanitized : Thread → Thread
  | .received m => .received m.sanitized
  | .recordPush p => .recordPush p.sanitized
  | .sendPush p => .sendPush p.sanitized
  | t => t

def Event.sanitized : Event → Event
  | .report m => .report m.sanitized
  | .push p => .push p.sanitized
  | .canaryError err => .canaryError (sanitizeRemoteConfigErrorMessage err)
  | e => e

/-- The events differ at most in the text of an error, and the texts have one sanitised value. -/
def SameTexts (e e' : Event) : Prop := e.sanitized = e'.sanitized

theorem sanitized_sanitized (m : Incoming) : m.sanitized.sanitized = m.sanitized := by
  rw [Incoming.sanitized, Incoming.sanitized, sanitize_sanitize]

/-- What a step leaves, up to the texts that its threads have not sanitised yet. -/
def sanitizedStep (x : World × Thread × Option Thread) : World × Thread × Option Thread :=
  (x.1, x.2.1.sanitized, x.2.2.map Thread.sanitized)

/-- A thread goes on as it would with its text sanitised. -/
theorem resume_sanitized (s : World) (t : Thread) (ok : Bool) :
    (resume s t.sanitized ok).map sanitizedStep = (resume s t ok).map sanitizedStep := by
  cases t with
  | received m => simp only [Thread.sanitized, resume, sanitized_sanitized]
  | recordPush p =>
    simp only [Thread.sanitized, resume]
    dsimp only [Sending.sanitized]
    cases recordWorkloadConfig s.db.history p.push.submittedAt p.push.workloadConfig with
    | none => rfl
    | some history =>
      cases ok with
      | false => rfl
      | true => simp [sanitizedStep, Thread.sanitized, Sending.sanitized, Function.comp_def,
          sanitize_sanitize]
  | sendPush p =>
    simp only [Thread.sanitized, resume]
    dsimp only [Sending.sanitized]
    cases p.err with
    | none => rfl
    | some err =>
      dsimp only [Option.map_some]
      rw [sanitize_sanitize]
  | _ => rfl

theorem arrive_sanitized (s : World) (e : Event) :
    arrive s e.sanitized = (arrive s e).map fun x => (x.1, x.2.map Thread.sanitized) := by
  cases e with
  | canaryError err =>
    simp only [Event.sanitized, arrive, sanitize_sanitize]
    rfl
  | readPush key now | readRow key | readInstance uid =>
    simp only [Event.sanitized, arrive, Option.map_map]
    rfl
  | _ => rfl

theorem rel_of_map_eq {α β : Type} {f : α → β} {R : α → α → Prop} {x y : Option α}
    (h : x.map f = y.map f) (hR : ∀ a b, f a = f b → R a b) : Option.Rel R x y := by
  cases x with
  | none =>
    rw [Option.map_none, eq_comm, Option.map_eq_none_iff] at h
    rw [h]
    exact .none
  | some a =>
    rw [Option.map_some, eq_comm, Option.map_eq_some_iff] at h
    obtain ⟨b, rfl, hab⟩ := h
    exact .some (hR a b hab.symm)

theorem rel_threads_of_map_eq {x y : Option Thread}
    (h : x.map Thread.sanitized = y.map Thread.sanitized) :
    Option.Rel (fun t t' => t.sanitized = t'.sanitized) x y :=
  rel_of_map_eq h fun _ _ hab => hab

theorem step_sameTexts (p q : Pool World Thread) (l l' : Label Bool Event)
    (hpq : Rel Eq (fun t t' => t.sanitized = t'.sanitized) p q) (hl : LabelRel SameTexts l l') :
    Option.Rel (Rel Eq fun t t' => t.sanitized = t'.sanitized) (program.step p l)
      (program.step q l') := by
  refine Program.step_rel ?_ ?_ p q l l' hpq hl
  · rintro s _ t t' ok rfl ht
    have heq := (resume_sanitized s t ok).symm.trans
      ((congrArg (fun t => (resume s t ok).map sanitizedStep) ht).trans (resume_sanitized s t' ok))
    refine rel_of_map_eq heq fun x y hxy => ?_
    obtain ⟨hs, hthread, hnew⟩ := Prod.ext_iff.1 hxy |>.imp_right Prod.ext_iff.1
    exact ⟨hs, hthread, rel_threads_of_map_eq hnew⟩
  · rintro s _ e e' rfl he
    have heq := (arrive_sanitized s e).symm.trans
      ((congrArg (arrive s) he).trans (arrive_sanitized s e'))
    refine rel_of_map_eq heq fun x y hxy => ?_
    obtain ⟨hs, hnew⟩ := Prod.ext_iff.1 hxy
    exact ⟨hs, rel_threads_of_map_eq hnew⟩

end TwoRuns

/-- The sanitiser is idempotent; whatever texts agents and the transport send, every text in the
history, in the workload rows and in what leaves the server is one of `keptTexts`; and two runs
whose texts have the same sanitised values leave the same tables and send out the same. -/
theorem error_texts_never_leak {s₀ : World} (h₀ : s₀.Clean) :
    (∀ msg, sanitizeRemoteConfigErrorMessage (sanitizeRemoteConfigErrorMessage msg) =
      sanitizeRemoteConfigErrorMessage msg) ∧
    (∀ p, Reachable program.step ⟨s₀, []⟩ p →
      (∀ row ∈ p.shared.db.history.rows, row.messages ⊆ keptTexts) ∧
      (∀ workloadID, ∀ r ∈ p.shared.statuses workloadID, r.messages ⊆ keptTexts) ∧
      ∀ o ∈ p.shared.outputs, o.messages ⊆ keptTexts) ∧
    ∀ ls ls', List.Forall₂ (LabelRel SameTexts) ls ls' →
      Option.Rel (fun p q => p.shared = q.shared) (run program.step ⟨s₀, []⟩ ls)
        (run program.step ⟨s₀, []⟩ ls') := by
  refine ⟨sanitize_sanitize, fun p hp => ?_, fun ls ls' hls => ?_⟩
  · have hclean := (keeps_clean.reachable hp ⟨h₀, by simp, by simp⟩).shared
    exact ⟨hclean.history, hclean.statuses, hclean.outputs⟩
  · have hshared {x y : Option (Pool World Thread)}
        (h : Option.Rel (Rel Eq fun t t' => t.sanitized = t'.sanitized) x y) :
        Option.Rel (fun p q => p.shared = q.shared) x y := by
      cases h with
      | none => exact .none
      | some hpq => exact .some hpq.shared
    exact hshared (run_rel step_sameTexts ⟨rfl, .nil⟩ hls)

def quietWorld : World where
  db := threeConfigs
  statuses := fun _ => none
  snapshots := []
  registry := fun _ => none
  outputs := []

def reportWith (err : String) : Incoming :=
  { failedReport "b" 4 with err, workloadID := "w", latest := 0, readAt := 5 }

/-- A report on the push of `b` that is handled until its broadcast. -/
def reportRun (err : String) : List (Label Bool Event) :=
  .arrive (.report (reportWith err)) :: List.replicate 7 (.resume 0 true)

theorem two_send_errors_indistinguishable :
    quietWorld.Clean ∧
      Option.Rel (fun p q => p.shared = q.shared)
        (run program.step ⟨quietWorld, []⟩ (reportRun "send failed: token=abc"))
        (run program.step ⟨quietWorld, []⟩ (reportRun "could not send to 10.0.0.7")) := by
  have hclean : quietWorld.Clean := by
    refine ⟨?_, (fun _ _ h => nomatch h), (fun _ h => nomatch h), (fun _ h => nomatch h)⟩
    have hrows : ∀ r ∈ threeConfigs.history.rows, ∀ m ∈ r.messages, m ∈ keptTexts := by decide
    exact fun r hr m hm => hrows r hr m hm
  have hsame : (reportWith "send failed: token=abc").sanitized =
      (reportWith "could not send to 10.0.0.7").sanitized := by decide +kernel
  have hls : List.Forall₂ (LabelRel SameTexts) (reportRun "send failed: token=abc")
      (reportRun "could not send to 10.0.0.7") := by
    have hreport : SameTexts (.report (reportWith "send failed: token=abc"))
        (.report (reportWith "could not send to 10.0.0.7")) := by
      rw [SameTexts, Event.sanitized, Event.sanitized, hsame]
    refine .cons (.arrive hreport) (List.forall₂_same.2 fun l hl => ?_)
    rw [List.eq_of_mem_replicate hl]
    exact .resume 0 true
  exact ⟨hclean, (error_texts_never_leak hclean).2.2 _ _ hls⟩

end OtelMagnify.ErrorFlow
