import OtelMagnify.Lib.Pool
import OtelMagnify.Lib.Sha256
import OtelMagnify.Rollback.Attempt

/-! The hash by which a config is known. A row of `configs` is created by the API, by an import, by
an approval, by a canary or from what an agent reports, each of which computes its id; a push sends
a body with a hash of its own and records a row of the history under an id that it has computed or
read. The writers and the pushes interleave at every statement. `hash` is the SHA-256 of a content
in lower-case hex. -/
namespace OtelMagnify.HashCoherence
open Push Rollback Pool StepSystem

structure ConfigRow where
  id : String
  content : String
  deriving DecidableEq, Repr

/-- The rows are never updated or deleted. -/
abbrev Configs := KeyedTable ConfigRow.id

/-- An OpAMP message with a remote config, by the number and the kind of the push that it belongs
to. `configHash` is its `ConfigHash` in hex. -/
structure RemoteConfig where
  push : ℕ
  kind : PushKind
  workloadID : String
  body : String
  configHash : String
  deriving DecidableEq, Repr

/-- The row that `RecordWorkloadConfig` has inserted for a push. -/
structure RecordedPush where
  push : ℕ
  row : WorkloadConfigRow
  deriving DecidableEq, Repr

/-- The tables, the number of pushes that have begun, what they have sent and recorded. -/
structure World where
  configs : Configs
  history : WorkloadConfigs
  knownGood : String → Option String
  pushes : ℕ
  sent : List RemoteConfig
  recorded : List RecordedPush

namespace World

/-- The tables as a join of the history with `configs` reads them. -/
def tables (s : World) : Tables where
  history := s.history
  knownGood := s.knownGood
  content := fun id => ((s.configs.get? id).map ConfigRow.content).getD ""

def createConfig (s : World) (row : ConfigRow) : Option World :=
  (s.configs.insert row).map fun configs => { s with configs }

/-- `RecordWorkloadConfig` for the push `n`; `none` when the primary key is taken or
`config_id REFERENCES configs(id)` is violated. -/
def recordWorkloadConfig (s : World) (n : ℕ) (p : ConfigPush) : Option World :=
  if (s.configs.get? p.configID).isSome then
    (Push.recordWorkloadConfig s.history p.submittedAt p.workloadConfig).map fun history =>
      { s with history, recorded := s.recorded ++ [{ push := n, row := p.recordedRow }] }
  else none

/-- `PushConfig` for the push `n`: what it sends to the instances that it reaches. -/
def pushConfig (hash : String → String) (s : World) (n : ℕ) (kind : PushKind)
    (workloadID yamlContent : String) : World :=
  { s with
    sent := s.sent ++
      [{ push := n, kind, workloadID, body := yamlContent, configHash := hash yamlContent }] }

end World

/-- A push of an operator once its body is known. `err` is the error of `PushConfig`. -/
structure OperatorPush where
  push : ConfigPush
  body : String
  err : Option String
  sentAt : Time

/-- A rollback of an operator, with what the environment decides while it is handled: the hash that
it excludes, the verdict of the gates and of the validation on a content, the clocks, the tie among
equally new rows, the live instances and the error of `PushConfig`. -/
structure Job where
  workloadID : String
  pushedBy : String
  excludeHash : String
  valid : String → Bool
  tie : ℕ
  scannedAt : Time
  now : Time
  instances : List PushTarget
  err : Option String
  sentAt : Time

/-- The row that a rollback records. -/
def Job.push (j : Job) (configID : String) : ConfigPush where
  workloadID := j.workloadID
  configID := configID
  kind := .operator j.pushedBy
  submittedAt := j.now
  targets := j.instances

/-- The statement that a thread runs next; `n` is the number of its push. -/
inductive Thread where
  | create (content : String)
  | lookupReported (content : String)
  | createApproval (n : ℕ) (o : OperatorPush)
  | record (n : ℕ) (o : OperatorPush)
  | send (n : ℕ) (o : OperatorPush)
  | fail (o : OperatorPush) (err : String)
  | mark (o : OperatorPush)
  | lookup (n : ℕ) (j : Job) (q : TargetQuery)
  | byHash (n : ℕ) (j : Job) (hash : String)
  | rollback (n : ℕ) (workloadID : String) (e : AgentReport) (stage : RollbackStage)
  | finished

def Thread.push? : Thread → Option ℕ
  | .createApproval n _ | .record n _ | .send n _ | .lookup n _ _ | .byHash n _ _
  | .rollback n _ _ _ => some n
  | .create _ | .lookupReported _ | .fail _ _ | .mark _ | .finished => none

/-- The end of a manual rollback once the config is read: without a content, or with one that is
not valid, it is refused. -/
def Thread.manual (n : ℕ) (j : Job) (configID content : String) : Thread :=
  if content = "" || !j.valid content then .finished
  else .record n { push := j.push configID, body := content, err := j.err, sentAt := j.sentAt }

/-- What a statement of an automatic rollback sends and records. The content of its target is
stored, so that the row which it inserts violates no foreign key. -/
def World.attempt (hash : String → String) (s : World) (n : ℕ) (workloadID : String)
    (e : AgentReport) (ok : Bool) (stage : RollbackStage) : World :=
  match stage with
  | .pushing target => s.pushConfig hash n (.autoRollback e.hash) workloadID target.content
  | .recording target =>
    if ok && stage.inserts s.tables workloadID e then
      let p := rollbackPush workloadID e.hash target e.now e.instances
      { s with recorded := s.recorded ++ [{ push := n, row := p.recordedRow }] }
    else s
  | _ => s

variable (hash : String → String)

/-- One statement. `ok` says that it succeeds; where the source ignores or logs an error the thread
goes on. -/
def resume (s : World) (t : Thread) (ok : Bool) : Option (World × Thread × Option Thread) :=
  match t with
  | .create content =>
    some (if ok then (s.createConfig ⟨hash content, content⟩).getD s else s, .finished, none)
  | .lookupReported content =>
    some (s, if ok && (s.configs.get? (hash content)).isSome then .finished else .create content,
      none)
  | .createApproval n o =>
    some (if ok then (s.createConfig ⟨hash o.body, o.body⟩).getD s else s, .record n o, none)
  | .record n o =>
    match s.recordWorkloadConfig n o.push with
    | some s' => if ok then some (s', .send n o, none) else some (s, .finished, none)
    | none => some (s, .finished, none)
  | .send n o =>
    some (s.pushConfig hash n o.push.kind o.push.workloadID o.body,
      match o.err with
      | some err => .fail o err
      | none => .mark o, none)
  | .fail o err =>
    some (if ok then
        { s with
          history := updateWorkloadConfigStatus s.history o.push.workloadID o.push.configID .failed
            (sanitizeRemoteConfigErrorMessage err) }
      else s, .finished, none)
  | .mark o =>
    some (if ok then
        { s with
          history := markWorkloadConfigSent s.history o.push.workloadID o.push.configID o.sentAt }
      else s, .finished, none)
  | .lookup n j q =>
    if !ok then some (s, .finished, none)
    else match q.run s.tables j.tie j.workloadID j.excludeHash with
      | .inl q => some (s, .lookup n j q, none)
      | .inr none => some (s, .finished, none)
      | .inr (some target) => some (s, .manual n j target.configID target.content, none)
  | .byHash n j configHash =>
    if !ok then some (s, .finished, none)
    else match latestByHash s.history j.workloadID configHash with
      | none => some (s, .finished, none)
      | some row =>
        let wc := scanWorkloadConfig (s.tables.content row.configID) j.scannedAt row
        if wc.status = .applied then some (s, .manual n j configHash wc.content, none)
        else some (s, .finished, none)
  | .rollback n workloadID e stage =>
    let after := stage.step s.tables workloadID e ok
    some ({ s.attempt hash n workloadID e ok stage with history := after.1.history },
      after.2.elim .finished (.rollback n workloadID e), none)
  | .finished => none

inductive Event where
  /-- `handleCreateConfig`, `handleImportConfigFromGit` and `handleStartCanary` create a config. -/
  | create (content : String)
  /-- `persistEffectiveConfig` -/
  | reported (content : String)
  /-- `persistAndPushApprovalConfig` -/
  | approval (workloadID body pushedBy : String) (submittedAt : Time) (targets : List PushTarget)
    (err : Option String) (sentAt : Time)
  /-- `handleRollbackWorkloadDefault` -/
  | rollbackDefault (j : Job)
  /-- `attemptAutoRollback` on a report. -/
  | autoRollback (workloadID : String) (e : AgentReport)
  /-- `handleRollbackWorkloadConfig` -/
  | rollbackToHash (j : Job) (configHash : String)
  /-- Any other write of the history and of the known-good pointers: the statuses of reports,
  labels, a workload that is deleted. -/
  | other (history : WorkloadConfigs) (knownGood : String → Option String)

/-- The number that a push gets is one that no other has. -/
def arrive (s : World) : Event → Option (World × Option Thread)
  | .create content => some (s, some (.create content))
  | .reported content => some (s, some (.lookupReported content))
  | .approval workloadID body pushedBy submittedAt targets err sentAt =>
    some ({ s with pushes := s.pushes + 1 }, some (.createApproval s.pushes
      { push := { workloadID, configID := hash body, kind := .operator pushedBy, submittedAt
                  targets }
        body, err, sentAt }))
  | .rollbackDefault j =>
    some ({ s with pushes := s.pushes + 1 }, some (.lookup s.pushes j .knownGood))
  | .autoRollback workloadID e =>
    some ({ s with pushes := s.pushes + 1 },
      some (.rollback s.pushes workloadID e (.lookup .knownGood)))
  | .rollbackToHash j configHash =>
    some ({ s with pushes := s.pushes + 1 }, some (.byHash s.pushes j configHash))
  | .other history knownGood => some ({ s with history, knownGood }, none)

def program : Program World Thread Bool Event where
  resume := resume hash
  arrive := arrive hash

def start : Pool World Thread where
  shared :=
    { configs := .empty, history := .empty, knownGood := fun _ => none, pushes := 0, sent := []
      recorded := [] }
  threads := []

def World.Stores (s : World) (id : String) : Prop := ∃ row ∈ s.configs.rows, row.id = id

/-- Every config has the hash of its content as its id; every message carries the hash of its body,
which is stored and is the one in the history row of the same push; an operator's push is recorded
before it is sent. -/
structure Coherent (s : World) : Prop where
  configs : ∀ row ∈ s.configs.rows, row.id = hash row.content
  configHash : ∀ m ∈ s.sent, m.configHash = hash m.body
  stored : ∀ m ∈ s.sent, s.Stores m.configHash
  agree : ∀ m ∈ s.sent, ∀ r ∈ s.recorded, r.push = m.push →
    r.row.configID = m.configHash ∧ r.row.workloadID = m.workloadID
  recorded : ∀ m ∈ s.sent, ∀ pushedBy, m.kind = .operator pushedBy →
    ∃ r ∈ s.recorded, r.push = m.push
  sent_lt : ∀ m ∈ s.sent, m.push < s.pushes
  recorded_lt : ∀ r ∈ s.recorded, r.push < s.pushes

def World.Unsent (s : World) (n : ℕ) : Prop := ∀ m ∈ s.sent, m.push ≠ n

def World.Unrecorded (s : World) (n : ℕ) : Prop := ∀ r ∈ s.recorded, r.push ≠ n

def Stage (s : World) : Thread → Prop
  | .createApproval n o | .record n o =>
    (s.Unsent n ∧ s.Unrecorded n) ∧ o.push.configID = hash o.body
  | .send n o =>
    s.Unsent n ∧ s.Stores (hash o.body) ∧ (∃ r ∈ s.recorded, r.push = n) ∧
      ∀ r ∈ s.recorded, r.push = n →
        r.row.configID = hash o.body ∧ r.row.workloadID = o.push.workloadID
  | .lookup n _ _ | .byHash n _ _ | .rollback n _ _ (.lookup _) => s.Unsent n ∧ s.Unrecorded n
  | .rollback n _ _ (.pushing target) =>
    (s.Unsent n ∧ s.Unrecorded n) ∧ s.Stores target.configID ∧
      target.configID = hash target.content
  | .rollback n workloadID _ (.recording target) =>
    s.Unrecorded n ∧ ∀ m ∈ s.sent, m.push = n →
      m.configHash = target.configID ∧ m.workloadID = workloadID
  | .create _ | .lookupReported _ | .fail _ _ | .mark _ | .rollback _ _ _ (.marking _)
  | .rollback _ _ _ (.announcing _) | .finished => True

/-- The configs and the records grow, and whatever is sent or recorded anew belongs to the push
`n?`. -/
structure Touches (n? : Option ℕ) (s s' : World) : Prop where
  pushes : s.pushes ≤ s'.pushes
  configs : ∀ row ∈ s.configs.rows, row ∈ s'.configs.rows
  sent : ∀ m ∈ s'.sent, m ∈ s.sent ∨ n? = some m.push
  recorded : ∀ r ∈ s'.recorded, r ∈ s.recorded ∨ n? = some r.push
  keeps : ∀ r ∈ s.recorded, r ∈ s'.recorded

variable {hash} {s s' : World} {n : ℕ} {n? : Option ℕ}

theorem Touches.refl (s : World) : Touches n? s s where
  pushes := le_rfl
  configs _ hrow := hrow
  sent _ hm := .inl hm
  recorded _ hr := .inl hr
  keeps _ hr := hr

namespace Touches

variable (h : Touches n? s s') (hn : n? ≠ some n)
include h

theorem stores {id : String} (hid : s.Stores id) : s'.Stores id := by
  obtain ⟨row, hrow, rfl⟩ := hid
  exact ⟨row, h.configs row hrow, rfl⟩

include hn

theorem mem_sent {m : RemoteConfig} (hm : m ∈ s'.sent) (hp : m.push = n) : m ∈ s.sent := by
  rcases h.sent m hm with hold | hnew
  · exact hold
  · exact absurd (hp ▸ hnew) hn

theorem mem_recorded {r : RecordedPush} (hr : r ∈ s'.recorded) (hp : r.push = n) :
    r ∈ s.recorded := by
  rcases h.recorded r hr with hold | hnew
  · exact hold
  · exact absurd (hp ▸ hnew) hn

theorem unsent (hs : s.Unsent n) : s'.Unsent n :=
  fun m hm hp => hs m (h.mem_sent hn hm hp) hp

theorem unrecorded (hs : s.Unrecorded n) : s'.Unrecorded n :=
  fun r hr hp => hs r (h.mem_recorded hn hr hp) hp

theorem fresh (hs : s.Unsent n ∧ s.Unrecorded n) : s'.Unsent n ∧ s'.Unrecorded n :=
  ⟨h.unsent hn hs.1, h.unrecorded hn hs.2⟩

end Touches

/-- A thread is not disturbed by what happens to other pushes. -/
theorem Stage.of_touches {t : Thread} (ht : Stage hash s t) (h : Touches n? s s')
    (hn : ∀ n, t.push? = some n → n? ≠ some n) : Stage hash s' t := by
  cases t with
  | createApproval n o | record n o => exact ⟨h.fresh (hn n rfl) ht.1, ht.2⟩
  | send n o =>
    obtain ⟨hunsent, hstores, ⟨r, hr, hp⟩, hall⟩ := ht
    refine ⟨h.unsent (hn n rfl) hunsent, h.stores hstores, ⟨r, h.keeps r hr, hp⟩, ?_⟩
    intro r hr hp
    exact hall r (h.mem_recorded (hn n rfl) hr hp) hp
  | lookup n j q | byHash n j configHash => exact h.fresh (hn n rfl) ht
  | rollback n workloadID e stage =>
    cases stage with
    | lookup q => exact h.fresh (hn n rfl) ht
    | pushing target =>
      obtain ⟨hfresh, hstores, hid⟩ := ht
      exact ⟨h.fresh (hn n rfl) hfresh, h.stores hstores, hid⟩
    | recording target =>
      refine ⟨h.unrecorded (hn n rfl) ht.1, ?_⟩
      intro m hm hp
      exact ht.2 m (h.mem_sent (hn n rfl) hm hp) hp
    | marking target => trivial
    | announcing target => trivial
  | create content => trivial
  | lookupReported content => trivial
  | fail o err => trivial
  | mark o => trivial
  | finished => trivial

/-! What each operation does to the state. -/

theorem createConfig_spec (hs : Coherent hash s) (content : String) (ok : Bool) :
    Coherent hash (if ok then (s.createConfig ⟨hash content, content⟩).getD s else s) ∧
      ∀ n?, Touches n? s (if ok then (s.createConfig ⟨hash content, content⟩).getD s else s) := by
  cases ok with
  | false => exact ⟨hs, fun _ => .refl s⟩
  | true =>
    simp only [World.createConfig, if_true]
    cases hins : s.configs.insert ⟨hash content, content⟩ with
    | none => exact ⟨hs, fun _ => .refl s⟩
    | some configs =>
      have hrows := KeyedTable.insert_rows hins
      have hkeep : ∀ row ∈ s.configs.rows, row ∈ configs.rows := by
        intro row hrow
        rw [hrows]
        exact List.mem_append_left _ hrow
      refine ⟨{ hs with configs := ?_, stored := ?_ },
        fun _ => { Touches.refl s with configs := hkeep }⟩
      · intro row hrow
        rw [Option.map_some, Option.getD_some, hrows, List.mem_append, List.mem_singleton] at hrow
        rcases hrow with hrow | rfl
        · exact hs.configs row hrow
        · rfl
      · intro m hm
        obtain ⟨row, hrow, hid⟩ := hs.stored m hm
        exact ⟨row, hkeep row hrow, hid⟩

theorem recordWorkloadConfig_eq_some {p : ConfigPush} (h : s.recordWorkloadConfig n p = some s') :
    s.Stores p.configID ∧ ∃ history,
      s' = { s with history, recorded := s.recorded ++ [{ push := n, row := p.recordedRow }] } := by
  unfold World.recordWorkloadConfig at h
  split at h
  · rename_i hsome
    obtain ⟨row, hrow⟩ := Option.isSome_iff_exists.mp hsome
    obtain ⟨hmem, hid⟩ := KeyedTable.get?_eq_some_iff.mp hrow
    obtain ⟨history, -, rfl⟩ := Option.map_eq_some_iff.mp h
    exact ⟨⟨row, hmem, hid⟩, history, rfl⟩
  · cases h

/-- A row is recorded for a push whose messages carry its hash. -/
theorem record_spec {p : ConfigPush} (history : WorkloadConfigs) (hs : Coherent hash s)
    (hlt : n < s.pushes) (hsent : ∀ m ∈ s.sent, m.push = n →
      m.configHash = p.configID ∧ m.workloadID = p.workloadID) :
    let s' := { s with history, recorded := s.recorded ++ [{ push := n, row := p.recordedRow }] }
    Coherent hash s' ∧ Touches (some n) s s' := by
  have hkeep : ∀ r ∈ s.recorded, r ∈ s.recorded ++ [{ push := n, row := p.recordedRow }] :=
    fun r hr => List.mem_append_left _ hr
  refine ⟨{ hs with agree := ?_, recorded := ?_, recorded_lt := ?_ },
    { Touches.refl s with recorded := ?_, keeps := hkeep }⟩
  · intro m hm r hr hp
    rcases List.mem_append.mp hr with hr | hr
    · exact hs.agree m hm r hr hp
    · cases List.mem_singleton.mp hr
      obtain ⟨hid, hworkload⟩ := hsent m hm hp.symm
      exact ⟨hid.symm, hworkload.symm⟩
  · intro m hm pushedBy hkind
    obtain ⟨r, hr, hp⟩ := hs.recorded m hm pushedBy hkind
    exact ⟨r, hkeep r hr, hp⟩
  · intro r hr
    rcases List.mem_append.mp hr with hr | hr
    · exact hs.recorded_lt r hr
    · cases List.mem_singleton.mp hr
      exact hlt
  · intro r hr
    rcases List.mem_append.mp hr with hr | hr
    · exact .inl hr
    · cases List.mem_singleton.mp hr
      exact .inr rfl

theorem pushConfig_spec (kind : PushKind) (workloadID : String) {body : String}
    (hs : Coherent hash s) (hlt : n < s.pushes) (hstores : s.Stores (hash body))
    (hagree : ∀ r ∈ s.recorded, r.push = n →
      r.row.configID = hash body ∧ r.row.workloadID = workloadID)
    (hrecorded : ∀ pushedBy, kind = .operator pushedBy → ∃ r ∈ s.recorded, r.push = n) :
    Coherent hash (s.pushConfig hash n kind workloadID body) ∧
      Touches (some n) s (s.pushConfig hash n kind workloadID body) := by
  -- every clause about the messages is that of the state before, or is about the new one
  have hmem : ∀ {P : RemoteConfig → Prop}, (∀ m ∈ s.sent, P m) →
      P ⟨n, kind, workloadID, body, hash body⟩ →
      ∀ m ∈ (s.pushConfig hash n kind workloadID body).sent, P m := by
    intro P hold hnew m hm
    rcases List.mem_append.mp hm with hm | hm
    · exact hold m hm
    · exact List.mem_singleton.mp hm ▸ hnew
  refine ⟨⟨hs.configs, hmem hs.configHash rfl, hmem hs.stored hstores, hmem hs.agree hagree,
    hmem hs.recorded hrecorded, hmem hs.sent_lt hlt, hs.recorded_lt⟩, ?_⟩
  exact { Touches.refl s with sent := hmem (fun m hm => .inl hm) (.inr rfl) }

theorem Coherent.content (hs : Coherent hash s) {id : String} (h : s.tables.content id ≠ "") :
    s.Stores id ∧ id = hash (s.tables.content id) := by
  have htables : s.tables.content id = ((s.configs.get? id).map ConfigRow.content).getD "" := rfl
  cases hrow : s.configs.get? id with
  | none => exact absurd (by rw [htables, hrow]; rfl) h
  | some row =>
    obtain ⟨hmem, rfl⟩ := KeyedTable.get?_eq_some_iff.mp hrow
    rw [htables, hrow]
    exact ⟨⟨row, hmem, rfl⟩, hs.configs row hmem⟩

/-! What a step of a thread does: it keeps the state coherent, touches only the push of the thread
and leaves the thread with what it relies on. -/

structure Moved (hash : String → String) (n? : Option ℕ) (s s' : World) (t' : Thread) : Prop where
  coherent : Coherent hash s'
  touches : Touches n? s s'
  stage : Stage hash s' t'
  push? : ∀ n, t'.push? = some n → n? = some n

theorem Moved.read {t' : Thread} (hs : Coherent hash s) (hstage : Stage hash s t')
    (hpush : ∀ n, t'.push? = some n → n? = some n) : Moved hash n? s s t' :=
  ⟨hs, .refl s, hstage, hpush⟩

theorem Moved.finished (hs : Coherent hash s) : Moved hash n? s s .finished :=
  .read hs trivial (by rintro _ ⟨⟩)

theorem Moved.status (hs : Coherent hash s) (history : WorkloadConfigs) (ok : Bool) :
    Moved hash n? s (if ok then { s with history } else s) .finished := by
  cases ok with
  | false => exact .finished hs
  | true => exact ⟨{ hs with }, { Touches.refl s with }, trivial, by rintro _ ⟨⟩⟩

theorem Moved.manual (hs : Coherent hash s) (hfresh : s.Unsent n ∧ s.Unrecorded n) (j : Job)
    (configID : String) :
    Moved hash (some n) s s (.manual n j configID (s.tables.content configID)) := by
  unfold Thread.manual
  split
  · exact .finished hs
  · rename_i hgates
    have hcontent : s.tables.content configID ≠ "" := by
      rintro hempty
      exact hgates (by simp [hempty])
    exact .read hs ⟨hfresh, (hs.content hcontent).2⟩ fun m hm => hm

/-- What a step of an automatic rollback does. -/
theorem attempt_spec {workloadID : String} {e : AgentReport} {stage : RollbackStage} {ok : Bool}
    (hs : Coherent hash s) (ht : Stage hash s (.rollback n workloadID e stage))
    (hlt : n < s.pushes) :
    let after := stage.step s.tables workloadID e ok
    Moved hash (some n) s
      { s.attempt hash n workloadID e ok stage with history := after.1.history }
      (after.2.elim .finished (.rollback n workloadID e)) := by
  cases stage with
  | lookup q =>
    obtain ⟨next, hstep, hnext⟩ := RollbackStage.step_lookup s.tables workloadID e ok q
    rw [hstep]
    cases next with
    | none => exact .finished hs
    | some stage =>
      refine .read hs ?_ fun _ hm => hm
      rcases hnext stage rfl with ⟨q, rfl⟩ | ⟨target, rfl, hpushable, hcontent⟩
      · exact ht
      · have hne : s.tables.content target.configID ≠ "" := by
          rw [← hcontent]
          exact of_decide_eq_true (Bool.and_eq_true_iff.mp hpushable).2
        obtain ⟨hstores, hid⟩ := hs.content hne
        exact ⟨ht, hstores, hcontent ▸ hid⟩
  | pushing target =>
    obtain ⟨⟨hunsent, hunrecorded⟩, hstores, hid⟩ := ht
    obtain ⟨hs', htouches⟩ := pushConfig_spec (.autoRollback e.hash) workloadID hs hlt
      (hid ▸ hstores) (fun r hr hp => absurd hp (hunrecorded r hr)) (by rintro _ ⟨⟩)
    refine ⟨hs', htouches, ?_, ?_⟩
    · cases hok : e.pushOK <;> simp only [RollbackStage.step, hok]
      · trivial
      · refine ⟨hunrecorded, ?_⟩
        intro m hm hp
        rcases List.mem_append.mp hm with hm | hm
        · exact absurd hp (hunsent m hm)
        · cases List.mem_singleton.mp hm
          exact ⟨hid.symm, rfl⟩
    · cases hok : e.pushOK <;> simp [RollbackStage.step, hok, Thread.push?]
  | recording target =>
    have hstage {s : World} : Stage hash s (.rollback n workloadID e (.marking target)) := trivial
    simp only [World.attempt]
    split
    · obtain ⟨hs', htouches⟩ := record_spec
        (p := rollbackPush workloadID e.hash target e.now e.instances) _ hs hlt ht.2
      exact ⟨hs', htouches, hstage, fun _ hm => hm⟩
    · exact ⟨{ hs with }, { Touches.refl s with }, hstage, fun _ hm => hm⟩
  | marking target => exact ⟨{ hs with }, { Touches.refl s with }, trivial, fun _ hm => hm⟩
  | announcing target => exact ⟨{ hs with }, { Touches.refl s with }, trivial, by rintro _ ⟨⟩⟩

/-- A step of a thread, by the statement that it runs. -/
theorem resume_spec {t t' : Thread} {ok : Bool} {new : Option Thread} (hs : Coherent hash s)
    (ht : Stage hash s t) (hlt : ∀ n, t.push? = some n → n < s.pushes)
    (h : resume hash s t ok = some (s', t', new)) : new = none ∧ Moved hash t.push? s s' t' := by
  cases t with
  | create content =>
    cases h
    obtain ⟨hs', htouches⟩ := createConfig_spec hs content ok
    exact ⟨rfl, hs', htouches _, trivial, by rintro _ ⟨⟩⟩
  | lookupReported content =>
    cases h
    refine ⟨rfl, .read hs ?_ ?_⟩
    · split <;> trivial
    · split <;> rintro _ ⟨⟩
  | createApproval n o =>
    cases h
    obtain ⟨hs', htouches⟩ := createConfig_spec hs o.body ok
    have hfresh := (htouches none).fresh (by rintro ⟨⟩) ht.1
    exact ⟨rfl, hs', htouches _, ⟨hfresh, ht.2⟩, fun _ hm => hm⟩
  | record n o =>
    obtain ⟨⟨hunsent, hunrecorded⟩, hid⟩ := ht
    simp only [resume] at h
    split at h
    · rename_i s₁ hrecord
      cases ok with
      | false =>
        cases h
        exact ⟨rfl, .finished hs⟩
      | true =>
        cases h
        obtain ⟨hstores, history, rfl⟩ := recordWorkloadConfig_eq_some hrecord
        obtain ⟨hs', htouches⟩ := record_spec history hs (hlt n rfl)
          fun m hm hp => absurd hp (hunsent m hm)
        refine ⟨rfl, hs', htouches, ⟨hunsent, hid ▸ hstores, ?_, ?_⟩, fun _ hm => hm⟩
        · exact ⟨_, List.mem_append_right _ (List.mem_singleton.mpr rfl), rfl⟩
        · intro r hr hp
          rcases List.mem_append.mp hr with hr | hr
          · exact absurd hp (hunrecorded r hr)
          · cases List.mem_singleton.mp hr
            exact ⟨hid, rfl⟩
    · cases h
      exact ⟨rfl, .finished hs⟩
  | send n o =>
    cases h
    obtain ⟨-, hstores, hrecorded, hagree⟩ := ht
    obtain ⟨hs', htouches⟩ := pushConfig_spec o.push.kind _ hs (hlt n rfl) hstores hagree
      fun _ _ => hrecorded
    refine ⟨rfl, hs', htouches, ?_, ?_⟩
    · split <;> trivial
    · split <;> rintro _ ⟨⟩
  | fail o err | mark o =>
    cases h
    exact ⟨rfl, .status hs _ ok⟩
  | lookup n j q =>
    simp only [resume] at h
    split at h
    · cases h
      exact ⟨rfl, .finished hs⟩
    · split at h <;> cases h
      · exact ⟨rfl, .read hs ht fun _ hm => hm⟩
      · exact ⟨rfl, .finished hs⟩
      · next target hrun =>
        rw [TargetQuery.content_of_run hrun]
        exact ⟨rfl, .manual hs ht j target.configID⟩
  | byHash n j configHash =>
    simp only [resume] at h
    split at h
    · cases h
      exact ⟨rfl, .finished hs⟩
    · split at h
      · cases h
        exact ⟨rfl, .finished hs⟩
      · rename_i wc hwc
        rw [(latestByHash_isPushOf hwc).2] at h
        split at h <;> cases h
        · exact ⟨rfl, .manual hs ht j configHash⟩
        · exact ⟨rfl, .finished hs⟩
  | rollback n workloadID e stage =>
    cases h
    exact ⟨rfl, attempt_spec hs ht (hlt n rfl)⟩
  | finished => cases h

def Apart (t u : Thread) : Prop := ∀ n, t.push? = some n → u.push? ≠ some n

/-- A thread has what it relies on, and its push is one that has begun. -/
def Ready (hash : String → String) (s : World) (t : Thread) : Prop :=
  Stage hash s t ∧ ∀ n, t.push? = some n → n < s.pushes

theorem Ready.of_touches {t : Thread} (ht : Ready hash s t) (h : Touches n? s s')
    (hn : ∀ n, t.push? = some n → n? ≠ some n) : Ready hash s' t :=
  ⟨ht.1.of_touches h hn, fun n hp => (ht.2 n hp).trans_le h.pushes⟩

theorem Coherent.fresh (hs : Coherent hash s) :
    s.Unsent s.pushes ∧ s.Unrecorded s.pushes :=
  ⟨fun m hm => (hs.sent_lt m hm).ne, fun r hr => (hs.recorded_lt r hr).ne⟩

theorem Coherent.begin (hs : Coherent hash s) :
    Coherent hash { s with pushes := s.pushes + 1 } :=
  { hs with
    sent_lt := fun m hm => (hs.sent_lt m hm).trans (Nat.lt_succ_self _)
    recorded_lt := fun r hr => (hs.recorded_lt r hr).trans (Nat.lt_succ_self _) }

/-- An arrival sends and records nothing; a push that begins has a number of its own. -/
theorem arrive_spec {e : Event} {new : Option Thread} (hs : Coherent hash s)
    (h : arrive hash s e = some (s', new)) :
    Coherent hash s' ∧ Touches none s s' ∧
      ∀ t ∈ new, Ready hash s' t ∧ ∀ n, t.push? = some n → n = s.pushes := by
  have hbegin : Touches none s { s with pushes := s.pushes + 1 } :=
    { Touches.refl s with pushes := Nat.le_succ _ }
  have hpush : ∀ n, some s.pushes = some n → n < s.pushes + 1 := by
    rintro _ ⟨⟩
    exact Nat.lt_succ_self _
  have hself : ∀ n, some s.pushes = some n → n = s.pushes := by
    rintro _ ⟨⟩
    rfl
  cases e with
  | create content | reported content =>
    cases h
    refine ⟨hs, .refl s, ?_⟩
    rintro _ ⟨⟩
    exact ⟨⟨trivial, by rintro _ ⟨⟩⟩, by rintro _ ⟨⟩⟩
  | approval workloadID body pushedBy submittedAt targets err sentAt =>
    cases h
    refine ⟨hs.begin, hbegin, ?_⟩
    rintro _ ⟨⟩
    exact ⟨⟨⟨hs.fresh, rfl⟩, hpush⟩, hself⟩
  | rollbackDefault j | autoRollback workloadID e | rollbackToHash j configHash =>
    cases h
    refine ⟨hs.begin, hbegin, ?_⟩
    rintro _ ⟨⟩
    exact ⟨⟨hs.fresh, hpush⟩, hself⟩
  | other history knownGood =>
    cases h
    refine ⟨{ hs with }, { Touches.refl s with }, ?_⟩
    rintro _ ⟨⟩

theorem keeps (hash : String → String) :
    Keeps (program hash) (Coherent hash) (Ready hash) Apart where
  symm t u h n hu ht := h n ht hu
  resume s t ok s' t' new hs ht h := by
    obtain ⟨rfl, hmoved⟩ := resume_spec hs ht.1 ht.2 h
    refine ⟨hmoved.coherent, ⟨hmoved.stage, ?_⟩, by rintro _ ⟨⟩⟩
    intro n hn
    exact (ht.2 n (hmoved.push? n hn)).trans_le hmoved.touches.pushes
  others s t ok s' t' new u hs ht h hu happ := by
    obtain ⟨rfl, hmoved⟩ := resume_spec hs ht.1 ht.2 h
    refine ⟨hu.of_touches hmoved.touches fun n hn ht => happ n ht hn, ?_, by rintro _ ⟨⟩⟩
    intro n hn
    exact happ n (hmoved.push? n hn)
  arrive s e s' new hs h := by
    obtain ⟨hs', -, hnew⟩ := arrive_spec hs h
    exact ⟨hs', fun t ht => (hnew t ht).1⟩
  arriveOthers s e s' new u hs h hu := by
    obtain ⟨-, htouches, hnew⟩ := arrive_spec hs h
    refine ⟨hu.of_touches htouches (by rintro _ _ ⟨⟩), ?_⟩
    intro t ht n hn hun
    exact absurd ((hnew t ht).2 n hn) (hu.2 n hun).ne

theorem coherent_start (hash : String → String) :
    Holds (Coherent hash) (Ready hash) Apart start where
  shared := by constructor <;> rintro _ ⟨⟩
  thread := by rintro _ ⟨⟩
  apart := .nil

theorem coherent_of_reachable {p : Pool World Thread}
    (h : Reachable (program hash).step start p) : Coherent hash p.shared :=
  ((keeps hash).reachable h (coherent_start hash)).shared

/-- The contents that are stored and the bodies that are sent. -/
def World.contents (s : World) : Set String :=
  {content | content ∈ s.configs.rows.map ConfigRow.content ∨
    content ∈ s.sent.map RemoteConfig.body}

/-- Where no two contents collide, the hash of a message is the id of a config with the body of the
message. -/
theorem Coherent.get?_configHash (hs : Coherent hash s) (hinj : Set.InjOn hash s.contents)
    {m : RemoteConfig} (hm : m ∈ s.sent) :
    s.configs.get? m.configHash = some ⟨m.configHash, m.body⟩ := by
  obtain ⟨row, hrow, hid⟩ := hs.stored m hm
  have hhash : hash row.content = hash m.body := by
    rw [← hs.configs row hrow, hid, hs.configHash m hm]
  have hcontent : row.content = m.body :=
    hinj (.inl (List.mem_map_of_mem hrow)) (.inr (List.mem_map_of_mem hm)) hhash
  rw [KeyedTable.get?_eq_some_iff, ← hid, ← hcontent]
  exact ⟨hrow, rfl⟩

/-- In every state that the server reaches, every config has the SHA-256 of its content as its id;
a message carries the `config_id` that is recorded for its push, an operator's push is recorded
when it is sent, and where SHA-256 does not collide the hash of a message leads to its body. -/
theorem hashes_coherent {p : Pool World Thread}
    (h : Reachable (program Sha256.hexSum256).step start p) :
    (∀ row ∈ p.shared.configs.rows, row.id = Sha256.hexSum256 row.content) ∧
    (∀ m ∈ p.shared.sent, m.configHash = Sha256.hexSum256 m.body ∧
      ((∃ pushedBy, m.kind = .operator pushedBy) → ∃ r ∈ p.shared.recorded, r.push = m.push) ∧
      ∀ r ∈ p.shared.recorded, r.push = m.push →
        r.row.configID = m.configHash ∧ r.row.workloadID = m.workloadID) ∧
    (Set.InjOn Sha256.hexSum256 p.shared.contents → ∀ m ∈ p.shared.sent,
      p.shared.configs.get? m.configHash = some ⟨m.configHash, m.body⟩) := by
  have hs := coherent_of_reachable h
  refine ⟨hs.configs, ?_, fun hinj m hm => hs.get?_configHash hinj hm⟩
  intro m hm
  refine ⟨hs.configHash m hm, ?_, hs.agree m hm⟩
  rintro ⟨pushedBy, hkind⟩
  exact hs.recorded m hm pushedBy hkind

theorem approval_sent (hash : String → String) : ∃ p, Reachable (program hash).step start p ∧
    p.shared.configs.rows = [⟨hash "receivers:", "receivers:"⟩] ∧
    p.shared.sent = [⟨0, .operator "ops", "w", "receivers:", hash "receivers:"⟩] := by
  have hrun : (StepSystem.run (program hash).step start
      [.arrive (.approval "w" "receivers:" "ops" 0 [] none 0), .resume 0 true, .resume 0 true,
        .resume 0 true]).map (fun p => (p.shared.configs.rows, p.shared.sent)) =
      some ([⟨hash "receivers:", "receivers:"⟩],
        [⟨0, .operator "ops", "w", "receivers:", hash "receivers:"⟩]) := by
    simp [StepSystem.run, Program.step, program, arrive, resume, start, World.createConfig,
      World.recordWorkloadConfig, World.pushConfig, KeyedTable.insert, KeyedTable.get?,
      KeyedTable.empty, recordWorkloadConfig_workloadConfig]
  obtain ⟨p, hp, hrows⟩ := Option.map_eq_some_iff.mp hrun
  obtain ⟨hconfigs, hsent⟩ := Prod.mk.inj hrows
  exact ⟨p, ⟨_, hp⟩, hconfigs, hsent⟩

theorem approval_hashes_coherent : ∃ p : Pool World Thread,
    Reachable (program Sha256.hexSum256).step start p ∧
    Set.InjOn Sha256.hexSum256 p.shared.contents ∧
    ∃ m ∈ p.shared.sent, ∃ r ∈ p.shared.recorded, r.push = m.push ∧
      r.row.configID = m.configHash ∧
      p.shared.configs.get? m.configHash = some ⟨m.configHash, "receivers:"⟩ := by
  obtain ⟨p, hreach, hrows, hsent⟩ := approval_sent Sha256.hexSum256
  obtain ⟨-, hpush, hget⟩ := hashes_coherent hreach
  have hcontents : p.shared.contents = {"receivers:"} := by
    ext content
    simp [World.contents, hrows, hsent]
  have hinj : Set.InjOn Sha256.hexSum256 p.shared.contents :=
    hcontents ▸ Set.injOn_singleton _ _
  have hmem : (⟨0, .operator "ops", "w", "receivers:", Sha256.hexSum256 "receivers:"⟩ :
      RemoteConfig) ∈ p.shared.sent := hsent ▸ List.mem_singleton.mpr rfl
  obtain ⟨-, hrecorded, hagree⟩ := hpush _ hmem
  obtain ⟨r, hr, hp⟩ := hrecorded ⟨"ops", rfl⟩
  exact ⟨p, hreach, hinj, _, hmem, r, hr, hp, (hagree r hr hp).1, hget hinj _ hmem⟩

end OtelMagnify.HashCoherence
