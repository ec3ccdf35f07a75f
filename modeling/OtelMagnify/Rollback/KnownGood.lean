import OtelMagnify.Lib.Pool
import OtelMagnify.Lib.ReadCommitted
import OtelMagnify.Push.Store

/-! The known-good pointer of a workload: `SetWorkloadKnownGoodWithPrecondition` and
`ClearWorkloadKnownGood` of `internal/store/workload_configs.go`, one step for each statement. -/
namespace OtelMagnify.KnownGood
open Push (Time)
open ReadCommitted StepSystem

/-- A row of `workload_known_good_configs`; the workload is its key. -/
structure WorkloadKnownGoodConfig where
  configID : String
  markedAt : Time
  markedBy : Option String
  sourceAppliedAt : Option Time
  replacedConfigID : Option String
  replaceReason : Option String
  configID_ne : configID ≠ ""
  deriving DecidableEq, Repr

structure SetKnownGoodResult where
  changed : Bool := false
  preconditionFailed : Bool := false
  replacedConfigID : String := ""
  currentConfigID : String := ""
  deriving DecidableEq, Repr

structure SetCall where
  workloadID : String
  configID : String
  markedBy : String
  replaceReason : String
  ifCurrent : Option String
  force : Bool
  deriving DecidableEq, Repr

def preconditionConflicts (currentID targetID : String) (ifCurrent : Option String)
    (force : Bool) : Bool :=
  if force then false
  else
    match ifCurrent with
    | some c => c ≠ currentID
    | none => currentID ≠ "" && currentID ≠ targetID

def nullIfEmpty (s : String) : Option String := if s = "" then none else some s

/-- The config id that a pointer names, empty when there is none. -/
def currentID (kg : Option WorkloadKnownGoodConfig) : String :=
  (kg.map WorkloadKnownGoodConfig.configID).getD ""

/-- What the environment decides in a step: the clock, whether the statement succeeds, what the
reads of other tables return, and whether a failed commit took effect. -/
structure Choice where
  now : Time := 0
  ok : Bool := true
  archivedAt : Option (Option Time) := some none
  source : Option (Time × String) := none
  committed : Bool := true
  deriving DecidableEq, Repr

inductive SetStage where
  | archiveCheck
  | historyCheck
  | reading (source : Time)
  | upserting (source : Time) (existing : Option WorkloadKnownGoodConfig)
  | rereading
  | committing (result : SetKnownGoodResult) (kg : Option WorkloadKnownGoodConfig)
  | fetching (result : SetKnownGoodResult)
  deriving DecidableEq, Repr

inductive ClearStage where
  | reading
  | deleting (old : Option WorkloadKnownGoodConfig)
  deriving DecidableEq, Repr

/-- What a call returns. An error without a text is one that the store passed on. -/
inductive Outcome where
  | failed (text : Option String)
  | set (result : SetKnownGoodResult) (kg : Option WorkloadKnownGoodConfig)
  | cleared (old : Option WorkloadKnownGoodConfig)
  deriving DecidableEq, Repr

inductive Thread where
  | set (tx : ℕ) (call : SetCall) (stage : SetStage)
  | clear (workloadID : String) (stage : ClearStage)
  | returned (outcome : Outcome)
  deriving DecidableEq, Repr

/-- A commit that a `Set` has made: its result, the pointer that was committed just before, and
the one that it committed. -/
structure Commit where
  call : SetCall
  result : SetKnownGoodResult
  before : Option WorkloadKnownGoodConfig
  after : Option WorkloadKnownGoodConfig
  deriving DecidableEq, Repr

/-- The table and the number of the next transaction. The last field is history: the commits that
calls report without an error. -/
structure Shared where
  pointers : Table String WorkloadKnownGoodConfig
  nextTx : ℕ
  commits : List Commit

/-- The row that the upsert inserts or writes over a conflicting one; `none` when the
`CHECK (config_id <> '')` rejects it. -/
def SetCall.excluded (call : SetCall) (now source : Time) (replaced : String) :
    Option WorkloadKnownGoodConfig :=
  if h : call.configID ≠ "" then
    some
      { configID := call.configID
        markedAt := now
        markedBy := nullIfEmpty call.markedBy
        sourceAppliedAt := some source
        replacedConfigID := nullIfEmpty replaced
        replaceReason := nullIfEmpty call.replaceReason
        configID_ne := h }
  else none

/-- The `WHERE` of `ON CONFLICT DO UPDATE`. -/
def SetCall.updates (call : SetCall) (row : WorkloadKnownGoodConfig) : Bool :=
  call.force || row.configID = call.ifCurrent.getD "" || row.configID = call.configID

abbrev Moved := Option (Shared × Thread × Option Thread)

def Shared.fail (σ : Shared) (tx : ℕ) (text : Option String) : Moved :=
  some ({ σ with pointers := σ.pointers.abort tx }, .returned (.failed text), none)

/-- A commit that fails may have taken effect or not. -/
def Shared.commit (σ : Shared) (tx : ℕ) (call : SetCall) (result : SetKnownGoodResult)
    (c : Choice) : Shared :=
  if c.ok then
    { σ with
      pointers := σ.pointers.commit tx
      commits := σ.commits ++
        [⟨call, result, σ.pointers.row call.workloadID, σ.pointers.version tx call.workloadID⟩] }
  else
    { σ with pointers := if c.committed then σ.pointers.commit tx else σ.pointers.abort tx }

/-- The version that the upsert leaves, and whether it affects a row. A conflicting row that the
`WHERE` rejects is locked all the same. -/
def SetCall.upsert (call : SetCall) (row : WorkloadKnownGoodConfig)
    (stored : Option WorkloadKnownGoodConfig) : Option WorkloadKnownGoodConfig × Bool :=
  if stored.all call.updates then (some row, true) else (stored, false)

def resumeSet (σ : Shared) (tx : ℕ) (call : SetCall) (stage : SetStage) (c : Choice) : Moved :=
  let next (stage : SetStage) : Moved := some (σ, .set tx call stage, none)
  match stage with
  | .archiveCheck =>
    if !c.ok then σ.fail tx none
    else
      match c.archivedAt with
      | none => σ.fail tx "sql: no rows in result set"
      | some (some _) => σ.fail tx "workload archived"
      | some none => next .historyCheck
  | .historyCheck =>
    if !c.ok then σ.fail tx none
    else
      match c.source with
      | none =>
        σ.fail tx "known-good config must exist in applied history: sql: no rows in result set"
      | some (source, content) =>
        if content = "" then σ.fail tx "config content unavailable" else next (.reading source)
  | .reading source =>
    if !c.ok then σ.fail tx none
    else
      -- the transaction has written nothing yet
      let existing := σ.pointers.row call.workloadID
      if preconditionConflicts (currentID existing) call.configID call.ifCurrent call.force then
        let result : SetKnownGoodResult :=
          { preconditionFailed := true, currentConfigID := currentID existing }
        some ({ σ with pointers := σ.pointers.abort tx }, .returned (.set result none), none)
      else if existing.any (·.configID = call.configID) then next (.committing {} existing)
      else next (.upserting source existing)
  | .upserting source existing =>
    if σ.pointers.isBlocked tx call.workloadID then none
    else if !c.ok then σ.fail tx none
    else
      match call.excluded c.now source (currentID existing) with
      | none => σ.fail tx none
      | some row =>
        let upserted := call.upsert row (σ.pointers.row call.workloadID)
        some ({ σ with pointers := σ.pointers.put tx call.workloadID upserted.1 },
          .set tx call (if upserted.2 then
            .committing { changed := true, replacedConfigID := currentID existing } none
          else .rereading), none)
  | .rereading =>
    -- an error of this read leaves `CurrentConfigID` empty
    next (.committing
      { preconditionFailed := true
        currentConfigID :=
          if c.ok then currentID (σ.pointers.version tx call.workloadID) else "" } none)
  | .committing result kg =>
    some (σ.commit tx call result c,
      if !c.ok then .returned (.failed none)
      else if result.changed then .set tx call (.fetching result)
      else .returned (.set result kg), none)
  | .fetching result =>
    some (σ, .returned (if c.ok then .set result (σ.pointers.row call.workloadID)
      else .failed none), none)

def resumeClear (σ : Shared) (workloadID : String) (stage : ClearStage) (c : Choice) : Moved :=
  match stage with
  | .reading =>
    some (σ, if c.ok then .clear workloadID (.deleting (σ.pointers.row workloadID))
      else .returned (.failed none), none)
  | .deleting old =>
    if c.ok then
      (σ.pointers.delete workloadID).map fun t =>
        ({ σ with pointers := t }, .returned (.cleared old), none)
    else some (σ, .returned (.failed none), none)

def resume (σ : Shared) (t : Thread) (c : Choice) : Moved :=
  match t with
  | .set tx call stage => resumeSet σ tx call stage c
  | .clear workloadID stage => resumeClear σ workloadID stage c
  | .returned _ => none

inductive Event where
  | set (call : SetCall)
  | clear (workloadID : String)
  deriving DecidableEq, Repr

def arrive (σ : Shared) : Event → Option (Shared × Option Thread)
  | .set call => some ({ σ with nextTx := σ.nextTx + 1 }, some (.set σ.nextTx call .archiveCheck))
  | .clear workloadID => some (σ, some (.clear workloadID .reading))

def program : Pool.Program Shared Thread Choice Event := ⟨resume, arrive⟩

abbrev State := Pool Shared Thread

abbrev Action := Pool.Label Choice Event

def step : State → Action → Option State := program.step

def initial (pointers : String → Option WorkloadKnownGoodConfig) : State :=
  ⟨⟨.ofRows pointers, 0, []⟩, []⟩

/-- A call with a precondition that has read the pointer and not yet written it. -/
def Thread.awaiting : Thread → Option SetCall
  | .set _ call (.upserting _ _) =>
    if call.force || call.ifCurrent.isNone then none else some call
  | _ => none

/-- The step deletes the pointer, or makes it what the call is about to write. -/
def SetCall.isDisturbed (call : SetCall) (σ σ' : Shared) : Bool :=
  σ'.pointers.row call.workloadID ≠ σ.pointers.row call.workloadID &&
    (σ'.pointers.row call.workloadID).all (·.configID = call.configID)

/-- Between the read and the write of a call with a precondition, no `Clear` deletes the pointer
and no other call commits the config that the call is about to write. -/
def undisturbed (p : State) (a : Action) : Bool :=
  (step p a).all fun p' => p.threads.all fun t =>
    t.awaiting.all fun call => !call.isDisturbed p.shared p'.shared

/-- The commit did what the precondition of its call asked for: the pointer before it was the
expected one, and that is the one recorded as replaced. -/
def Commit.Exact (m : Commit) : Prop :=
  ∀ c, m.call.force = false → m.call.ifCurrent = some c → m.result.changed = true →
    currentID m.before = c ∧ m.result.replacedConfigID = c ∧
      ∃ row, m.after = some row ∧ row.configID = m.call.configID ∧
        row.replacedConfigID = nullIfEmpty c

/-- What a call in its transaction relies on. Before the upsert, the pointer is not the config to
be written, and it is there unless none is expected; after it, the call holds the row that it
will commit. -/
def Stands (σ : Shared) (tx : ℕ) (call : SetCall) : SetStage → Prop
  | .upserting _ existing =>
    ∀ c, call.force = false → call.ifCurrent = some c → currentID existing = c ∧
      (σ.pointers.row call.workloadID = none → c = "") ∧
      ∀ row, σ.pointers.row call.workloadID = some row → row.configID ≠ call.configID
  | .committing result _ =>
    result.changed = true → ∃ v, σ.pointers.Holds tx call.workloadID v ∧
      Commit.Exact ⟨call, result, σ.pointers.row call.workloadID, v⟩
  | _ => True

def Ok (σ : Shared) : Thread → Prop
  | .set tx call stage => tx < σ.nextTx ∧ Stands σ tx call stage
  | _ => True

def Apart : Thread → Thread → Prop
  | .set tx _ _, .set tx' _ _ => tx ≠ tx'
  | _, _ => True

def Sound (σ : Shared) : Prop := ∀ m ∈ σ.commits, m.Exact

variable {σ σ' : Shared} {tx : ℕ} {call : SetCall} {stage : SetStage} {c : Choice}
  {t t' : Thread} {new : Option Thread}

/-- The stages at which a call relies on nothing. -/
def SetStage.isQuiet : SetStage → Bool
  | .upserting _ _ => false
  | .committing result _ => !result.changed
  | _ => true

theorem stands_of_isQuiet (h : stage.isQuiet = true) : Stands σ tx call stage := by
  cases stage with
  | upserting => cases h
  | committing result kg =>
    intro hchanged
    rw [SetStage.isQuiet, hchanged] at h
    cases h
  | _ => trivial

inductive Effect (σ : Shared) : Thread → Shared → Thread → Prop where
  | finish (t : Thread) (outcome : Outcome) : Effect σ t σ (.returned outcome)
  | abort (tx : ℕ) (call : SetCall) (stage : SetStage) (outcome : Outcome) :
      Effect σ (.set tx call stage) { σ with pointers := σ.pointers.abort tx } (.returned outcome)
  | advance (tx : ℕ) (call : SetCall) (stage stage' : SetStage) (h : stage'.isQuiet = true) :
      Effect σ (.set tx call stage) σ (.set tx call stage')
  | read (tx : ℕ) (call : SetCall) (source : Time)
      (hpre : preconditionConflicts (currentID (σ.pointers.row call.workloadID)) call.configID
        call.ifCurrent call.force = false)
      (hother : (σ.pointers.row call.workloadID).any (·.configID = call.configID) = false) :
      Effect σ (.set tx call (.reading source)) σ
        (.set tx call (.upserting source (σ.pointers.row call.workloadID)))
  | upsert (tx : ℕ) (call : SetCall) (source now : Time)
      (existing : Option WorkloadKnownGoodConfig) (row : WorkloadKnownGoodConfig)
      (hfree : σ.pointers.isBlocked tx call.workloadID = false)
      (hrow : call.excluded now source (currentID existing) = some row)
      (hup : (σ.pointers.row call.workloadID).all call.updates = true) :
      Effect σ (.set tx call (.upserting source existing))
        { σ with pointers := σ.pointers.put tx call.workloadID (some row) }
        (.set tx call
          (.committing { changed := true, replacedConfigID := currentID existing } none))
  | lock (tx : ℕ) (call : SetCall) (stage : SetStage)
      (hfree : σ.pointers.isBlocked tx call.workloadID = false) :
      Effect σ (.set tx call stage)
        { σ with pointers :=
            σ.pointers.put tx call.workloadID (σ.pointers.row call.workloadID) }
        (.set tx call .rereading)
  | commit (tx : ℕ) (call : SetCall) (result : SetKnownGoodResult)
      (kg : Option WorkloadKnownGoodConfig) (c : Choice) (outcome : Outcome) :
      Effect σ (.set tx call (.committing result kg)) (σ.commit tx call result c)
        (.returned outcome)
  | commitThenFetch (tx : ℕ) (call : SetCall) (result : SetKnownGoodResult)
      (kg : Option WorkloadKnownGoodConfig) (c : Choice) :
      Effect σ (.set tx call (.committing result kg)) (σ.commit tx call result c)
        (.set tx call (.fetching result))
  | clear (workloadID : String) (stage : ClearStage) :
      Effect σ (.clear workloadID .reading) σ (.clear workloadID stage)
  | delete (workloadID : String) (old : Option WorkloadKnownGoodConfig)
      (pointers : Table String WorkloadKnownGoodConfig) (outcome : Outcome)
      (h : σ.pointers.delete workloadID = some pointers) :
      Effect σ (.clear workloadID (.deleting old)) { σ with pointers := pointers }
        (.returned outcome)

theorem resumeSet_effect (hm : resumeSet σ tx call stage c = some (σ', t', new)) :
    Effect σ (.set tx call stage) σ' t' ∧ new = none := by
  have hfail {err : Option String} (hm : σ.fail tx err = some (σ', t', new)) :
      Effect σ (.set tx call stage) σ' t' ∧ new = none := by
    cases hm
    exact ⟨.abort tx call _ _, rfl⟩
  cases stage with
  | archiveCheck =>
    simp only [resumeSet] at hm
    split at hm
    · exact hfail hm
    split at hm
    · exact hfail hm
    · exact hfail hm
    · cases hm
      exact ⟨.advance tx call _ _ rfl, rfl⟩
  | historyCheck =>
    simp only [resumeSet] at hm
    split at hm
    · exact hfail hm
    split at hm
    · exact hfail hm
    split at hm
    · exact hfail hm
    · cases hm
      exact ⟨.advance tx call _ _ rfl, rfl⟩
  | reading source =>
    simp only [resumeSet] at hm
    split at hm
    · exact hfail hm
    split at hm
    · cases hm
      exact ⟨.abort tx call _ _, rfl⟩
    next hpre =>
    split at hm <;> cases hm
    · exact ⟨.advance tx call _ _ rfl, rfl⟩
    · next hother =>
      exact ⟨.read tx call source (Bool.not_eq_true _ ▸ hpre) (Bool.not_eq_true _ ▸ hother), rfl⟩
  | upserting source existing =>
    simp only [resumeSet] at hm
    split at hm
    · cases hm
    next hfree =>
    rw [Bool.not_eq_true] at hfree
    split at hm
    · exact hfail hm
    split at hm
    · exact hfail hm
    · next row hrow =>
      cases hm
      unfold SetCall.upsert
      split
      · next hup => exact ⟨.upsert tx call source c.now existing row hfree hrow hup, rfl⟩
      · exact ⟨.lock tx call _ hfree, rfl⟩
  | rereading =>
    cases hm
    exact ⟨.advance tx call _ _ rfl, rfl⟩
  | committing result kg =>
    cases hm
    split
    · exact ⟨.commit tx call result kg c _, rfl⟩
    split
    · exact ⟨.commitThenFetch tx call result kg c, rfl⟩
    · exact ⟨.commit tx call result kg c _, rfl⟩
  | fetching result =>
    cases hm
    exact ⟨.finish _ _, rfl⟩

theorem resume_effect (hm : resume σ t c = some (σ', t', new)) :
    Effect σ t σ' t' ∧ new = none := by
  cases t with
  | set tx call stage => exact resumeSet_effect hm
  | clear workloadID stage =>
    cases stage with
    | reading =>
      cases hm
      split
      · exact ⟨.clear workloadID _, rfl⟩
      · exact ⟨.finish _ _, rfl⟩
    | deleting old =>
      simp only [resume, resumeClear] at hm
      split at hm
      · obtain ⟨pointers, hp, hm⟩ := Option.map_eq_some_iff.mp hm
        cases hm
        exact ⟨.delete workloadID old pointers _ hp, rfl⟩
      · cases hm
        exact ⟨.finish _ _, rfl⟩
  | returned outcome => cases hm

theorem nextTx_commit (result : SetKnownGoodResult) (c : Choice) :
    (σ.commit tx call result c).nextTx = σ.nextTx := by
  unfold Shared.commit
  split <;> rfl

theorem Effect.nextTx (h : Effect σ t σ' t') : σ'.nextTx = σ.nextTx := by
  cases h with
  | commit | commitThenFetch => exact nextTx_commit _ _
  | _ => rfl

theorem commit_spares {tx' : ℕ} (hne : tx ≠ tx') (result : SetKnownGoodResult) (c : Choice) :
    σ.pointers.Spares (σ.commit tx call result c).pointers tx' := by
  unfold Shared.commit
  split
  · exact Table.commit_spares hne _
  · split
    · exact Table.commit_spares hne _
    · exact Table.abort_spares hne _

/-- A step of one call leaves the rows alone that another call holds. -/
theorem Effect.spares (h : Effect σ t σ' t') (hne : Apart t (.set tx call stage)) :
    σ.pointers.Spares σ'.pointers tx := by
  cases h with
  | abort => exact Table.abort_spares hne _
  | upsert _ _ _ _ _ row hfree => exact Table.put_spares hne hfree (some row)
  | lock _ _ _ hfree => exact Table.put_spares hne hfree _
  | commit | commitThenFetch => exact commit_spares hne _ _
  | delete _ _ _ _ hp => exact Table.delete_spares hp tx
  | _ => exact .refl _ _

theorem Stands.spared (h : Stands σ tx call stage) (hs : σ.pointers.Spares σ'.pointers tx)
    (hG : ∀ call', (Thread.set tx call stage).awaiting = some call' →
      call'.isDisturbed σ σ' = false) : Stands σ' tx call stage := by
  cases stage with
  | upserting source existing =>
    intro c hforce hcur
    obtain ⟨hid, hnone, hsome⟩ := h c hforce hcur
    have hdist := hG call (by simp [Thread.awaiting, hforce, hcur])
    simp only [SetCall.isDisturbed, Bool.and_eq_false_iff, decide_eq_false_iff_not, ne_eq,
      not_not] at hdist
    rcases hdist with hsame | hkeep
    · rw [hsame]
      exact ⟨hid, hnone, hsome⟩
    · refine ⟨hid, fun hn => ?_, fun row hr => ?_⟩
      · rw [hn] at hkeep
        cases hkeep
      · rw [hr] at hkeep
        exact of_decide_eq_false hkeep
  | committing result kg =>
    intro hchanged
    obtain ⟨v, hv, hexact⟩ := h hchanged
    rw [← hs.row _ v hv] at hexact
    exact ⟨v, (hs.holds _ v).mpr hv, hexact⟩
  | _ => trivial

theorem stands_read (source : Time)
    (hpre : preconditionConflicts (currentID (σ.pointers.row call.workloadID)) call.configID
      call.ifCurrent call.force = false)
    (hother : (σ.pointers.row call.workloadID).any (·.configID = call.configID) = false) :
    Stands σ tx call (.upserting source (σ.pointers.row call.workloadID)) := by
  intro c hforce hcur
  have hid : c = currentID (σ.pointers.row call.workloadID) := by
    simpa [preconditionConflicts, hforce, hcur] using hpre
  refine ⟨hid.symm, fun hn => ?_, fun row hr => ?_⟩
  · rw [hid, hn]
    rfl
  · rw [hr] at hother
    exact of_decide_eq_false hother

theorem stands_upsert {source now : Time} {existing : Option WorkloadKnownGoodConfig}
    {row : WorkloadKnownGoodConfig} (h : Stands σ tx call (.upserting source existing))
    (hrow : call.excluded now source (currentID existing) = some row)
    (hup : (σ.pointers.row call.workloadID).all call.updates = true) :
    Stands { σ with pointers := σ.pointers.put tx call.workloadID (some row) } tx call
      (.committing { changed := true, replacedConfigID := currentID existing } none) := by
  intro _
  refine ⟨some row, Table.holds_put _ _ _ _, ?_⟩
  intro c hforce hcur _
  dsimp only at hforce hcur
  obtain ⟨hid, hnone, hsome⟩ := h c hforce hcur
  unfold SetCall.excluded at hrow
  split at hrow
  · cases hrow
    refine ⟨?_, hid, _, rfl, rfl, congrArg nullIfEmpty hid⟩
    dsimp only [Table.row_put]
    cases hstored : σ.pointers.row call.workloadID with
    | none => exact (hnone hstored).symm
    | some stored =>
      rw [hstored] at hup
      have hne := hsome stored hstored
      simpa [SetCall.updates, hforce, hcur, hne, currentID] using hup
  · cases hrow

theorem Sound.commit (hσ : Sound σ) {result : SetKnownGoodResult}
    {kg : Option WorkloadKnownGoodConfig} (h : Stands σ tx call (.committing result kg))
    (c : Choice) : Sound (σ.commit tx call result c) := by
  unfold Shared.commit
  split
  · intro m hm
    rcases List.mem_append.mp hm with hm | hm
    · exact hσ m hm
    · rw [List.mem_singleton] at hm
      subst hm
      intro c' hforce hcur hchanged
      obtain ⟨v, hv, hexact⟩ := h hchanged
      dsimp only
      rw [hv.version]
      exact hexact c' hforce hcur hchanged
  · exact hσ

theorem Effect.sound (h : Effect σ t σ' t') (hσ : Sound σ) (ht : Ok σ t) : Sound σ' := by
  cases h with
  | commit _ _ _ _ c | commitThenFetch _ _ _ _ c => exact hσ.commit ht.2 c
  | _ => exact hσ

theorem Effect.ok (h : Effect σ t σ' t') (ht : Ok σ t) : Ok σ' t' := by
  cases h with
  | advance _ _ _ _ hq => exact ⟨ht.1, stands_of_isQuiet hq⟩
  | read _ _ source hpre hother => exact ⟨ht.1, stands_read source hpre hother⟩
  | upsert _ _ _ _ _ _ _ hrow hup => exact ⟨ht.1, stands_upsert ht.2 hrow hup⟩
  | lock => exact ⟨ht.1, trivial⟩
  | commitThenFetch => exact ⟨(nextTx_commit _ _).symm ▸ ht.1, trivial⟩
  | _ => trivial

theorem Effect.apart (h : Effect σ t σ' t') {u : Thread} (hu : Apart t u) : Apart t' u := by
  cases h <;> cases u <;> first | exact hu | trivial

def Spared (σ : Shared) (t : Thread) (σ' : Shared) : Prop :=
  ∀ call, t.awaiting = some call → call.isDisturbed σ σ' = false

def guards : Pool.Guards Shared Thread Choice Event where
  bystander := Spared

theorem program_keeps : Pool.KeepsUnder program guards Sound Ok Apart where
  symm t u h := by
    cases t <;> cases u <;> first | exact Ne.symm h | trivial
  resume σ t c σ' t' new hσ ht _ hm := by
    obtain ⟨heff, rfl⟩ := resume_effect hm
    exact ⟨heff.sound hσ ht, heff.ok ht, by simp⟩
  others σ t c σ' t' new u hσ ht hm hu hne hG := by
    obtain ⟨heff, rfl⟩ := resume_effect hm
    refine ⟨?_, heff.apart hne, by simp⟩
    cases u with
    | set tx call stage => exact ⟨heff.nextTx ▸ hu.1, hu.2.spared (heff.spares hne) hG⟩
    | _ => trivial
  arrive σ e σ' new hσ _ hm := by
    cases e with
    | set call =>
      cases hm
      refine ⟨hσ, ?_⟩
      rintro n ⟨⟩
      exact ⟨Nat.lt_succ_self _, trivial⟩
    | clear workloadID =>
      cases hm
      refine ⟨hσ, ?_⟩
      rintro n ⟨⟩
      trivial
  arriveOthers σ e σ' new u hσ hm hu _ := by
    cases e with
    | set call =>
      cases hm
      cases u with
      | set tx call' stage =>
        refine ⟨⟨Nat.lt_succ_of_lt hu.1, hu.2⟩, ?_⟩
        rintro n ⟨⟩
        exact Ne.symm (Nat.ne_of_lt hu.1)
      | clear | returned =>
        refine ⟨trivial, ?_⟩
        rintro n ⟨⟩
        trivial
    | clear workloadID =>
      cases hm
      refine ⟨hu, ?_⟩
      rintro n ⟨⟩
      cases u <;> trivial

theorem meets_of_undisturbed {p p' : State} {a : Action} (hu : undisturbed p a = true)
    (hs : step p a = some p') : guards.Meets p p' a := by
  have hspared : ∀ t ∈ p.threads, Spared p.shared t p'.shared := by
    intro t ht call hcall
    simp only [undisturbed, hs, Option.all_some, List.all_eq_true] at hu
    have h := hu t ht
    rw [hcall, Option.all_some, Bool.not_eq_true'] at h
    exact h
  cases a with
  | resume i c => exact ⟨fun _ _ => trivial, hspared⟩
  | arrive e => exact ⟨trivial, fun _ _ => trivial⟩

theorem known_good_compare_and_set {pointers : String → Option WorkloadKnownGoodConfig}
    {as : List Action} {p : State}
    (hquiet : Meets step (fun p a => undisturbed p a = true) (initial pointers) as)
    (hrun : run step (initial pointers) as = some p) {m : Commit} (hm : m ∈ p.shared.commits)
    {c : String} (hforce : m.call.force = false) (hcur : m.call.ifCurrent = some c)
    (hchanged : m.result.changed = true) :
    currentID m.before = c ∧ m.result.replacedConfigID = c ∧
      ∃ row, m.after = some row ∧ row.configID = m.call.configID ∧
        row.replacedConfigID = nullIfEmpty c := by
  have hinit : Pool.Holds Sound Ok Apart (initial pointers) :=
    ⟨by simp [Sound, initial], by simp [initial], by simp [initial]⟩
  have hp : Pool.Holds Sound Ok Apart p :=
    run_invariant_of_meets (fun _ _ _ hq hu hs =>
      program_keeps.step hq (meets_of_undisturbed hu hs) hs) hinit hquiet hrun
  exact hp.shared m hm c hforce hcur hchanged

/-- A pointer to the config, marked by nobody in particular. -/
def pointerTo (configID : String) (h : configID ≠ "") : WorkloadKnownGoodConfig :=
  ⟨configID, 1, none, none, none, none, h⟩

/-- A call that replaces the pointer `a` of the workload `w` by `b`. -/
def replaceA : SetCall := ⟨"w", "b", "ops", "", some "a", false⟩

/-- The steps of the first goroutine up to its read of the pointer. -/
def readA : List Action :=
  [.arrive (.set replaceA), .resume 0 {}, .resume 0 { source := some (2, "receivers:") },
    .resume 0 {}]

def clearOf (workloadID : String) : List Action :=
  [.arrive (.clear workloadID), .resume 1 {}, .resume 1 {}]

/-- The upsert and the commit of the first goroutine. -/
def writeB : List Action := [.resume 0 { now := 5 }, .resume 0 {}]

theorem known_good_compare_and_set_elsewhere :
    ∃ p m, run step (initial fun _ => some (pointerTo "a" (by decide)))
        (readA ++ clearOf "v" ++ writeB) = some p ∧ m ∈ p.shared.commits ∧
      m.result.changed = true ∧ currentID m.before = "a" := by
  obtain ⟨p, hp, m, hm, hcall, hchanged⟩ :
      ∃ p, run step (initial fun _ => some (pointerTo "a" (by decide)))
          (readA ++ clearOf "v" ++ writeB) = some p ∧
        ∃ m ∈ p.shared.commits, m.call = replaceA ∧ m.result.changed = true := by
    decide +kernel
  have hexact := known_good_compare_and_set (by decide +kernel) hp hm (by rw [hcall]; rfl)
    (by rw [hcall]; rfl) hchanged
  exact ⟨p, m, hp, hm, hchanged, hexact.1⟩

/-- A `Clear` between the read and the upsert turns the upsert into a plain insert, which no
precondition guards. -/
theorem cleared_pointer_is_replaced :
    ∃ p m, run step (initial fun _ => some (pointerTo "a" (by decide)))
        (readA ++ clearOf "w" ++ writeB) = some p ∧ m ∈ p.shared.commits ∧
      m.call.force = false ∧ m.call.ifCurrent = some "a" ∧ m.result.changed = true ∧
      m.result.replacedConfigID = "a" ∧ m.before = none := by
  simp only [exists_and_left]
  decide +kernel

end OtelMagnify.KnownGood
