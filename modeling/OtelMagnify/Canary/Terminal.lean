import OtelMagnify.Canary.Handlers

/-! Terminal states and stop reasons, for requests that come one after the other. A request then
writes what it makes of the stored row, and the question is what each handler makes of it. -/
namespace OtelMagnify.Canary
open Push (Time Report)
open StepSystem

/-- `promoted`, `aborted` and `rollback_started` -/
def CanaryState.isTerminal : CanaryState → Bool
  | promoted | aborted | rollbackStarted => true
  | _ => false

theorem CanaryState.isTerminal_of_isActive {s : CanaryState} (h : s.isActive = true) :
    s.isTerminal = false := by
  cases s <;> first | rfl | cases h

def Thread.isReturned (t : Thread) : Bool :=
  match t.stage with
  | .returned _ => true
  | _ => false

def CanaryStatus.Carries (c : CanaryStatus) (reason : StopReason) : Prop :=
  ∃ t ∈ c.targets, t.stopReason = some reason

/-- The call meets the guard that its handler does not have: an abort does not find a canary that
was promoted or rolled back; the health of a canary is checked while its workload has no open
alert, and a recorded reason stays on a target; no push of a promote fails, and one of a rollback
only if a target already carries the reason. -/
def isGuarded (σ : Shared) (t : Thread) (c : Choice) : Bool :=
  match t.stage with
  | .reading workloadID id =>
    t.op ≠ .abort || !c.ok ||
      (Canaries.getCanaryStatus σ.canaries workloadID id).all fun canary =>
        canary.status ≠ .promoted && canary.status ≠ .rollbackStarted
  | .examining canary _ =>
    !(c.ok && decide (canary.workloadID ∈ σ.alerts)) &&
      (σ.recorded canary.id).all fun reason => canary.targets.any fun t =>
        t.stopReason = some reason && t.stopCause c.instances c.now = none
  | .promoting _ (_ :: _) => c.pushError = none
  | .rollingBack canary (_ :: _) =>
    c.pushError = none || canary.targets.any (·.stopReason = some .remoteConfigFailed)
  | _ => true

variable {σ σ' : Shared} {op : Op} {stage stage' : Stage} {c : Choice}
  {canary row : CanaryStatus} {reason : Option StopReason}

namespace CanaryStatus

variable (instances : List Instance) (now : Time)

theorem examine_of_none {t : CanaryTarget} (h : t.stopCause instances now = none) :
    t.examine instances now = t := by
  rw [CanaryTarget.examine, h]
  rfl

/-- A copy that is not written back is the canary as it was read. -/
theorem withHealth_of_unchanged {alert : Bool} {c : CanaryStatus}
    (h : (c.withHealth instances alert now).2 = false) :
    (c.withHealth instances alert now).1 = c.recount := by
  have hparts : c.isDegraded instances now = false ∧ alert = false ∧
      ((c.examined instances alert now).stopReasons ≠ [] &&
        (c.examined instances alert now).status = .running) = false := by
    simpa only [withHealth, Bool.or_eq_false_iff, and_assoc] using h
  obtain ⟨hdegraded, rfl, hstops⟩ := hparts
  have htargets : c.targets.map (.examine instances now) = c.targets := by
    refine (List.map_congr_left fun t ht => ?_).trans (List.map_id _)
    rw [isDegraded, List.any_eq_false] at hdegraded
    have hcause := hdegraded t ht
    rw [Option.not_isSome_iff_eq_none] at hcause
    exact examine_of_none instances now hcause
  have hexamined : c.examined instances false now = c.recount := by
    simp only [examined, htargets]
    rfl
  rw [withHealth]
  simp only [hdegraded, hstops]
  exact hexamined

theorem blocked_of_changed {c : CanaryStatus} (h : (c.withHealth instances false now).2 = true) :
    (c.withHealth instances false now).1.status ≠ .succeeded ∨
      (c.withHealth instances false now).1.stopReasons ≠ [] := by
  rw [stopReasons_withHealth]
  by_cases hdegraded : c.isDegraded instances now = true
  · exact .inr (stopReasons_examined_ne_nil instances false now c hdegraded)
  · have hstops : (c.examined instances false now).stopReasons ≠ [] ∧
        (c.examined instances false now).status = .running := by
      simpa [withHealth, hdegraded] using h
    exact .inr hstops.1

end CanaryStatus

variable {id : String}

open CanaryStatus

open Canaries

namespace Sequential

/-- The copy is the stored row. -/
def Current (σ : Shared) (canary : CanaryStatus) : Prop :=
  ∃ row, σ.canaries.get? canary.id = some row ∧ canary = row.recount

/-- A write of the copy keeps a terminal status, unless it is a rollback's, and leaves every
recorded reason on a target. -/
structure Lands (σ : Shared) (op : Op) (canary : CanaryStatus) (reason : Option StopReason) :
    Prop where
  terminal : ∃ row, σ.canaries.get? canary.id = some row ∧ row.workloadID = canary.workloadID ∧
    (op ≠ .rollback → row.status.isTerminal = true → canary.status = row.status)
  carried : ∀ r ∈ σ.recorded canary.id ++ reason.toList,
    canary.status.isActive = false ∧ canary.Carries r

def Ok (σ : Shared) (t : Thread) : Prop :=
  match t.stage with
  | .creating canary => canary.status = .running
  | .starting canary _ => ∃ row, σ.canaries.get? canary.id = some row ∧
      row.workloadID = canary.workloadID ∧ row.status = .running
  | .examining canary _ => Current σ canary
  | .restoring canary | .rollingBack canary _ => t.op = .rollback ∧ Current σ canary
  | .refreshing canary _ reason => Lands σ t.op canary reason ∧
      (canary.status ≠ .succeeded ∨ canary.stopReasons ≠ [])
  | .fetching canary | .promoting canary _ => Current σ canary ∧ canary.status = .succeeded
  | .storing canary reason _ _ => Lands σ t.op canary reason
  | _ => True

def Apart (t u : Thread) : Prop := t.isReturned = true ∨ u.isReturned = true

/-- A canary with a recorded reason is not active, and one of its targets carries the reason. -/
structure Inv (σ : Shared) : Prop where
  carried : ∀ id row, σ.canaries.get? id = some row → ∀ r ∈ σ.recorded id,
    row.status.isActive = false ∧ row.Carries r
  unknown : ∀ id, σ.canaries.get? id = none → σ.recorded id = []

theorem Inv.recorded_eq_nil (hI : Inv σ) (hrow : σ.canaries.get? id = some row)
    (hactive : row.status.isActive = true) : σ.recorded id = [] := by
  refine List.eq_nil_iff_forall_not_mem.mpr fun r hr => ?_
  rw [(hI.carried id row hrow r hr).1] at hactive
  cases hactive

theorem get?_store_self (hrow : σ.canaries.get? canary.id = some row)
    (hw : row.workloadID = canary.workloadID) :
    (σ.store true canary reason).canaries.get? canary.id = some (canary.assign row) := by
  have hkey : row.id = canary.id := (KeyedTable.get?_eq_some_iff.mp hrow).2
  change (updateCanaryStatus σ.canaries canary).get? canary.id = _
  rw [get?_updateCanaryStatus, hrow, Option.map_some, if_pos (by simp [hkey, hw])]

variable {ok : Bool}

theorem get?_store_of_ne (hne : id ≠ canary.id) :
    (σ.store ok canary reason).canaries.get? id = σ.canaries.get? id := by
  unfold Shared.store
  split
  · rw [get?_updateCanaryStatus]
    cases hrow : σ.canaries.get? id with
    | none => rfl
    | some row =>
      have hkey : row.id = id := (KeyedTable.get?_eq_some_iff.mp hrow).2
      rw [Option.map_some, if_neg]
      simp [hkey, hne]
  · rfl

theorem recorded_store_self :
    (σ.store true canary reason).recorded canary.id =
      σ.recorded canary.id ++ reason.toList := Function.update_self ..

theorem recorded_store_of_ne (hne : id ≠ canary.id) :
    (σ.store ok canary reason).recorded id = σ.recorded id := by
  unfold Shared.store
  split
  · exact Function.update_of_ne hne ..
  · rfl

/-- The write of a copy that lands. -/
theorem Inv.store (hI : Inv σ) (h : Lands σ op canary reason) : Inv (σ.store ok canary reason) := by
  obtain ⟨row, hrow, hw, -⟩ := h.terminal
  cases ok with
  | false => exact hI
  | true =>
    refine ⟨fun id row' hrow' r hr => ?_, fun id hnone => ?_⟩
    · by_cases hid : id = canary.id
      · subst hid
        rw [get?_store_self hrow hw] at hrow'
        cases hrow'
        rw [recorded_store_self] at hr
        exact h.carried r hr
      · rw [get?_store_of_ne hid] at hrow'
        rw [recorded_store_of_ne hid] at hr
        exact hI.carried id row' hrow' r hr
    · by_cases hid : id = canary.id
      · subst hid
        rw [get?_store_self hrow hw] at hnone
        cases hnone
      · rw [get?_store_of_ne hid] at hnone
        rw [recorded_store_of_ne hid]
        exact hI.unknown id hnone

theorem Lands.status_store (h : Lands σ op canary reason)
    (hop : op ≠ .rollback) (hrow : σ.canaries.get? id = some row)
    (hterminal : row.status.isTerminal = true) :
    ∃ row', (σ.store ok canary reason).canaries.get? id = some row' ∧
      row'.status = row.status := by
  by_cases hid : id = canary.id
  · subst hid
    obtain ⟨row₀, hrow₀, hw, hstatus⟩ := h.terminal
    cases hrow.symm.trans hrow₀
    cases ok with
    | false => exact ⟨row, hrow, rfl⟩
    | true => exact ⟨_, get?_store_self hrow hw, hstatus hop hterminal⟩
  · exact ⟨row, by rw [get?_store_of_ne hid, hrow], rfl⟩

theorem lands_of_active (hI : Inv σ) (hrow : σ.canaries.get? canary.id = some row)
    (hw : row.workloadID = canary.workloadID) (hactive : row.status.isActive = true) :
    Lands σ op canary none := by
  refine ⟨⟨row, hrow, hw, fun _ hterminal => ?_⟩, fun r hr => ?_⟩
  · rw [CanaryState.isTerminal_of_isActive hactive] at hterminal
    cases hterminal
  · rw [hI.recorded_eq_nil hrow hactive] at hr
    cases hr

theorem Current.lands_of_succeeded {copy : CanaryStatus} (hI : Inv σ) (h : Current σ canary)
    (hsucc : canary.status = .succeeded) (hid : copy.id = canary.id)
    (hw : copy.workloadID = canary.workloadID) : Lands σ op copy none := by
  obtain ⟨row, hrow, rfl⟩ := h
  have hactive : row.status.isActive = true := by
    rw [← status_recount, hsucc]
    rfl
  have hstored : σ.canaries.get? copy.id = some row := by
    rw [hid]
    exact hrow
  exact lands_of_active hI hstored hw.symm hactive

theorem Current.lands {copy : CanaryStatus} (hI : Inv σ) (h : Current σ canary)
    (hid : copy.id = canary.id) (hw : copy.workloadID = canary.workloadID)
    (htargets : copy.targets = canary.targets) (hinactive : copy.status.isActive = false)
    (hstatus : op ≠ .rollback → canary.status.isTerminal = true → copy.status = canary.status)
    (hreason : ∀ r ∈ reason, canary.Carries r) : Lands σ op copy reason := by
  obtain ⟨row, hrow, rfl⟩ := h
  refine ⟨⟨row, by rw [hid]; exact hrow, hw.symm, hstatus⟩, fun r hr => ⟨hinactive, ?_⟩⟩
  have hcarries : row.Carries r := by
    rcases List.mem_append.mp hr with hr | hr
    · rw [hid] at hr
      exact (hI.carried _ row hrow r hr).2
    · exact hreason r (Option.mem_toList.mp hr)
  rw [CanaryStatus.Carries, htargets]
  exact hcarries

/-- The copy of `loadCanaryWithHealth` without an open alert. -/
theorem Current.lands_withHealth (hI : Inv σ) (h : Current σ canary) (instances : List Instance)
    (now : Time)
    (hkeep : ∀ r ∈ σ.recorded canary.id, ∃ t ∈ canary.targets, t.stopReason = some r ∧
      t.stopCause instances now = none) :
    Lands σ op (canary.withHealth instances false now).1 none := by
  obtain ⟨row, hrow, hcanary⟩ := h
  have hstatus : (canary.withHealth instances false now).1.status.isActive = true →
      canary.status.isActive = true := by
    intro hactive
    rwa [status_withHealth_of_isActive _ _ _ _ hactive] at hactive
  refine ⟨⟨row, ?_, ?_, fun _ hterminal => ?_⟩, fun r hr => ⟨?_, ?_⟩⟩
  · rw [id_withHealth]
    exact hrow
  · rw [workloadID_withHealth, hcanary]
    rfl
  · have hrun : canary.status ≠ .running := by
      intro hrun
      rw [show row.status = canary.status by rw [hcanary]; rfl, hrun] at hterminal
      cases hterminal
    rw [status_withHealth, status_examined, if_neg Bool.false_ne_true,
      if_neg fun hstops => hrun hstops.2, hcanary]
    rfl
  · rw [id_withHealth, Option.toList_none, List.append_nil] at hr
    have hinactive := (hI.carried _ row hrow r hr).1
    by_contra hactive
    have hcanary' := hstatus (Bool.not_eq_false _ ▸ hactive)
    rw [hcanary] at hcanary'
    exact absurd hcanary' (by rw [status_recount, hinactive]; decide)
  · rw [id_withHealth, Option.toList_none, List.append_nil] at hr
    obtain ⟨t, ht, hreason, hcause⟩ := hkeep r hr
    refine ⟨t, ?_, hreason⟩
    rw [targets_withHealth, ← examine_of_none instances now hcause]
    exact List.mem_map_of_mem ht

theorem current_recount (h : Current σ canary) : Current σ canary.recount := by
  obtain ⟨row, hrow, rfl⟩ := h
  exact ⟨row, hrow, rfl⟩

theorem ok_afterLoad (h : Current σ canary) : Ok σ ⟨op, op.afterLoad canary⟩ := by
  cases op with
  | promote began =>
    simp only [Op.afterLoad]
    split
    · trivial
    next hsucc =>
    split
    · trivial
    split
    · trivial
    exact ⟨h, not_not.mp hsucc⟩
  | _ => trivial

theorem ok_afterLoad_of_blocked
    (h : canary.status ≠ .succeeded ∨ canary.stopReasons ≠ []) :
    Ok σ ⟨op, op.afterLoad canary⟩ := by
  cases op with
  | promote began =>
    simp only [Op.afterLoad]
    split
    · trivial
    next hsucc =>
    split
    · trivial
    next hreasons =>
    rcases h with h | h
    · exact absurd h hsucc
    · exact absurd (.inr h) hreasons
  | _ => trivial

theorem ok_examined (hI : Inv σ) (h : Current σ canary) (instances : List Instance) (now : Time)
    (hkeep : ∀ r ∈ σ.recorded canary.id, ∃ t ∈ canary.targets, t.stopReason = some r ∧
      t.stopCause instances now = none) (seen : ℕ) :
    Ok σ ⟨op, if (canary.withHealth instances false now).2 then
        .refreshing (canary.withHealth instances false now).1 seen none
      else op.afterLoad (canary.withHealth instances false now).1⟩ := by
  split
  · next hchanged =>
    exact ⟨h.lands_withHealth hI _ _ hkeep, blocked_of_changed _ _ hchanged⟩
  · next hchanged =>
    rw [Bool.not_eq_true] at hchanged
    rw [withHealth_of_unchanged _ _ hchanged]
    exact ok_afterLoad (current_recount h)

theorem ok_afterRead {w : String} {seen : ℕ} (hI : Inv σ)
    (h : getCanaryStatus σ.canaries w id = some canary)
    (hG : op ≠ .abort ∨ canary.status ≠ .promoted ∧ canary.status ≠ .rollbackStarted)
    (now : Time) : Ok σ ⟨op, op.afterRead canary seen now⟩ := by
  obtain ⟨row, hrow, -, rfl⟩ := getCanaryStatus_eq_some h
  have hid : row.id = id := (KeyedTable.get?_eq_some_iff.mp hrow).2
  have hcurrent : Current σ row.recount := ⟨row, by rw [id_recount, hid, hrow], rfl⟩
  cases op with
  | abort =>
    refine hcurrent.lands hI rfl rfl rfl rfl (fun _ hterminal => ?_) (by simp)
    rcases hG with hG | ⟨hpromoted, hrollback⟩
    · exact absurd rfl hG
    · cases hs : row.recount.status with
      | aborted => rfl
      | promoted => exact absurd hs hpromoted
      | rollbackStarted => exact absurd hs hrollback
      | _ =>
        rw [hs] at hterminal
        cases hterminal
  | rollback => exact ⟨rfl, hcurrent⟩
  | _ => exact hcurrent

theorem Inv.create {rows : Canaries} (hI : Inv σ)
    (h : createCanaryStatus σ.canaries canary = some rows) :
    Inv { σ with canaries := rows } := by
  refine ⟨fun id row hrow r hr => ?_, fun id hnone => ?_⟩
  · cases hold : σ.canaries.get? id with
    | none =>
      -- nothing is recorded of a canary that is not stored
      have hrecorded : Shared.recorded { σ with canaries := rows } id = [] := hI.unknown id hold
      rw [hrecorded] at hr
      cases hr
    | some old =>
      cases (KeyedTable.get?_of_insert h hold).symm.trans hrow
      exact hI.carried id row hold r hr
  · exact hI.unknown id (KeyedTable.get?_eq_none_of_insert h hnone)

theorem Inv.advance (hI : Inv σ) (ht : Ok σ ⟨op, stage⟩)
    (h : advance σ op stage c = some (σ', stage')) : Inv σ' := by
  cases advance_writes h with
  | nothing => exact hI
  | create canary rows hrows => exact hI.create hrows
  | refresh => exact hI.store ht.1
  | store => exact hI.store ht
  | push => exact ⟨hI.carried, hI.unknown⟩

theorem Ok.advance (hI : Inv σ) (ht : Ok σ ⟨op, stage⟩)
    (hG : isGuarded σ ⟨op, stage⟩ c = true)
    (h : advance σ op stage c = some (σ', stage')) : Ok σ' ⟨op, stage'⟩ := by
  cases stage with
  | creating canary =>
    simp only [Canary.advance] at h
    split at h
    · next rows hrows =>
      cases h
      split at hrows
      · refine ⟨canary.recount, ?_, rfl, ht⟩
        rw [KeyedTable.get?_insert hrows]
        exact if_pos rfl
      · cases hrows
    · cases h
      trivial
  | starting canary rest =>
    obtain ⟨row, hrow, hw, hrun⟩ := ht
    cases rest with
    | nil =>
      cases h
      trivial
    | cons uid rest =>
      cases h
      cases c.pushError with
      | none => exact ⟨row, hrow, hw, hrun⟩
      | some e => exact lands_of_active hI hrow hw (by rw [hrun]; rfl)
  | reading w id =>
    cases h
    split
    · next hok =>
      split
      · next canary hget =>
        refine ok_afterRead hI hget ?_ _
        simpa [isGuarded, hget, hok] using hG
      · trivial
    · trivial
  | examining canary seen =>
    cases h
    simp only [isGuarded, Bool.and_eq_true, Bool.not_eq_true', List.all_eq_true,
      List.any_eq_true, decide_eq_true_eq] at hG
    obtain ⟨halert, hkeep⟩ := hG
    rw [halert]
    exact ok_examined hI ht _ _ hkeep seen
  | refreshing canary seen reason =>
    cases h
    exact ok_afterLoad_of_blocked ht.2
  | fetching canary | restoring canary =>
    cases h
    split
    · exact ht
    · trivial
  | promoting canary rest =>
    cases rest with
    | nil =>
      cases h
      exact ht.1.lands_of_succeeded hI ht.2 rfl rfl
    | cons uid rest =>
      cases h
      have hpush : c.pushError = none := of_decide_eq_true hG
      rw [hpush]
      exact ht
  | rollingBack canary rest =>
    obtain ⟨rfl, hcurrent⟩ := ht
    cases rest with
    | nil =>
      cases h
      exact hcurrent.lands hI rfl rfl rfl rfl (fun hop => absurd rfl hop) (by simp)
    | cons uid rest =>
      cases h
      cases hpush : c.pushError with
      | none => exact ⟨rfl, hcurrent⟩
      | some e =>
        have hcarries : canary.Carries .remoteConfigFailed := by
          simpa [isGuarded, hpush, CanaryStatus.Carries] using hG
        refine hcurrent.lands hI rfl rfl rfl rfl (fun hop => absurd rfl hop) ?_
        rintro r ⟨⟩
        exact hcarries
  | storing =>
    cases h
    trivial
  | returned => cases h

theorem status_advance (ht : Ok σ ⟨op, stage⟩) (hop : op ≠ .rollback)
    (h : advance σ op stage c = some (σ', stage')) (hrow : σ.canaries.get? id = some row)
    (hterminal : row.status.isTerminal = true) :
    ∃ row', σ'.canaries.get? id = some row' ∧ row'.status = row.status := by
  cases advance_writes h with
  | create canary rows hrows => exact ⟨row, KeyedTable.get?_of_insert hrows hrow, rfl⟩
  | refresh => exact ht.1.status_store hop hrow hterminal
  | store => exact Lands.status_store ht hop hrow hterminal
  | nothing | push => exact ⟨row, hrow, rfl⟩

theorem get?_report {w configID uid : String} {r : Report} {now : Time}
    (hrow : σ.canaries.get? id = some row) (hinactive : row.status.isActive = false) :
    (updateCanaryTargetStatus σ.canaries w configID uid r now).get? id = some row := by
  rw [get?_updateCanaryTargetStatus, hrow, Option.map_some, hinactive, Bool.false_and]
  rfl

theorem isActive_of_isTerminal {s : CanaryState} (h : s.isTerminal = true) :
    s.isActive = false := by
  cases s <;> first | rfl | cases h

/-- What an event does: no row that was stopped or is terminal changes. -/
theorem Inv.arrive {e : Event} {new : Option Thread} (hI : Inv σ)
    (h : arrive σ e = some (σ', new)) :
    Inv σ' ∧ (∀ n ∈ new, Ok σ' n) ∧ ∀ id row, σ.canaries.get? id = some row →
      row.status.isTerminal = true → σ'.canaries.get? id = some row := by
  cases e with
  | report w configID uid r now =>
    cases h
    refine ⟨⟨fun id row hrow reason hr => ?_, fun id hnone => ?_⟩, by simp,
      fun id row hrow hterminal => get?_report hrow (isActive_of_isTerminal hterminal)⟩
    · rw [get?_updateCanaryTargetStatus] at hrow
      obtain ⟨old, hold, rfl⟩ := Option.map_eq_some_iff.mp hrow
      obtain ⟨hinactive, hcarries⟩ := hI.carried id old hold reason hr
      rw [hinactive, Bool.false_and, if_neg Bool.false_ne_true]
      exact ⟨hinactive, hcarries⟩
    · rw [get?_updateCanaryTargetStatus, Option.map_eq_none_iff] at hnone
      exact hI.unknown id hnone
  | raiseAlert w | resolveAlert w =>
    cases h
    exact ⟨⟨hI.carried, hI.unknown⟩, by simp, fun _ _ hrow _ => hrow⟩
  | start id w configHash targets now =>
    cases h
    refine ⟨hI, ?_, fun _ _ hrow _ => hrow⟩
    rintro n ⟨⟩
    exact rfl
  | get w id | promote w id | abort w id | rollback w id =>
    cases h
    refine ⟨hI, ?_, fun _ _ hrow _ => hrow⟩
    rintro n ⟨⟩
    trivial

theorem ok_of_isReturned {t : Thread} (h : t.isReturned = true) (σ : Shared) : Ok σ t := by
  obtain ⟨op, stage⟩ := t
  cases stage <;> trivial

theorem not_isReturned_of_advance {t : Thread}
    (h : Canary.advance σ t.op t.stage c = some (σ', stage')) : t.isReturned = false := by
  obtain ⟨op, stage⟩ := t
  cases stage <;> first | rfl | cases h

def guards : Pool.Guards Shared Thread Choice Event where
  mover σ t c := isGuarded σ t c = true
  present _ u _ := u.isReturned = true

theorem program_keeps : Pool.KeepsUnder program guards Inv Ok Apart where
  symm _ _ h := h.symm
  resume σ t c σ' t' new hI ht hG hm := by
    obtain ⟨stage', h, rfl, rfl⟩ := resume_eq_some.mp hm
    exact ⟨hI.advance ht h, Ok.advance hI ht hG h, by simp⟩
  others σ t c σ' t' new u hI ht hm hu happ _ := by
    obtain ⟨stage', h, rfl, rfl⟩ := resume_eq_some.mp hm
    have hreturned : u.isReturned = true := by
      rcases happ with ht | hu
      · rw [not_isReturned_of_advance h] at ht
        cases ht
      · exact hu
    exact ⟨ok_of_isReturned hreturned σ', .inr hreturned, by simp⟩
  arrive σ e σ' new hI _ hm := ⟨(hI.arrive hm).1, (hI.arrive hm).2.1⟩
  arriveOthers σ e σ' new u _ _ _ hreturned :=
    ⟨ok_of_isReturned hreturned σ', fun _ _ => .inr hreturned⟩

end Sequential

/-- Requests, reports and alert changes come one after the other. -/
def oneAtATime (p : State) : Action → Bool
  | .resume _ _ => true
  | .arrive _ => p.threads.all Thread.isReturned

def guarded (p : State) : Action → Bool
  | .resume i c => p.threads[i]?.all fun t => isGuarded p.shared t c
  | .arrive _ => true

def isRollback (p : State) : Action → Bool
  | .resume i _ => p.threads[i]?.any fun t => t.op = .rollback
  | .arrive _ => false

namespace Sequential

variable {a : Action} {p : State}

theorem meets_of_guarded
    (h : oneAtATime p a = true ∧ guarded p a = true) (p' : State) : guards.Meets p p' a := by
  cases a with
  | resume i c =>
    refine ⟨fun t ht => ?_, fun _ _ => trivial⟩
    have hg := h.2
    simp only [guarded, ht, Option.all_some] at hg
    exact hg
  | arrive e => exact ⟨trivial, fun u hu => List.all_eq_true.mp h.1 u hu⟩

theorem step_holds {p' : State} (h : p.Holds Inv Ok Apart)
    (hg : oneAtATime p a = true ∧ guarded p a = true) (hs : step p a = some p') :
    p'.Holds Inv Ok Apart :=
  program_keeps.step h (meets_of_guarded hg p') hs

theorem step_terminal {p' : State} (h : p.Holds Inv Ok Apart)
    (hs : step p a = some p') (hop : isRollback p a = false)
    (hrow : p.shared.canaries.get? id = some row) (hterminal : row.status.isTerminal = true) :
    ∃ row', p'.shared.canaries.get? id = some row' ∧ row'.status = row.status := by
  cases a with
  | resume i c =>
    obtain ⟨t, s, t', new, ht, hm, rfl⟩ := Pool.Program.step_resume_eq_some.mp hs
    obtain ⟨stage', hadv, -, -⟩ := resume_eq_some.mp hm
    have hne : t.op ≠ .rollback := by
      simpa [isRollback, ht] using hop
    exact status_advance (h.thread t (List.mem_of_getElem? ht)) hne hadv hrow hterminal
  | arrive e =>
    obtain ⟨s, new, hm, rfl⟩ := Pool.Program.step_arrive_eq_some.mp hs
    exact ⟨row, (h.shared.arrive hm).2.2 id row hrow hterminal, rfl⟩

end Sequential

theorem canary_terminal_states_final {canaries : Canaries} {as : List Action} {p : State}
    (hkeep : Meets step (fun p a => oneAtATime p a = true ∧ guarded p a = true)
      (initial canaries) as)
    (hrun : run step (initial canaries) as = some p) :
    (∀ a p', step p a = some p' → isRollback p a = false → ∀ id row,
      p.shared.canaries.get? id = some row → row.status.isTerminal = true →
        ∃ row', p'.shared.canaries.get? id = some row' ∧ row'.status = row.status) ∧
    ∀ w id canary, getCanaryStatus p.shared.canaries w id = some canary →
      ∀ reason ∈ p.shared.recorded id, reason ∈ canary.stopReasons := by
  have hinit : Pool.Holds Sequential.Inv Sequential.Ok Sequential.Apart (initial canaries) := by
    refine ⟨⟨fun _ _ _ r hr => ?_, fun _ _ => rfl⟩, by simp [initial], by simp [initial]⟩
    cases hr
  have hp : Pool.Holds Sequential.Inv Sequential.Ok Sequential.Apart p :=
    run_invariant_of_meets (fun _ _ _ hq hg hs => Sequential.step_holds hq hg hs) hinit hkeep hrun
  constructor
  · intro a p' hs hop id row hrow hterminal
    exact Sequential.step_terminal hp hs hop hrow hterminal
  · intro w id canary hget reason hreason
    obtain ⟨row, hrow, -, rfl⟩ := getCanaryStatus_eq_some hget
    exact mem_stopReasons_recount.mpr (hp.shared.carried id row hrow reason hreason).2

/-- A canary on one of two instances, which applies the config, and its promotion. -/
def promotedRun : List Action :=
  [.arrive (.start "k" "w" "h" [("a", "pod-a")] 1), .resume 0 {}, .resume 0 {}, .resume 0 {},
    .arrive (.report "w" "h" "a" .applied 2), .arrive (.promote "w" "k"), .resume 1 {},
    .resume 1 { instances := [⟨"a", true, 1, true, true⟩, ⟨"b", true, 1, true, true⟩] },
    .resume 1 { instances := [⟨"a", true, 1, true, true⟩, ⟨"b", true, 1, true, true⟩] },
    .resume 1 {}, .resume 1 {}, .resume 1 {}]

/-- The agent of the canary goes away and a GET writes its copy back. -/
def promotedThenRead : List Action :=
  promotedRun ++ [.arrive (.get "w" "k"), .resume 2 {}, .resume 2 {}]

theorem canary_terminal_states_final_degraded :
    ∃ p p' row row', run step (initial .empty) promotedThenRead = some p ∧
      step p (.resume 2 {}) = some p' ∧ p.shared.canaries.get? "k" = some row ∧
      row.status = .promoted ∧ p'.shared.canaries.get? "k" = some row' ∧
      row'.status = row.status ∧ row'.stopReasons = [.noHeartbeat] := by
  have hkeep : Meets step (fun p a => oneAtATime p a = true ∧ guarded p a = true)
      (initial .empty) promotedThenRead := by
    decide +kernel
  obtain ⟨p, hp, hop, ⟨row, hrow, hstatus⟩, p', hp', row', hrow', hreasons⟩ :
      ∃ p, run step (initial .empty) promotedThenRead = some p ∧
        isRollback p (.resume 2 {}) = false ∧
        (∃ row, p.shared.canaries.get? "k" = some row ∧ row.status = .promoted) ∧
        ∃ p', step p (.resume 2 {}) = some p' ∧
          ∃ row', p'.shared.canaries.get? "k" = some row' ∧ row'.stopReasons = [.noHeartbeat] := by
    decide +kernel
  obtain ⟨row₁, hrow₁, hsame⟩ := (canary_terminal_states_final hkeep hp).1 _ p' hp' hop "k" row
    hrow (by rw [hstatus]; rfl)
  cases hrow'.symm.trans hrow₁
  exact ⟨p, p', row, row', hp, hp', hrow, hstatus, hrow', hsame, hreasons⟩

/-- A `canary_stop` alert is raised, and a GET follows. -/
def readUnderAlert : List Action :=
  [.arrive (.raiseAlert "w"), .arrive (.get "w" "k"), .resume 2 {},
    .resume 2 { instances := [⟨"a", true, 1, true, true⟩] }, .resume 2 {}]

/-- The GET turns the promoted canary into a stopped one, and the reason that it records is not
there when the canary is read again. -/
theorem read_overwrites_promoted :
    Meets step (fun p a => oneAtATime p a = true) (initial .empty)
      (promotedRun ++ readUnderAlert) ∧
    ∃ p q row canary, run step (initial .empty) promotedRun = some p ∧
      run step p readUnderAlert = some q ∧
      p.shared.canaries.get? "k" = some row ∧ row.status = .promoted ∧
      getCanaryStatus q.shared.canaries "w" "k" = some canary ∧
      canary.status = .stopped ∧ .alertTriggered ∈ q.shared.recorded "k" ∧
      .alertTriggered ∉ canary.stopReasons := by
  simp only [exists_and_left]
  decide +kernel

end OtelMagnify.Canary
