import OtelMagnify.Push.Store
import Mathlib.Logic.Function.Basic

/-! What `HydratePushStatus` makes of the instance list. The last report of every instance is
the abstract content of a row: the time-dependent `no_status` overlay does not touch it, a
stored report replaces it for one instance, and the row status is a function of it. -/
namespace OtelMagnify.Push

/-- The statuses an agent can report. -/
inductive Report where
  | applying | applied | failed
  deriving DecidableEq, Repr

def Report.status : Report → PushStatus
  | .applying => .applying
  | .applied => .applied
  | .failed => .failed

def reportOf (status : PushStatus) : Option Report :=
  match canonicalInstanceStatus status with
  | .applying => some .applying
  | .applied => some .applied
  | .failed => some .failed
  | _ => none

structure RemoteConfigStatus where
  status : Report
  configHash : String
  errorMessage : String
  updatedAt : Time
  pushStatus : Option WorkloadConfig := none
  deriving DecidableEq, Repr

def sanitizeRemoteConfigErrors (wc : WorkloadConfig) : WorkloadConfig :=
  { wc with
    errorMessage := sanitizeRemoteConfigErrorMessage wc.errorMessage
    instanceStatuses := wc.instanceStatuses.map fun i =>
      { i with errorMessage := sanitizeRemoteConfigErrorMessage i.errorMessage }
    errorGroups := wc.errorGroups.map fun g =>
      { g with sampleMessage := sanitizeRemoteConfigErrorMessage g.sampleMessage }
    timeline := wc.timeline.map fun t =>
      { t with message := sanitizeRemoteConfigErrorMessage t.message } }

/-- `Sanitized`, and `Sanitize` in place. -/
def RemoteConfigStatus.sanitized (r : RemoteConfigStatus) : RemoteConfigStatus :=
  { r with
    errorMessage := sanitizeRemoteConfigErrorMessage r.errorMessage
    pushStatus := r.pushStatus.map sanitizeRemoteConfigErrors }

@[simp] theorem reportOf_status (r : Report) : reportOf r.status = some r := by
  cases r <;> rfl

section Tally

theorem foldl_add_failed (insts : List WorkloadConfigInstanceStatus) (t : Tally) :
    (insts.foldl Tally.add t).failed =
      t.failed + insts.countP fun i => i.status = .failed := by
  induction insts generalizing t with
  | nil => simp
  | cons i insts ih =>
    rw [List.foldl_cons, ih, List.countP_cons]
    cases hi : i.status <;> (simp [Tally.add, hi]; try omega)

theorem foldl_add_allApplied (insts : List WorkloadConfigInstanceStatus) (t : Tally) :
    (insts.foldl Tally.add t).allApplied =
      (t.allApplied && insts.all fun i => i.status = .applied) := by
  induction insts generalizing t with
  | nil => simp
  | cons i insts ih =>
    rw [List.foldl_cons, ih, List.all_cons]
    cases hi : i.status <;> simp [Tally.add, hi]

theorem foldl_add_hasApplyingOrApplied (insts : List WorkloadConfigInstanceStatus)
    (t : Tally) :
    (insts.foldl Tally.add t).hasApplyingOrApplied =
      (t.hasApplyingOrApplied ||
        insts.any fun i => i.status = .applying || i.status = .applied) := by
  induction insts generalizing t with
  | nil => simp
  | cons i insts ih =>
    rw [List.foldl_cons, ih, List.any_cons]
    cases hi : i.status <;> simp [Tally.add, hi]

theorem tally_failed_pos (insts : List WorkloadConfigInstanceStatus) :
    0 < (tally insts).failed ↔ ∃ i ∈ insts, i.status = .failed := by
  rw [tally, foldl_add_failed, Nat.zero_add, List.countP_pos_iff]
  simp

theorem tally_allApplied (insts : List WorkloadConfigInstanceStatus) :
    (tally insts).allApplied = true ↔ insts ≠ [] ∧ ∀ i ∈ insts, i.status = .applied := by
  rw [tally, foldl_add_allApplied]
  simp [List.length_pos_iff]

theorem tally_hasApplyingOrApplied (insts : List WorkloadConfigInstanceStatus) :
    (tally insts).hasApplyingOrApplied = true ↔
      ∃ i ∈ insts, i.status = .applying ∨ i.status = .applied := by
  rw [tally, foldl_add_hasApplyingOrApplied]
  simp

end Tally

def verdict (failed applied : Prop) [Decidable failed] [Decidable applied] : PushStatus :=
  if failed then .failed else if applied then .applied else .applying

theorem aggregateStatus_eq_verdict (insts : List WorkloadConfigInstanceStatus)
    (sentAt : Option Time) (status : PushStatus)
    (hrep : ∃ i ∈ insts, (reportOf i.status).isSome) (hcanon : ∀ i ∈ insts,
      canonicalInstanceStatus i.status = i.status) :
    aggregateStatus (tally insts) insts.length sentAt status =
      verdict (∃ i ∈ insts, i.status = .failed) (∀ i ∈ insts, i.status = .applied) := by
  obtain ⟨j, hj, hjr⟩ := hrep
  have hne : insts ≠ [] := List.ne_nil_of_mem hj
  have hlen : insts.length ≠ 0 := by simpa using hne
  unfold aggregateStatus verdict
  rw [if_neg hlen]
  by_cases hf : ∃ i ∈ insts, i.status = .failed
  · rw [if_pos ((tally_failed_pos insts).mpr hf), if_pos hf]
  · rw [if_neg (mt (tally_failed_pos insts).mp hf), if_neg hf]
    by_cases ha : ∀ i ∈ insts, i.status = .applied
    · rw [if_pos ((tally_allApplied insts).mpr ⟨hne, ha⟩), if_pos ha]
    · have hna : ¬ (tally insts).allApplied = true := fun h => ha ((tally_allApplied insts).mp h).2
      have hap : (tally insts).hasApplyingOrApplied = true := by
        refine (tally_hasApplyingOrApplied insts).mpr ⟨j, hj, ?_⟩
        have hjf : j.status ≠ .failed := fun h => hf ⟨j, hj, h⟩
        have hc := hcanon j hj
        revert hjr hjf hc
        cases j.status <;> simp [reportOf, canonicalInstanceStatus, canonicalPushStatus]
      rw [if_neg hna, if_neg ha, if_pos hap]

section Hydrate

variable (expired : Bool) (configID : String) (inst : WorkloadConfigInstanceStatus)

@[simp] theorem hydrateInstance_uid :
    (hydrateInstance expired configID inst).instanceUID = inst.instanceUID := by
  unfold hydrateInstance
  dsimp only
  split <;> rfl

/-- The overlay and the normalization keep what the instance reported. -/
@[simp] theorem reportOf_hydrateInstance :
    reportOf (hydrateInstance expired configID inst).status = reportOf inst.status := by
  unfold hydrateInstance normalizeInstance
  dsimp only
  split
  · rename_i h
    simp only [Bool.and_eq_true, Bool.or_eq_true, decide_eq_true_eq] at h
    have hnone : reportOf inst.status = none := by
      unfold reportOf
      rcases h.2 with h | h <;> rw [h]
    rw [hnone]
    rfl
  · cases inst.status <;> rfl

theorem canonical_hydrateInstance :
    canonicalInstanceStatus (hydrateInstance expired configID inst).status =
      (hydrateInstance expired configID inst).status := by
  unfold hydrateInstance normalizeInstance
  dsimp only
  split
  · rfl
  · cases inst.status <;> rfl

end Hydrate

/-- The last report of each instance of a list: `none` for an instance that is not in it and
`some none` for one that has not reported. -/
def lastReports (insts : List WorkloadConfigInstanceStatus) (uid : String) :
    Option (Option Report) :=
  (insts.find? fun i => i.instanceUID = uid).map fun i => reportOf i.status

theorem lastReports_hydrate (expired : Bool) (configID : String)
    (insts : List WorkloadConfigInstanceStatus) :
    lastReports (insts.map (hydrateInstance expired configID)) = lastReports insts := by
  funext uid
  simp [lastReports, List.find?_map, Function.comp_def, Option.map_map]

theorem lastReports_mergeInstance (configID uid : String) (r : Report) (err : String)
    (at_ : Time) (insts : List WorkloadConfigInstanceStatus) :
    lastReports (mergeInstance configID uid r.status err at_ insts) =
      Function.update (lastReports insts) uid (some (some r)) := by
  funext u
  induction insts with
  | nil =>
    by_cases hu : u = uid
    · subst hu; simp [lastReports, mergeInstance]
    · simp [lastReports, mergeInstance, Ne.symm hu, hu]
  | cons i insts ih =>
    unfold lastReports at *
    rw [mergeInstance]
    by_cases hi : i.instanceUID = uid
    · rw [if_pos hi]
      by_cases hu : u = uid
      · subst hu; simp [hi]
      · have hne : i.instanceUID ≠ u := fun h => hu (h.symm.trans hi)
        simp [hne, hu]
    · rw [if_neg hi]
      by_cases hiu : i.instanceUID = u
      · have hne : u ≠ uid := fun h => hi (hiu.trans h)
        simp [hiu, hne]
      · simpa [hiu, Function.update_apply] using ih

theorem mergeInstance_uids (configID uid : String) (st : PushStatus) (err : String) (at_ : Time)
    (insts : List WorkloadConfigInstanceStatus) :
    (mergeInstance configID uid st err at_ insts).map (·.instanceUID) =
      if uid ∈ insts.map (·.instanceUID) then insts.map (·.instanceUID)
      else insts.map (·.instanceUID) ++ [uid] := by
  induction insts with
  | nil => simp [mergeInstance]
  | cons i insts ih =>
    unfold mergeInstance
    by_cases hi : i.instanceUID = uid
    · simp [hi]
    · rw [if_neg hi, List.map_cons, ih]
      by_cases hm : uid ∈ insts.map (·.instanceUID)
      · simp [hm]
      · simp [hm, Ne.symm hi]

variable {i : WorkloadConfigInstanceStatus} {insts : List WorkloadConfigInstanceStatus}

/-- In a list with distinct UIDs an entry is what `lastReports` finds for its UID. -/
theorem lastReports_of_mem (hnd : (insts.map (·.instanceUID)).Nodup)
    (hi : i ∈ insts) : lastReports insts i.instanceUID = some (reportOf i.status) := by
  obtain ⟨j, hj⟩ : ∃ j, insts.find? (fun j => j.instanceUID = i.instanceUID) = some j := by
    rw [← Option.isSome_iff_exists, List.find?_isSome]
    exact ⟨i, hi, by simp⟩
  have hjm := List.mem_of_find?_eq_some hj
  have hju : j.instanceUID = i.instanceUID := by simpa using List.find?_some hj
  have hij : j = i := List.inj_on_of_nodup_map hnd hjm hi hju
  simp [lastReports, hj, hij]

theorem exists_mem_of_lastReports {uid : String}
    {o : Option Report} (h : lastReports insts uid = some o) :
    ∃ i ∈ insts, i.instanceUID = uid ∧ reportOf i.status = o := by
  obtain ⟨i, hi, hr⟩ := Option.map_eq_some_iff.mp h
  exact ⟨i, List.mem_of_find?_eq_some hi, by simpa using List.find?_some hi, hr⟩

section MergeReport

variable (content : String) (scanNow clock : Time) (uid : String) (r : Report) (err : String)
  (updatedAt : Time) (row : WorkloadConfigRow)

theorem mergeReport_instanceStatuses (st : PushStatus) :
    ∃ e₁ e₂ at_, (mergeReport content scanNow clock uid st err updatedAt row).instanceStatuses =
      (mergeInstance row.configID uid st (sanitizeRemoteConfigErrorMessage err) at_
        (row.instanceStatuses.map (hydrateInstance e₁ row.configID))).map
          (hydrateInstance e₂ row.configID) :=
  ⟨_, _, _, rfl⟩

theorem mergeReport_lastReports :
    lastReports (mergeReport content scanNow clock uid r.status err updatedAt
      row).instanceStatuses =
      Function.update (lastReports row.instanceStatuses) uid (some (some r)) := by
  obtain ⟨e₁, e₂, at_, h⟩ :=
    mergeReport_instanceStatuses content scanNow clock uid err updatedAt row r.status
  rw [h, lastReports_hydrate, lastReports_mergeInstance, lastReports_hydrate]

theorem mergeReport_nodup (st : PushStatus)
    (hnd : (row.instanceStatuses.map (·.instanceUID)).Nodup) :
    ((mergeReport content scanNow clock uid st err updatedAt row).instanceStatuses.map
      (·.instanceUID)).Nodup := by
  obtain ⟨e₁, e₂, at_, h⟩ :=
    mergeReport_instanceStatuses content scanNow clock uid err updatedAt row st
  have huids : ∀ (e : Bool) (l : List WorkloadConfigInstanceStatus),
      (l.map (hydrateInstance e row.configID)).map (·.instanceUID) = l.map (·.instanceUID) := by
    intro e l
    simp [Function.comp_def]
  rw [h, huids, mergeInstance_uids, huids]
  split
  · exact hnd
  · rename_i hm
    exact List.nodup_append.mpr ⟨hnd, by simp, fun a ha b hb hab =>
      hm ((List.mem_singleton.mp hb) ▸ hab ▸ ha)⟩

theorem mergeReport_status :
    (mergeReport content scanNow clock uid r.status err updatedAt row).status =
      let insts := (mergeReport content scanNow clock uid r.status err updatedAt
        row).instanceStatuses
      verdict (∃ i ∈ insts, i.status = .failed) (∀ i ∈ insts, i.status = .applied) := by
  have hlast : lastReports (mergeReport content scanNow clock uid r.status err updatedAt
      row).instanceStatuses uid = some (some r) := by
    rw [mergeReport_lastReports, Function.update_self]
  obtain ⟨i, hi, -, hri⟩ := exists_mem_of_lastReports hlast
  refine aggregateStatus_eq_verdict _ _ _ ⟨i, hi, by simp [hri]⟩ ?_
  intro j hj
  obtain ⟨k, -, rfl⟩ := List.mem_map.mp hj
  exact canonical_hydrateInstance _ _ k

end MergeReport

/-- A row status agrees with the targets' last reports: `last uid` is `none` when the row does
not list `uid`, and `some none` when that target has not reported. -/
structure Settles (last : String → Option (Option Report)) (status : PushStatus) : Prop where
  failed : (∃ uid, last uid = some (some .failed)) → status = .failed
  applied : (∀ uid, last uid ≠ none → last uid = some (some .applied)) → status = .applied
  applying : (¬ ∃ uid, last uid = some (some .failed)) →
    (¬ ∀ uid, last uid ≠ none → last uid = some (some .applied)) → status = .applying

theorem Settles.unique {last : String → Option (Option Report)} {st st' : PushStatus}
    (h : Settles last st) (h' : Settles last st') : st = st' := by
  by_cases hf : ∃ uid, last uid = some (some .failed)
  · rw [h.failed hf, h'.failed hf]
  · by_cases ha : ∀ uid, last uid ≠ none → last uid = some (some .applied)
    · rw [h.applied ha, h'.applied ha]
    · rw [h.applying hf ha, h'.applying hf ha]

theorem status_of_reportOf {r : Report} (h : reportOf i.status = some r) : i.status = r.status := by
  revert h
  cases i.status <;> cases r <;> simp [reportOf, Report.status, canonicalInstanceStatus,
    canonicalPushStatus]

theorem verdict_settles (hnd : (insts.map (·.instanceUID)).Nodup) :
    Settles (lastReports insts)
      (verdict (∃ i ∈ insts, i.status = .failed) (∀ i ∈ insts, i.status = .applied)) := by
  have hfail : (∃ uid, lastReports insts uid = some (some .failed)) ↔
      ∃ i ∈ insts, i.status = .failed := by
    constructor
    · rintro ⟨uid, h⟩
      obtain ⟨i, hi, -, hr⟩ := exists_mem_of_lastReports h
      exact ⟨i, hi, status_of_reportOf hr⟩
    · rintro ⟨i, hi, hs⟩
      exact ⟨i.instanceUID, by rw [lastReports_of_mem hnd hi, hs]; rfl⟩
  have happ : (∀ uid, lastReports insts uid ≠ none →
      lastReports insts uid = some (some .applied)) ↔ ∀ i ∈ insts, i.status = .applied := by
    constructor
    · intro h i hi
      have hl := lastReports_of_mem hnd hi
      have ha := h i.instanceUID (by simp [hl])
      exact status_of_reportOf (Option.some.inj (hl.symm.trans ha))
    · intro h uid hu
      obtain ⟨o, ho⟩ := Option.ne_none_iff_exists'.mp hu
      obtain ⟨i, hi, -, hr⟩ := exists_mem_of_lastReports ho
      rw [ho, ← hr, h i hi]
      rfl
  have hexcl : (∀ i ∈ insts, i.status = .applied) → ¬ ∃ i ∈ insts, i.status = .failed := by
    rintro ha ⟨i, hi, hf⟩
    exact absurd (hf.symm.trans (ha i hi)) (by decide)
  refine ⟨fun h => ?_, fun h => ?_, fun hf ha => ?_⟩
  · rw [verdict, if_pos (hfail.mp h)]
  · rw [verdict, if_neg (hexcl (happ.mp h)), if_pos (happ.mp h)]
  · rw [verdict, if_neg (mt hfail.mpr hf), if_neg (mt happ.mpr ha)]

/-- The status of a row as a scan before its timeout shows it. -/
def WorkloadConfigRow.scannedStatus (r : WorkloadConfigRow) : PushStatus :=
  let insts := r.instanceStatuses.map (hydrateInstance false r.configID)
  aggregateStatus (tally insts) insts.length r.sentAt (canonicalPushStatus r.status)

theorem status_hydrateInstance_iff {expired : Bool} {configID : String}
    {r : Report} :
    (hydrateInstance expired configID i).status = r.status ↔ reportOf i.status = some r := by
  rw [← reportOf_hydrateInstance expired configID]
  constructor
  · intro h
    rw [h, reportOf_status]
  · exact status_of_reportOf

/-- The overlay of a timeout does not reach the status of a row. -/
theorem aggregateStatus_hydrate (expired expired' : Bool) (configID : String)
    (insts : List WorkloadConfigInstanceStatus) (sentAt : Option Time) (status : PushStatus) :
    aggregateStatus (tally (insts.map (hydrateInstance expired configID))) insts.length sentAt
        status =
      aggregateStatus (tally (insts.map (hydrateInstance expired' configID))) insts.length sentAt
        status := by
  have hstatus (b : Bool) (r : Report) (i : WorkloadConfigInstanceStatus) :
      (hydrateInstance b configID i).status = r.status ↔ reportOf i.status = some r :=
    status_hydrateInstance_iff
  have hfailed (b : Bool) : 0 < (tally (insts.map (hydrateInstance b configID))).failed ↔
      ∃ i ∈ insts, reportOf i.status = some .failed := by
    simp [tally_failed_pos, ← hstatus b, Report.status]
  have hall (b : Bool) : (tally (insts.map (hydrateInstance b configID))).allApplied = true ↔
      insts ≠ [] ∧ ∀ i ∈ insts, reportOf i.status = some .applied := by
    simp [tally_allApplied, ← hstatus b, Report.status]
  have hany (b : Bool) :
      (tally (insts.map (hydrateInstance b configID))).hasApplyingOrApplied = true ↔
        ∃ i ∈ insts, reportOf i.status = some .applying ∨ reportOf i.status = some .applied := by
    simp [tally_hasApplyingOrApplied, ← hstatus b, Report.status]
  simp only [aggregateStatus, hfailed, hall, hany]

theorem status_scanWorkloadConfig (content : String) (now : Time) (r : WorkloadConfigRow) :
    (scanWorkloadConfig content now r).status = r.scannedStatus := by
  simp only [scanWorkloadConfig, hydratePushStatus, deriveRow, WorkloadConfigRow.scannedStatus,
    List.length_map]
  exact aggregateStatus_hydrate _ false r.configID r.instanceStatuses r.sentAt _

end OtelMagnify.Push
