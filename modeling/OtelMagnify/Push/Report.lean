import OtelMagnify.Lib.Interleaving
import OtelMagnify.Push.Aggregate

/-! Agent status reports. `handleRemoteConfigStatus` handles a report with two store calls,
`UpdateWorkloadConfigStatus` and then `UpdateWorkloadConfigInstanceStatus`; the calls of
different instances interleave freely. -/
namespace OtelMagnify.Push
open Interleaving

/-- One store call made for a report. The clocks and the texts are chosen by the schedule. -/
inductive ReportCall where
  | rowStatus (uid : String) (report : Report) (err : String)
  | instanceStatus (uid : String) (report : Report) (err content : String)
      (scanNow clock updatedAt : Time)
  deriving DecidableEq, Repr

namespace ReportCall

def uid : ReportCall → String
  | rowStatus uid .. => uid
  | instanceStatus uid .. => uid

/-- Which of the two calls it is (`true` for the instance update), and the report. -/
def erase : ReportCall → Bool × Report
  | rowStatus _ report _ => (false, report)
  | instanceStatus _ report .. => (true, report)

def apply (w h : String) (db : WorkloadConfigs) : ReportCall → WorkloadConfigs
  | rowStatus _ report err => updateWorkloadConfigStatus db w h report.status err
  | instanceStatus uid report err content scanNow clock updatedAt =>
    updateWorkloadConfigInstanceStatus db w h uid report.status err content scanNow clock
      updatedAt

def stores (uid : String) (c : ReportCall) : Option Report :=
  if c.uid = uid then (if c.erase.1 then some c.erase.2 else none) else none

end ReportCall

open WorkloadConfigRow

/-- Either call is one `UPDATE` of rows of the reported hash. -/
theorem ReportCall.apply_eq_update (c : ReportCall) (w h : String) (db : WorkloadConfigs) :
    ∃ (sel : WorkloadConfigRow → Bool) (f : WorkloadConfigRow → WorkloadConfigRow)
      (hf : ∀ r, (f r).key = r.key), c.apply w h db = db.update sel f hf ∧
      ∀ r, sel r = true → r.configID = h := by
  have hnewest : ∀ r, db.isNewest (isPushOf w h) appliedAt r = true →
      r.configID = h := by
    intro r hr
    have hp := (KeyedTable.isNewest_iff.mp hr).1
    exact (by simpa [isPushOf] using hp : r.workloadID = w ∧ r.configID = h).2
  cases c with
  | rowStatus uid report err =>
    exact ⟨_, _, key_setStatus report.status err, rfl, hnewest⟩
  | instanceStatus uid report err content scanNow clock updatedAt =>
    rw [apply, updateWorkloadConfigInstanceStatus]
    split
    · exact ⟨_, id, fun _ => rfl, (db.update_eq_self id fun _ => rfl).symm, by simp⟩
    · rename_i row hrow
      refine ⟨_, _, key_mergeReport content scanNow clock uid report.status err updatedAt, rfl, ?_⟩
      intro r hr
      have hk : r.key = row.key := by simpa using hr
      have hc : r.configID = row.configID := congrArg (fun k => k.2.1) hk
      exact hc.trans (latestByHash_isPushOf hrow).2

theorem foldl_apply_keys (w h : String) (calls : List ReportCall) (db : WorkloadConfigs) :
    (calls.foldl (ReportCall.apply w h) db).rows.map key =
      db.rows.map key := by
  induction calls generalizing db with
  | nil => rfl
  | cons c calls ih =>
    obtain ⟨sel, f, hf, heq, -⟩ := c.apply_eq_update w h db
    rw [List.foldl_cons, ih, heq, KeyedTable.map_key_update]

variable {calls : List ReportCall} {db : WorkloadConfigs} {h w : String} {row : WorkloadConfigRow}

theorem mem_of_mem_foldl_apply
    {r : WorkloadConfigRow} (hr : r ∈ (calls.foldl (ReportCall.apply w h) db).rows)
    (hne : r.configID ≠ h) : r ∈ db.rows := by
  induction calls generalizing db with
  | nil => exact hr
  | cons c calls ih =>
    obtain ⟨sel, f, hf, heq, hsel⟩ := c.apply_eq_update w h db
    have hr' := ih hr
    rw [heq] at hr'
    refine KeyedTable.mem_of_mem_update hr' fun q hq hk => hne ?_
    have hc : q.configID = r.configID := congrArg (fun k => k.2.1) hk
    exact hc.symm.trans (hsel q hq)

theorem latestByHash_foldl_apply_key (w h w' h' : String) (calls : List ReportCall)
    (db : WorkloadConfigs) :
    (latestByHash (calls.foldl (ReportCall.apply w h) db) w' h').map key =
      (latestByHash db w' h').map key := by
  induction calls generalizing db with
  | nil => rfl
  | cons c calls ih =>
    obtain ⟨sel, f, hf, heq, -⟩ := c.apply_eq_update w h db
    rw [List.foldl_cons, ih, heq, latestByHash_update, Option.map_map]
    refine Option.map_congr fun r _ => ?_
    rw [Function.comp_apply]
    split
    · exact hf r
    · rfl

/-- The calls made for the reports of one instance, in order. -/
def reportProgram (reports : List Report) : List (Bool × Report) :=
  reports.flatMap fun r => [(false, r), (true, r)]

def InterleavesReports (reports : String → List Report) (calls : List ReportCall) : Prop :=
  Interleaves ReportCall.uid ReportCall.erase (fun uid => reportProgram (reports uid)) calls

theorem reportProgram_getLast? {reports : List Report} {c : Bool × Report}
    (h : (reportProgram reports).getLast? = some c) : c.1 = true := by
  rcases reports.eq_nil_or_concat with rfl | ⟨pre, r, rfl⟩
  · simp [reportProgram] at h
  · simp only [reportProgram, List.concat_eq_append, List.flatMap_append, List.flatMap_cons,
      List.flatMap_nil, List.append_nil] at h
    rw [List.getLast?_append] at h
    have hc : (true, r) = c := by simpa using h
    exact hc ▸ rfl

theorem reportProgram_filterMap (reports : List Report) :
    ((reportProgram reports).filterMap fun c => if c.1 then some c.2 else none) = reports := by
  induction reports with
  | nil => rfl
  | cons r reports ih =>
    rw [reportProgram, List.flatMap_cons, List.filterMap_append]
    simpa [reportProgram] using ih

theorem InterleavesReports.stores_eq {reports : String → List Report}
    (h : InterleavesReports reports calls) (uid : String) :
    calls.filterMap (ReportCall.stores uid) = reports uid := by
  have hf := h.filterMap_eq uid fun c => if c.1 then some c.2 else none
  rw [reportProgram_filterMap] at hf
  exact hf

/-- Both calls of a report act on the newest row, which stays the newest one. -/
theorem latestByHash_apply (hrow : latestByHash db w h = some row) (c : ReportCall) :
    ∃ row', latestByHash (c.apply w h db) w h = some row' ∧
      (∀ uid, lastReports row'.instanceStatuses uid =
        match c.stores uid with
        | some r => some (some r)
        | none => lastReports row.instanceStatuses uid) ∧
      ((row.instanceStatuses.map (·.instanceUID)).Nodup →
        (row'.instanceStatuses.map (·.instanceUID)).Nodup ∧
        (c.erase.1 = true → Settles (lastReports row'.instanceStatuses) row'.status)) := by
  cases c with
  | rowStatus uid report err =>
    refine ⟨_, latestByHash_updateWorkloadConfigStatus hrow _ _, ?_, ?_⟩
    · intro u
      simp [ReportCall.stores, ReportCall.erase, setStatus]
    · intro hnd
      exact ⟨hnd, by simp [ReportCall.erase]⟩
  | instanceStatus uid report err content scanNow clock updatedAt =>
    refine ⟨_, latestByHash_updateWorkloadConfigInstanceStatus hrow uid report.status err content
      scanNow clock updatedAt, ?_, ?_⟩
    · intro u
      rw [mergeReport_lastReports]
      by_cases hu : u = uid
      · subst hu
        simp [ReportCall.stores, ReportCall.erase, ReportCall.uid]
      · simp [ReportCall.stores, ReportCall.uid, Function.update_of_ne hu, Ne.symm hu]
    · intro hnd
      have hnd' := mergeReport_nodup content scanNow clock uid err updatedAt row report.status hnd
      refine ⟨hnd', fun _ => ?_⟩
      rw [mergeReport_status]
      exact verdict_settles hnd'

/-- The last reports after a schedule: what it stored last, else what the row held before. -/
def reportsAfter (row : WorkloadConfigRow) (stored : List Report) (uid : String) :
    Option (Option Report) :=
  match stored.getLast? with
  | some r => some (some r)
  | none => lastReports row.instanceStatuses uid

/-- After any list of calls the list holds every instance's last stored report, and the row
status is the verdict on it when the last call was an instance update. -/
theorem latestByHash_foldl_apply (hrow : latestByHash db w h = some row)
    (hnd : (row.instanceStatuses.map (·.instanceUID)).Nodup) (calls : List ReportCall) :
    ∃ row', latestByHash (calls.foldl (ReportCall.apply w h) db) w h = some row' ∧
      (∀ uid, lastReports row'.instanceStatuses uid =
        reportsAfter row (calls.filterMap (ReportCall.stores uid)) uid) ∧
      (row'.instanceStatuses.map (·.instanceUID)).Nodup ∧
      (∀ c, calls.getLast? = some c → c.erase.1 = true →
        Settles (lastReports row'.instanceStatuses) row'.status) ∧
      (calls = [] → row' = row) := by
  induction calls using List.reverseRecOn with
  | nil => exact ⟨row, hrow, fun uid => by simp [reportsAfter], hnd, by simp, fun _ => rfl⟩
  | append_singleton calls c ih =>
    obtain ⟨mid, hmid, hlast, hndm, -, -⟩ := ih
    obtain ⟨row', hrow', hlast', hset⟩ := latestByHash_apply hmid c
    obtain ⟨hnd', hset'⟩ := hset hndm
    refine ⟨row', by simpa using hrow', ?_, hnd', ?_, by simp⟩
    · intro uid
      rw [hlast', List.filterMap_append]
      cases hc : c.stores uid with
      | some r => simp [reportsAfter, hc]
      | none => simp [hc, hlast]
    · intro d hd
      have hcd : c = d := by simpa using hd
      exact hcd ▸ hset'

def storedStatus (row : WorkloadConfigRow) (uid : String) : Option PushStatus :=
  (row.instanceStatuses.find? fun i => i.instanceUID = uid).map (·.status)

theorem storedStatus_of_lastReports {uid : String} {r : Report}
    (h : lastReports row.instanceStatuses uid = some (some r)) :
    storedStatus row uid = some r.status := by
  obtain ⟨i, hi, hr⟩ := Option.map_eq_some_iff.mp h
  rw [storedStatus, hi, Option.map_some, status_of_reportOf hr]

/-- What any schedule of the report sequences leaves in the newest row. -/
theorem InterleavesReports.final (hrow : latestByHash db w h = some row)
    (hnd : (row.instanceStatuses.map (·.instanceUID)).Nodup)
    {reports : String → List Report} (hi : InterleavesReports reports calls) :
    ∃ row', latestByHash (calls.foldl (ReportCall.apply w h) db) w h = some row' ∧
      (∀ uid, lastReports row'.instanceStatuses uid = reportsAfter row (reports uid) uid) ∧
      ((∃ uid, reports uid ≠ []) →
        Settles (fun uid => reportsAfter row (reports uid) uid) row'.status) ∧
      ((∀ uid, reports uid = []) → row' = row) := by
  obtain ⟨row', hr, hl, -, hs, hn⟩ := latestByHash_foldl_apply hrow hnd calls
  have hlast : ∀ uid, lastReports row'.instanceStatuses uid =
      reportsAfter row (reports uid) uid := by
    intro uid
    rw [hl, hi.stores_eq]
  have hprog : ∀ uid, reportProgram (reports uid) = [] ↔ reports uid = [] := by
    intro uid
    cases reports uid <;> simp [reportProgram]
  refine ⟨row', hr, hlast, ?_, ?_⟩
  · rintro ⟨uid, hne⟩
    have hc : calls ≠ [] := fun h' => hne ((hprog uid).mp (hi.eq_nil_iff.mp h' uid))
    obtain ⟨c, hc⟩ := Option.ne_none_iff_exists'.mp (mt List.getLast?_eq_none_iff.mp hc)
    have hset := hs c hc (reportProgram_getLast? (hi.getLast? hc))
    exact (funext hlast) ▸ hset
  · intro hall
    exact hn (hi.eq_nil_iff.mpr fun uid => (hprog uid).mpr (hall uid))

/-- Reports of different instances commute. Two schedules of the same report sequences leave
the newest row with the same status and the same status for every instance that reported,
its last report. Once an instance has reported, the row status is `failed`, `applied` or
`applying` as the last reports of the row's targets say; an instance that reports is one of
them from then on, and one that did not report in these sequences counts with the report the
row held for it. -/
theorem reports_commute (db : WorkloadConfigs) (w h : String) (row : WorkloadConfigRow)
    (hrow : latestByHash db w h = some row)
    (hnd : (row.instanceStatuses.map (·.instanceUID)).Nodup)
    (reports : String → List Report) (calls₁ calls₂ : List ReportCall)
    (h₁ : InterleavesReports reports calls₁) (h₂ : InterleavesReports reports calls₂) :
    ∃ row₁ row₂,
      latestByHash (calls₁.foldl (ReportCall.apply w h) db) w h = some row₁ ∧
      latestByHash (calls₂.foldl (ReportCall.apply w h) db) w h = some row₂ ∧
      row₁.status = row₂.status ∧
      (∀ uid r, (reports uid).getLast? = some r →
        storedStatus row₁ uid = some r.status ∧ storedStatus row₂ uid = some r.status) ∧
      ((∃ uid, reports uid ≠ []) →
        Settles (fun uid => reportsAfter row (reports uid) uid) row₁.status) := by
  obtain ⟨row₁, hr₁, hl₁, hs₁, hn₁⟩ := h₁.final hrow hnd
  obtain ⟨row₂, hr₂, hl₂, hs₂, hn₂⟩ := h₂.final hrow hnd
  refine ⟨row₁, row₂, hr₁, hr₂, ?_, ?_, hs₁⟩
  · by_cases hrep : ∃ uid, reports uid ≠ []
    · exact (hs₁ hrep).unique (hs₂ hrep)
    · have hnone : ∀ uid, reports uid = [] := by simpa using hrep
      rw [hn₁ hnone, hn₂ hnone]
  · intro uid r hr
    have hat : reportsAfter row (reports uid) uid = some (some r) := by simp [reportsAfter, hr]
    exact ⟨storedStatus_of_lastReports ((hl₁ uid).trans hat),
      storedStatus_of_lastReports ((hl₂ uid).trans hat)⟩

section TwoInstances

def sentToTwo : WorkloadConfigRow where
  workloadID := "w"
  configID := "h"
  appliedAt := 10
  status := .sent
  instanceStatuses := ["a", "b"].map fun uid =>
    { instanceUID := uid, required := true, status := .sent, configHash := "h", updatedAt := 10 }

def sentToTwoTable : WorkloadConfigs := ⟨[sentToTwo], by decide⟩

def mixedReports (uid : String) : List Report :=
  if uid = "a" then [.applying, .applied] else if uid = "b" then [.failed] else []

def sequentialCalls : List ReportCall :=
  [.rowStatus "a" .applying "", .instanceStatus "a" .applying "" "" 20 20 0,
   .rowStatus "a" .applied "", .instanceStatus "a" .applied "" "" 30 30 0,
   .rowStatus "b" .failed "timeout", .instanceStatus "b" .failed "timeout" "" 40 40 0]

def overlappingCalls : List ReportCall :=
  [.rowStatus "b" .failed "timeout", .rowStatus "a" .applying "",
   .instanceStatus "b" .failed "timeout" "" 900 900 0,
   .instanceStatus "a" .applying "" "" 900 900 0,
   .rowStatus "a" .applied "", .instanceStatus "a" .applied "" "" 901 901 7]

theorem interleavesReports_mixedReports
    (ha : (calls.filter fun c => decide (c.uid = "a")).map ReportCall.erase =
      reportProgram (mixedReports "a"))
    (hb : (calls.filter fun c => decide (c.uid = "b")).map ReportCall.erase =
      reportProgram (mixedReports "b"))
    (hall : ∀ c ∈ calls, c.uid = "a" ∨ c.uid = "b") :
    InterleavesReports mixedReports calls := by
  intro uid
  by_cases hua : uid = "a"
  · exact hua ▸ ha
  · by_cases hub : uid = "b"
    · exact hub ▸ hb
    · have hnone : calls.filter (fun c => decide (c.uid = uid)) = [] := by
        rw [List.filter_eq_nil_iff]
        intro c hc
        rcases hall c hc with h | h <;> simp [h, Ne.symm hua, Ne.symm hub]
      simp [hnone, mixedReports, hua, hub, reportProgram]

theorem reports_commute_two_instances :
    ∃ row₁ row₂,
      latestByHash (sequentialCalls.foldl (ReportCall.apply "w" "h") sentToTwoTable) "w" "h" =
        some row₁ ∧
      latestByHash (overlappingCalls.foldl (ReportCall.apply "w" "h") sentToTwoTable) "w" "h" =
        some row₂ ∧
      row₁.status = .failed ∧ row₂.status = .failed ∧ storedStatus row₂ "a" = some .applied := by
  obtain ⟨row₁, row₂, h₁, h₂, heq, hst, hset⟩ :=
    reports_commute sentToTwoTable "w" "h" sentToTwo (by decide) (by decide) mixedReports
      sequentialCalls overlappingCalls
      (interleavesReports_mixedReports (by decide) (by decide) (by decide))
      (interleavesReports_mixedReports (by decide) (by decide) (by decide))
  have hfailed : row₁.status = .failed :=
    (hset ⟨"b", by decide⟩).failed ⟨"b", by decide⟩
  exact ⟨row₁, row₂, h₁, h₂, hfailed, heq ▸ hfailed, (hst "a" .applied (by decide)).2⟩

end TwoInstances

end OtelMagnify.Push
