import OtelMagnify.Push.Report
import OtelMagnify.Push.Sanitize

/-! The `error_message` of a push row. The status of a row is aggregated over its instances, but
both calls of a report write the text of that report alone, so a row that one instance has failed
loses its text to the next report of another one. -/
namespace OtelMagnify.Push

/-- The error text of the report that a call is made for. -/
def ReportCall.text : ReportCall → String
  | rowStatus _ _ err => err
  | instanceStatus _ _ err .. => err

/-- The last report of an instance among the calls, with its text. -/
def lastStored (calls : List ReportCall) (uid : String) : Option (Report × String) :=
  (calls.filterMap fun c => (c.stores uid).map fun r => (r, c.text)).getLast?

/-- The last report of the instance is a failure with a text that is not blank. -/
def Fails (calls : List ReportCall) (uid : String) : Prop :=
  ∃ err, lastStored calls uid = some (.failed, err) ∧ trimSpace err ≠ ""

/-- After the calls a newest row that is failed, with an instance whose last report is a failure
with a text, has a text. -/
def KeepsError (db : WorkloadConfigs) (w h : String) (calls : List ReportCall) : Prop :=
  ∀ row, latestByHash (calls.foldl (ReportCall.apply w h) db) w h = some row →
    row.status = .failed → (∃ uid, Fails calls uid) → row.errorMessage ≠ ""

/-- The call does not overwrite the text of a failure with a blank one: its own text is not blank,
or the row is not failed after it, or no other instance's last report is a failure with a text. -/
def SparesError (before : List ReportCall) : ReportCall → Prop
  | .rowStatus _ report err =>
    trimSpace err = "" → report = .failed → ∀ uid, ¬ Fails before uid
  | .instanceStatus reporter _ err .. =>
    trimSpace err = "" → ∀ uid, uid ≠ reporter → ¬ Fails before uid

theorem lastStored_append (calls : List ReportCall) (c : ReportCall) (uid : String) :
    lastStored (calls ++ [c]) uid =
      match c.stores uid with
      | some r => some (r, c.text)
      | none => lastStored calls uid := by
  cases hc : c.stores uid <;> simp [lastStored, hc]

variable {c : ReportCall} {calls : List ReportCall} {db : WorkloadConfigs} {h w : String}
  {row : WorkloadConfigRow}

/-- A call that stores no report of an instance leaves its last report. -/
theorem fails_append_of_stores_eq_none {uid : String}
    (h : c.stores uid = none) : Fails (calls ++ [c]) uid ↔ Fails calls uid := by
  rw [Fails, lastStored_append, h]
  rfl

open ReportCall

theorem fails_append_rowStatus {reporter : String} {report : Report} {err : String} (uid : String) :
    Fails (calls ++ [.rowStatus reporter report err]) uid ↔ Fails calls uid := by
  apply fails_append_of_stores_eq_none
  simp [stores, erase]

theorem fails_append_of_ne {uid : String}
    (hne : uid ≠ c.uid) : Fails (calls ++ [c]) uid ↔ Fails calls uid := by
  apply fails_append_of_stores_eq_none
  simp [stores, Ne.symm hne]

theorem not_fails_append_self (hc : c.erase.1 = true)
    (hblank : trimSpace c.text = "") : ¬ Fails (calls ++ [c]) c.uid := by
  rintro ⟨text, hlast, htext⟩
  have hstores : c.stores c.uid = some c.erase.2 := by simp [stores, hc]
  rw [lastStored_append, hstores] at hlast
  obtain ⟨-, rfl⟩ := Prod.mk.inj (Option.some.inj hlast)
  exact htext hblank

theorem exists_latest_foldl (hrow : latestByHash db w h = some row) (calls : List ReportCall) :
    ∃ row', latestByHash (calls.foldl (apply w h) db) w h = some row' ∧
      ∀ uid r err, lastStored calls uid = some (r, err) →
        lastReports row'.instanceStatuses uid = some (some r) := by
  induction calls using List.reverseRecOn with
  | nil =>
    refine ⟨row, hrow, ?_⟩
    intro uid r err hlast
    cases hlast
  | append_singleton calls c ih =>
    obtain ⟨mid, hmid, hreports⟩ := ih
    obtain ⟨row', hrow', hlast', -⟩ := latestByHash_apply hmid c
    refine ⟨row', by simpa using hrow', ?_⟩
    intro uid r err hlast
    rw [lastStored_append] at hlast
    rw [hlast']
    cases hc : c.stores uid with
    | some stored =>
      rw [hc] at hlast
      cases hlast
      rfl
    | none =>
      rw [hc] at hlast
      exact hreports uid r err hlast

theorem errorMessage_mergeReport (content : String) (scanNow clock : Time) (uid : String)
    (status : PushStatus) (err : String) (updatedAt : Time) (row : WorkloadConfigRow) :
    (mergeReport content scanNow clock uid status err updatedAt row).errorMessage =
      sanitizeRemoteConfigErrorMessage err := by
  rw [mergeReport]

/-- What a call writes into the newest row: its own text, and the reporter's status or the
aggregate, which is `failed` once some instance's last report is. -/
theorem latestByHash_append
    (hrow : latestByHash db w h = some row) (calls : List ReportCall) (c : ReportCall) :
    ∃ row', latestByHash ((calls ++ [c]).foldl (apply w h) db) w h = some row' ∧
      row'.errorMessage = sanitizeRemoteConfigErrorMessage c.text ∧
      (c.erase.1 = false → row'.status = c.erase.2.status) ∧
      (c.erase.1 = true → (∃ uid, Fails (calls ++ [c]) uid) → row'.status = .failed) := by
  obtain ⟨mid, hmid, -⟩ := exists_latest_foldl hrow calls
  obtain ⟨last, hlast, hreports⟩ := exists_latest_foldl hrow (calls ++ [c])
  rw [List.foldl_append, List.foldl_cons, List.foldl_nil] at hlast ⊢
  cases c with
  | rowStatus reporter report err =>
    refine ⟨_, latestByHash_updateWorkloadConfigStatus hmid report.status err, ?_, fun _ => rfl, ?_⟩
    · rw [WorkloadConfigRow.setStatus, text]
    · intro hfalse
      cases hfalse
  | instanceStatus reporter report err content scanNow clock updatedAt =>
    have hmerged := latestByHash_updateWorkloadConfigInstanceStatus hmid reporter report.status err
      content scanNow clock updatedAt
    refine ⟨_, hmerged, errorMessage_mergeReport _ _ _ _ _ _ _ _, ?_, ?_⟩
    · intro hfalse
      cases hfalse
    · rintro - ⟨uid, text, hfailed, -⟩
      have hstored := hreports uid .failed text hfailed
      cases hlast.symm.trans hmerged
      obtain ⟨i, hi, -, hstatus⟩ := exists_mem_of_lastReports hstored
      rw [mergeReport_status]
      exact if_pos ⟨i, hi, status_of_reportOf hstatus⟩

/-- One more call keeps the text exactly when it spares it. -/
theorem keepsError_append_iff
    (hrow : latestByHash db w h = some row) (calls : List ReportCall) (c : ReportCall) :
    KeepsError db w h (calls ++ [c]) ↔ SparesError calls c := by
  obtain ⟨row', hrow', herror, hreported, haggregate⟩ := latestByHash_append hrow calls c
  have hkeeps : KeepsError db w h (calls ++ [c]) ↔
      (trimSpace c.text = "" → row'.status = .failed → ∀ uid, ¬ Fails (calls ++ [c]) uid) := by
    unfold KeepsError
    rw [← sanitize_eq_empty_iff, ← herror]
    constructor
    · intro hkeep hempty hfailed uid hfails
      exact hkeep row' hrow' hfailed ⟨uid, hfails⟩ hempty
    · rintro hspare q hq hfailed ⟨uid, hfails⟩ hempty
      cases hrow'.symm.trans hq
      exact hspare hempty hfailed uid hfails
  have hothers : ∀ uid, uid ≠ c.uid → (Fails (calls ++ [c]) uid ↔ Fails calls uid) :=
    fun uid hne => fails_append_of_ne hne
  rw [hkeeps]
  cases c with
  | rowStatus reporter report err =>
    have hstatus : row'.status = .failed ↔ report = .failed := by
      rw [hreported rfl]
      cases report <;> simp [erase, Report.status]
    simp only [hstatus, fails_append_rowStatus]
    rfl
  | instanceStatus reporter report err content scanNow clock updatedAt =>
    constructor
    · intro hspare herr uid hne hfails
      have hafter := (hothers uid hne).mpr hfails
      exact hspare herr (haggregate rfl ⟨uid, hafter⟩) uid hafter
    · intro hspare herr _ uid hfails
      by_cases hne : uid = reporter
      · subst hne
        exact not_fails_append_self rfl herr hfails
      · exact hspare herr uid hne ((hothers uid hne).mp hfails)

theorem keepsError_nil (db : WorkloadConfigs) (w h : String) : KeepsError db w h [] := by
  rintro row - - ⟨uid, err, hlast, -⟩
  cases hlast

/-- A failed push keeps its error at every point of a sequence of reports exactly when none of
their calls overwrites the text of a failure with a blank one. -/
theorem keepsError_iff {db : WorkloadConfigs} {w h : String} {row : WorkloadConfigRow}
    (hrow : latestByHash db w h = some row) (calls : List ReportCall) :
    (∀ before, before <+: calls → KeepsError db w h before) ↔
      ∀ before c, before ++ [c] <+: calls → SparesError before c := by
  constructor
  · intro hkeeps before c hprefix
    exact (keepsError_append_iff hrow before c).mp (hkeeps _ hprefix)
  · intro hspares before hprefix
    rcases before.eq_nil_or_concat with rfl | ⟨before, c, rfl⟩
    · exact keepsError_nil db w h
    · rw [List.concat_eq_append] at hprefix ⊢
      exact (keepsError_append_iff hrow before c).mpr (hspares before c hprefix)

def failedThenApplied : List ReportCall :=
  [.rowStatus "b" .failed "timeout", .instanceStatus "b" .failed "timeout" "" 20 20 0,
   .rowStatus "a" .applied "", .instanceStatus "a" .applied "" "" 30 30 0]

theorem failed_push_loses_error :
    ∃ row, latestByHash (failedThenApplied.foldl (apply "w" "h") sentToTwoTable)
        "w" "h" = some row ∧
      row.status = .failed ∧ lastStored failedThenApplied "b" = some (.failed, "timeout") ∧
      row.errorMessage = "" := by
  have hmap : (latestByHash (failedThenApplied.foldl (apply "w" "h") sentToTwoTable)
      "w" "h").map (fun row => (row.status, row.errorMessage)) = some (.failed, "") := by decide
  obtain ⟨row, hrow, hfields⟩ := Option.map_eq_some_iff.mp hmap
  obtain ⟨hstatus, herror⟩ := Prod.mk.inj hfields
  exact ⟨row, hrow, hstatus, by decide, herror⟩

theorem sparesError_of_text {before : List ReportCall}
    (h : trimSpace c.text ≠ "") : SparesError before c := by
  cases c with
  | rowStatus reporter report err
  | instanceStatus reporter report err content scanNow clock updatedAt =>
    intro hblank
    exact absurd hblank h

def failedTwice : List ReportCall :=
  [.rowStatus "b" .failed "timeout", .instanceStatus "b" .failed "timeout" "" 20 20 0,
   .rowStatus "a" .failed "refused", .instanceStatus "a" .failed "refused" "" 30 30 0]

theorem keepsError_failedTwice :
    ∃ row, latestByHash (failedTwice.foldl (apply "w" "h") sentToTwoTable) "w" "h" =
        some row ∧ row.status = .failed ∧ row.errorMessage ≠ "" := by
  have htexts : ∀ c ∈ failedTwice, trimSpace c.text ≠ "" := by decide
  have hspares : ∀ before c, before ++ [c] <+: failedTwice → SparesError before c := by
    intro before c hpre
    exact sparesError_of_text (htexts c (hpre.mem (by simp)))
  have hrow : latestByHash sentToTwoTable "w" "h" = some sentToTwo := by decide
  have hkeeps := (keepsError_iff hrow failedTwice).mpr hspares failedTwice (List.prefix_refl _)
  have hmap : (latestByHash (failedTwice.foldl (apply "w" "h") sentToTwoTable)
      "w" "h").map WorkloadConfigRow.status = some .failed := by decide
  obtain ⟨last, hlast, hstatus⟩ := Option.map_eq_some_iff.mp hmap
  have hfails : Fails failedTwice "b" := ⟨"timeout", by decide, by decide⟩
  exact ⟨last, hlast, hstatus, hkeeps last hlast hstatus ⟨"b", hfails⟩⟩

end OtelMagnify.Push
