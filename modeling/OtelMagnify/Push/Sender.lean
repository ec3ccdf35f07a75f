import OtelMagnify.Push.Report

/-! A push and the reports it races with. The approval and manual rollback handlers record
the row, send, and mark it sent; the automatic rollback sends before it records. Marking is
an unconditional overwrite of the status, and a report only reaches the row once it is there. -/
namespace OtelMagnify.Push
open Interleaving

inductive PushKind where
  | operator (pushedBy : String)
  | autoRollback (failedHash : String)
  deriving DecidableEq, Repr

inductive SenderStep where
  | record
  | send
  | mark
  deriving DecidableEq, Repr

def PushKind.program : PushKind → List SenderStep
  | operator _ => [.record, .send, .mark]
  | autoRollback _ => [.send, .record, .mark]

structure PushTarget where
  instanceUID : String
  podName : String
  deriving DecidableEq, Repr

def initialPushInstanceStatuses (hash : String) (at_ : Time) (instances : List PushTarget) :
    List WorkloadConfigInstanceStatus :=
  instances.map fun inst =>
    { instanceUID := inst.instanceUID, podName := inst.podName, required := true
      status := .sent, configHash := hash, updatedAt := at_ }

structure ConfigPush where
  workloadID : String
  configID : String
  kind : PushKind
  submittedAt : Time
  targets : List PushTarget
  deriving DecidableEq, Repr

def ConfigPush.workloadConfig (p : ConfigPush) : WorkloadConfig :=
  let wc : WorkloadConfig :=
    { workloadID := p.workloadID, configID := p.configID
      appliedAt := p.submittedAt, submittedAt := p.submittedAt, status := .submitted
      instanceStatuses := initialPushInstanceStatuses p.configID p.submittedAt p.targets }
  match p.kind with
  | .operator pushedBy => { wc with pushedBy }
  | .autoRollback failedHash =>
    { wc with status := .rollbackStarted, pushedBy := "auto-rollback"
              rollbackOfPushID := failedHash }

def ConfigPush.recordedRow (p : ConfigPush) : WorkloadConfigRow where
  workloadID := p.workloadID
  configID := p.configID
  appliedAt := p.submittedAt
  status := p.workloadConfig.status
  pushedBy := p.workloadConfig.pushedBy
  submittedAt := some p.submittedAt
  opampStatusTimeoutAt := some (p.submittedAt + opampStatusTimeout)
  rollbackOfPushID := p.workloadConfig.rollbackOfPushID
  instanceStatuses := initialPushInstanceStatuses p.configID p.submittedAt p.targets

theorem recordWorkloadConfig_workloadConfig (p : ConfigPush) (db : WorkloadConfigs) :
    recordWorkloadConfig db p.submittedAt p.workloadConfig = db.insert p.recordedRow := by
  have hempty : sanitizeRemoteConfigErrorMessage "" = "" := by decide
  unfold recordWorkloadConfig ConfigPush.recordedRow ConfigPush.workloadConfig
  cases p.kind <;>
    simp [initialPushInstanceStatuses, Function.comp_def, hempty]

theorem lastReports_initial (hash uid : String) (at_ : Time) (targets : List PushTarget) :
    lastReports (initialPushInstanceStatuses hash at_ targets) uid =
      if uid ∈ targets.map (·.instanceUID) then some none else none := by
  induction targets with
  | nil => rfl
  | cons t targets ih =>
    by_cases ht : t.instanceUID = uid
    · simp [initialPushInstanceStatuses, lastReports, ht, reportOf, canonicalInstanceStatus,
        canonicalPushStatus]
    · have hskip : lastReports (initialPushInstanceStatuses hash at_ (t :: targets)) uid =
          lastReports (initialPushInstanceStatuses hash at_ targets) uid := by
        simp [initialPushInstanceStatuses, lastReports, ht]
      rw [hskip, ih]
      simp [Ne.symm ht]

inductive PushCall where
  | record
  | send
  | mark (sentAt : Time)
  | report (c : ReportCall)
  deriving DecidableEq, Repr

namespace PushCall

/-- The instance that reports, or `none` for the sender. -/
def owner : PushCall → Option String
  | report c => some c.uid
  | _ => none

def erase : PushCall → SenderStep ⊕ (Bool × Report)
  | record => .inl .record
  | send => .inl .send
  | mark _ => .inl .mark
  | report c => .inr c.erase

/-- A failed `INSERT` and the send itself leave the table as it is. -/
def apply (p : ConfigPush) (db : WorkloadConfigs) : PushCall → WorkloadConfigs
  | record => (recordWorkloadConfig db p.submittedAt p.workloadConfig).getD db
  | send => db
  | mark sentAt => markWorkloadConfigSent db p.workloadID p.configID sentAt
  | report c => c.apply p.workloadID p.configID db

def isRecord (c : PushCall) : Bool := c.erase = .inl .record

def isMark (c : PushCall) : Bool := c.erase = .inl .mark

def asReport : PushCall → Option ReportCall
  | report c => some c
  | _ => none

@[simp] theorem asReport_mark (sentAt : Time) : (mark sentAt).asReport = none := rfl

@[simp] theorem asReport_report (c : ReportCall) : (report c).asReport = some c := rfl

/-- `UpdateWorkloadConfigInstanceStatus` for `uid`. -/
def isInstanceUpdate (uid : String) : PushCall → Bool
  | report c => c.uid = uid && c.erase.1
  | _ => false

def senderWrite : SenderStep ⊕ (Bool × Report) → Option Bool
  | .inl .record => some false
  | .inl .mark => some true
  | _ => none

end PushCall

variable {c : PushCall} {calls : List PushCall} {p : ConfigPush} {reports : String → List Report}

theorem PushCall.not_isRecord (h : senderWrite c.erase = none) : c.isRecord = false := by
  cases c <;> simp_all [erase, senderWrite, isRecord]

theorem PushCall.not_isMark (h : senderWrite c.erase = none) : c.isMark = false := by
  cases c <;> simp_all [erase, senderWrite, isMark]

/-- The calls made after the first one that satisfies `q`. -/
def callsAfter (q : PushCall → Bool) (calls : List PushCall) : List PushCall :=
  (calls.dropWhile fun c => !q c).tail

def ConfigPush.Interleaves (p : ConfigPush) (reports : String → List Report)
    (calls : List PushCall) : Prop :=
  Interleaving.Interleaves PushCall.owner PushCall.erase
    (fun o => match o with
      | none => p.kind.program.map .inl
      | some uid => (reportProgram (reports uid)).map .inr) calls

theorem callsAfter_suffix (q : PushCall → Bool) (calls : List PushCall) :
    callsAfter q calls <:+ calls :=
  (List.tail_suffix _).trans (List.dropWhile_suffix _)

theorem callsAfter_append {q : PushCall → Bool} {pre post : List PushCall}
    (hpre : ∀ b ∈ pre, q b = false) (hc : q c = true) :
    callsAfter q (pre ++ c :: post) = post := by
  have hdrop : (pre ++ c :: post).dropWhile (fun b => !q b) = c :: post := by
    rw [List.dropWhile_append_of_pos fun b hb => by simp [hpre b hb]]
    simp [hc]
  rw [callsAfter, hdrop, List.tail_cons]

open PushCall

namespace ConfigPush.Interleaves

theorem reportsOnly (h : p.Interleaves reports calls) :
    InterleavesReports reports (calls.filterMap asReport) := by
  intro uid
  have hsel : ∀ l : List PushCall,
      ((l.filterMap asReport).filter fun c => decide (c.uid = uid)).map
        ReportCall.erase =
      l.filterMap fun c => if c.owner = some uid then c.erase.getRight? else none := by
    intro l
    induction l with
    | nil => rfl
    | cons c l ih =>
      cases c with
      | report c =>
        rw [List.filterMap_cons_some (asReport_report c), List.filter_cons]
        by_cases hc : c.uid = uid
        · rw [if_pos (by simpa using hc), List.map_cons, ih, List.filterMap_cons_some]
          simp [owner, erase, hc]
        · rw [if_neg (by simpa using hc), ih, List.filterMap_cons_none]
          simp [owner, hc]
      | _ => rw [List.filterMap_cons_none rfl, List.filterMap_cons_none rfl, ih]
  rw [hsel, h.filterMap_eq (some uid) Sum.getRight?]
  simp [List.filterMap_map, Function.comp_def]

/-- Handlers have finished, so the last report call of any suffix is an instance update. -/
theorem getLast?_suffix (h : p.Interleaves reports calls) {late : List PushCall}
    (hsuf : late <:+ calls) {c : ReportCall}
    (hc : (late.filterMap asReport).getLast? = some c) : c.erase.1 = true := by
  obtain ⟨early, rfl⟩ := hsuf
  refine reportProgram_getLast? (h.reportsOnly.getLast? ?_)
  rw [List.filterMap_append, List.getLast?_append, hc]
  rfl

/-- The row is recorded once and marked once, later. -/
theorem split (h : p.Interleaves reports calls) :
    ∃ pre mid sentAt post, calls = pre ++ .record :: (mid ++ .mark sentAt :: post) ∧
      (∀ c ∈ pre, senderWrite c.erase = none) ∧ (∀ c ∈ mid, senderWrite c.erase = none) ∧
      ∀ c ∈ post, senderWrite c.erase = none := by
  have hf : calls.filterMap (fun c => senderWrite c.erase) = [false, true] := by
    have hnone := h.filterMap_eq none senderWrite
    have hown : (fun c : PushCall =>
        if c.owner = none then senderWrite c.erase else none) =
        fun c => senderWrite c.erase := by
      funext c
      cases c <;> simp [owner, erase, senderWrite]
    rw [hown] at hnone
    rw [hnone]
    cases p.kind <;> rfl
  obtain ⟨pre, a, rest, rfl, hpre, ha, hrest⟩ := List.filterMap_eq_cons_iff.mp hf
  obtain ⟨mid, b, post, rfl, hmid, hb, hpost⟩ := List.filterMap_eq_cons_iff.mp hrest
  have hra : a = .record := by
    cases a <;> simp [erase, senderWrite] at ha ⊢
  obtain ⟨sentAt, hmb⟩ : ∃ sentAt, b = .mark sentAt := by
    cases b <;> simp [erase, senderWrite] at hb ⊢
  subst hra hmb
  exact ⟨pre, mid, sentAt, post, rfl, hpre, hmid, List.filterMap_eq_nil_iff.mp hpost⟩

end ConfigPush.Interleaves

open KeyedTable

section Effect

variable {p : ConfigPush} {db : WorkloadConfigs}

theorem foldl_apply_eq_reports (h : ∀ c ∈ calls, senderWrite c.erase = none) :
    calls.foldl (apply p) db =
      (calls.filterMap asReport).foldl
        (ReportCall.apply p.workloadID p.configID) db := by
  induction calls generalizing db with
  | nil => rfl
  | cons c calls ih =>
    have hc := h c (by simp)
    have hrest := fun db => @ih db fun b hb => h b (by simp [hb])
    cases c with
    | record | mark sentAt => simp [erase, senderWrite] at hc
    | send =>
      rw [List.foldl_cons, List.filterMap_cons_none rfl]
      exact hrest db
    | report c =>
      rw [List.foldl_cons, List.filterMap_cons_some (asReport_report c), List.foldl_cons]
      exact hrest _

/-- Every push row of the hash is older than the push. -/
def ConfigPush.IsNew (p : ConfigPush) (db : WorkloadConfigs) : Prop :=
  ∀ q ∈ db.rows, isPushOf p.workloadID p.configID q = true → q.appliedAt < p.submittedAt

theorem ConfigPush.IsNew.update (h : p.IsNew db) (sel : WorkloadConfigRow → Bool)
    (f : WorkloadConfigRow → WorkloadConfigRow) (hf : ∀ r, (f r).key = r.key) :
    p.IsNew (db.update sel f hf) := by
  intro q hq hp
  obtain ⟨r, hr, hk⟩ := exists_key_eq_of_mem_update hq
  rw [appliedAt_of_key_eq hk]
  exact h r hr (isPushOf_of_key_eq hk _ _ ▸ hp)

theorem ConfigPush.IsNew.foldl (h : p.IsNew db) (calls : List ReportCall) :
    p.IsNew (calls.foldl (ReportCall.apply p.workloadID p.configID) db) := by
  induction calls generalizing db with
  | nil => exact h
  | cons c calls ih =>
    obtain ⟨sel, f, hf, heq, -⟩ := c.apply_eq_update p.workloadID p.configID db
    exact ih (heq ▸ h.update sel f hf)

theorem latestByHash_record (h : p.IsNew db) :
    latestByHash (record.apply p db) p.workloadID p.configID = some p.recordedRow := by
  have hself : isPushOf p.workloadID p.configID p.recordedRow = true := by
    simp [isPushOf, ConfigPush.recordedRow]
  have hfresh : ∀ q ∈ db.rows, q.key ≠ p.recordedRow.key := by
    intro q hq hk
    have hp := isPushOf_of_key_eq hk p.workloadID p.configID
    exact absurd (appliedAt_of_key_eq hk) (ne_of_lt (h q hq (hp.trans hself)))
  obtain ⟨u, hu⟩ := insert_of_fresh hfresh
  rw [apply, recordWorkloadConfig_workloadConfig, hu, Option.getD_some]
  exact newest_insert hu hself h

end Effect

def storedAfterRecord (calls : List PushCall) (uid : String) : List Report :=
  ((callsAfter PushCall.isRecord calls).filterMap PushCall.asReport).filterMap
    (ReportCall.stores uid)

theorem storedAfterRecord_ne_nil {uid : String} :
    storedAfterRecord calls uid ≠ [] ↔
      ∃ c ∈ callsAfter isRecord calls, c.isInstanceUpdate uid = true := by
  rw [storedAfterRecord, List.filterMap_filterMap, Ne, List.filterMap_eq_nil_iff]
  push Not
  refine exists_congr fun c => and_congr_right fun _ => ?_
  cases c with
  | report c => simp [asReport, isInstanceUpdate, ReportCall.stores]
  | _ => simp [asReport, isInstanceUpdate]

theorem reportsAfter_append {row mid : WorkloadConfigRow} {early late : List Report} {uid : String}
    (h : lastReports mid.instanceStatuses uid = reportsAfter row early uid) :
    reportsAfter mid late uid = reportsAfter row (early ++ late) uid := by
  unfold reportsAfter at h ⊢
  rw [List.getLast?_append]
  cases late.getLast? with
  | some r => rfl
  | none => simpa using h

/-- The row after a whole schedule: still `sent` when no report came after the mark, otherwise
the verdict on the reports that reached the row. -/
theorem ConfigPush.Interleaves.final {db : WorkloadConfigs}
    (hi : p.Interleaves reports calls) (hnew : p.IsNew db)
    (hnd : (p.targets.map (·.instanceUID)).Nodup) :
    ∃ row, latestByHash (calls.foldl (apply p) db) p.workloadID p.configID = some row ∧
      if (callsAfter isMark calls).filterMap asReport = [] then
        row.status = .sent
      else
        Settles (fun uid => reportsAfter p.recordedRow (storedAfterRecord calls uid) uid)
          row.status := by
  obtain ⟨pre, mid, sentAt, post, hcalls, hpre, hmid, hpost⟩ := hi.split
  have hrec : callsAfter isRecord calls = mid ++ .mark sentAt :: post :=
    hcalls ▸ callsAfter_append (fun c hc => not_isRecord (hpre c hc)) rfl
  have hmark : callsAfter isMark calls = post := by
    rw [hcalls, ← List.cons_append, ← List.append_assoc]
    refine callsAfter_append (fun c hc => ?_) rfl
    rcases List.mem_append.mp hc with hc | hc
    · exact not_isMark (hpre c hc)
    · rcases List.mem_cons.mp hc with rfl | hc
      · rfl
      · exact not_isMark (hmid c hc)
  have hmidpost : (mid ++ .mark sentAt :: post).filterMap asReport =
      mid.filterMap asReport ++ post.filterMap asReport := by
    rw [List.filterMap_append, List.filterMap_cons_none (asReport_mark sentAt)]
  have hnd₀ : (p.recordedRow.instanceStatuses.map (·.instanceUID)).Nodup := by
    simpa [ConfigPush.recordedRow, initialPushInstanceStatuses, Function.comp_def] using hnd
  have hrow₀ := latestByHash_record (hnew.foldl (pre.filterMap asReport))
  obtain ⟨row₁, hrow₁, hlast₁, hnd₁, -, -⟩ :=
    latestByHash_foldl_apply hrow₀ hnd₀ (mid.filterMap asReport)
  have hrow₂ := latestByHash_markWorkloadConfigSent hrow₁ sentAt
  obtain ⟨row, hrow, hlast, -, hset, hnil⟩ :=
    latestByHash_foldl_apply hrow₂ hnd₁ (post.filterMap asReport)
  refine ⟨row, ?_, ?_⟩
  · rw [hcalls, List.foldl_append, List.foldl_cons, List.foldl_append, List.foldl_cons,
      foldl_apply_eq_reports hpre, foldl_apply_eq_reports hmid, foldl_apply_eq_reports hpost]
    exact hrow
  · rw [hmark]
    split
    · rename_i hempty
      rw [hnil hempty, WorkloadConfigRow.setSent]
    · rename_i hne
      obtain ⟨c, hc⟩ := Option.ne_none_iff_exists'.mp (mt List.getLast?_eq_none_iff.mp hne)
      have hfun : lastReports row.instanceStatuses = fun uid =>
          reportsAfter p.recordedRow (storedAfterRecord calls uid) uid := by
        funext uid
        have hsent : lastReports (row₁.setSent sentAt).instanceStatuses uid = _ := hlast₁ uid
        rw [hlast uid, reportsAfter_append hsent, storedAfterRecord, hrec, hmidpost,
          List.filterMap_append]
      have hsuf : post <:+ calls := hmark ▸ callsAfter_suffix _ _
      exact hfun ▸ hset c hc (hi.getLast?_suffix hsuf hc)

theorem Settles.applied_iff {last : String → Option (Option Report)} {st : PushStatus}
    (h : Settles last st) :
    st = .applied ↔ ∀ uid, last uid ≠ none → last uid = some (some .applied) := by
  refine ⟨fun hst => ?_, h.applied⟩
  by_contra hall
  by_cases hf : ∃ uid, last uid = some (some .failed)
  · exact absurd (hst.symm.trans (h.failed hf)) (by decide)
  · exact absurd (hst.symm.trans (h.applying hf hall)) (by decide)

theorem ConfigPush.Interleaves.storedAfterRecord_suffix (hi : p.Interleaves reports calls)
    (uid : String) :
    storedAfterRecord calls uid <:+ reports uid := by
  rw [← hi.reportsOnly.stores_eq uid, storedAfterRecord]
  exact ((callsAfter_suffix _ _).filterMap _).filterMap _

/-- The verdict on the reports that reached the row is `applied` exactly when one of every
target did. -/
theorem ConfigPush.Interleaves.all_applied_iff (hi : p.Interleaves reports calls)
    (honly : ∀ uid, reports uid ≠ [] → uid ∈ p.targets.map (·.instanceUID))
    (happ : ∀ uid ∈ p.targets.map (·.instanceUID), (reports uid).getLast? = some .applied) :
    (∀ uid, reportsAfter p.recordedRow (storedAfterRecord calls uid) uid ≠ none →
      reportsAfter p.recordedRow (storedAfterRecord calls uid) uid = some (some .applied)) ↔
    ∀ uid ∈ p.targets.map (·.instanceUID), storedAfterRecord calls uid ≠ [] := by
  have hinit : ∀ uid, lastReports p.recordedRow.instanceStatuses uid =
      if uid ∈ p.targets.map (·.instanceUID) then some none else none :=
    fun uid => lastReports_initial p.configID uid p.submittedAt p.targets
  constructor
  · intro h uid huid hnil
    have hsome : reportsAfter p.recordedRow (storedAfterRecord calls uid) uid = some none := by
      rw [hnil, reportsAfter, List.getLast?_nil, hinit, if_pos huid]
    have happlied := h uid (by simp [hsome])
    simp [hsome] at happlied
  · intro h uid huid
    have hsuf := hi.storedAfterRecord_suffix uid
    by_cases hnil : storedAfterRecord calls uid = []
    · have hmem : uid ∈ p.targets.map (·.instanceUID) := by
        by_contra hmem
        exact huid (by rw [hnil, reportsAfter, List.getLast?_nil, hinit, if_neg hmem])
      exact absurd hnil (h uid hmem)
    · have hmem := honly uid fun hr => hnil (by simpa [hr] using hsuf)
      have hlast : (storedAfterRecord calls uid).getLast? = some .applied := by
        obtain ⟨pre, hpre⟩ := hsuf
        have hall := happ uid hmem
        rw [← hpre, List.getLast?_append_of_ne_nil _ hnil] at hall
        exact hall
      rw [reportsAfter, hlast]

theorem ConfigPush.Interleaves.exists_update_after_mark_iff
    (hi : p.Interleaves reports calls) :
    (∃ uid, ∃ c ∈ callsAfter isMark calls, c.isInstanceUpdate uid = true) ↔
      (callsAfter isMark calls).filterMap asReport ≠ [] := by
  constructor
  · rintro ⟨uid, c, hc, hupd⟩ hnil
    cases c with
    | report c => simpa using List.filterMap_eq_nil_iff.mp hnil _ hc
    | _ => simp [isInstanceUpdate] at hupd
  · intro hne
    obtain ⟨c, hc⟩ := Option.ne_none_iff_exists'.mp (mt List.getLast?_eq_none_iff.mp hne)
    have hupd := hi.getLast?_suffix (callsAfter_suffix _ _) hc
    obtain ⟨b, hb, hbc⟩ := List.mem_filterMap.mp (List.mem_of_getLast? hc)
    cases b with
    | report b =>
      have hbc' : b = c := Option.some.inj hbc
      exact ⟨b.uid, .report b, hb, by simp [isInstanceUpdate, hbc', hupd]⟩
    | _ => simp [asReport] at hbc

/-- When every target's last report is `applied`, the newest row of the push ends `applied`,
selectable as applied and not pending, exactly when an instance update of every target ran
after the row was recorded and one of them ran after it was marked sent. -/
theorem push_status_applied_iff (p : ConfigPush) (db : WorkloadConfigs)
    (reports : String → List Report) (calls : List PushCall)
    (hnew : p.IsNew db) (hnd : (p.targets.map (·.instanceUID)).Nodup)
    (honly : ∀ uid, reports uid ≠ [] → uid ∈ p.targets.map (·.instanceUID))
    (happ : ∀ uid ∈ p.targets.map (·.instanceUID), (reports uid).getLast? = some .applied)
    (hi : p.Interleaves reports calls) :
    (∃ row, latestByHash (calls.foldl (apply p) db) p.workloadID p.configID = some row ∧
      row.status = .applied ∧ isApplied p.workloadID row = true ∧
      isPending p.workloadID row = false ∧ isPendingOrApplying p.workloadID row = false) ↔
    (∀ uid ∈ p.targets.map (·.instanceUID),
      ∃ c ∈ callsAfter isRecord calls, c.isInstanceUpdate uid = true) ∧
    ∃ uid, ∃ c ∈ callsAfter isMark calls, c.isInstanceUpdate uid = true := by
  obtain ⟨row, hrow, hfinal⟩ := hi.final hnew hnd
  have hw := (latestByHash_isPushOf hrow).1
  refine Iff.trans (b := row.status = .applied) ⟨?_, fun hst => ?_⟩ (.trans ?_ (and_congr
    (forall₂_congr fun uid _ => storedAfterRecord_ne_nil) hi.exists_update_after_mark_iff.symm))
  · rintro ⟨row', hrow', hst, -⟩
    exact Option.some.inj (hrow.symm.trans hrow') ▸ hst
  · exact ⟨row, hrow, hst, by simp [isApplied, hw, hst], by simp [isPending, hst],
      by simp [isPendingOrApplying, hst]⟩
  split at hfinal
  · rename_i hnil
    simp [hfinal, hnil]
  · rename_i hne
    rw [hfinal.applied_iff, hi.all_applied_iff honly happ]
    exact (and_iff_left hne).symm

section OneTarget

/-- An approved config pushed to the one instance `a` of a workload. -/
def pushToOne : ConfigPush where
  workloadID := "w"
  configID := "h"
  kind := .operator "ops@example.com"
  submittedAt := 10
  targets := [{ instanceUID := "a", podName := "pod-a" }]

def appliedOnce (uid : String) : List Report := if uid = "a" then [.applied] else []

/-- The agent answers before the handler gets to mark the push as sent. -/
def markLast : List PushCall :=
  [.record, .send, .report (.rowStatus "a" .applied ""),
   .report (.instanceStatus "a" .applied "" "" 11 11 11), .mark 12]

def markFirst : List PushCall :=
  [.record, .send, .mark 11, .report (.rowStatus "a" .applied ""),
   .report (.instanceStatus "a" .applied "" "" 12 12 12)]

theorem pushToOne_interleaves
    (hsender : (calls.filter fun c => decide (c.owner = none)).map erase =
      [.inl .record, .inl .send, .inl .mark])
    (ha : (calls.filter fun c => decide (c.owner = some "a")).map erase =
      [.inr (false, .applied), .inr (true, .applied)])
    (hall : ∀ c ∈ calls, c.owner = none ∨ c.owner = some "a") :
    pushToOne.Interleaves appliedOnce calls := by
  intro o
  cases o with
  | none => exact hsender
  | some uid =>
    by_cases hu : uid = "a"
    · subst hu
      exact ha
    · have hnone : calls.filter (fun c => decide (c.owner = some uid)) = [] := by
        rw [List.filter_eq_nil_iff]
        intro c hc
        rcases hall c hc with h | h <;> simp [h, Ne.symm hu]
      simp [hnone, appliedOnce, hu, reportProgram]

/-- The last report of the only target is `applied`, every handler has finished, and the row
stays `sent`: no longer eligible as applied and still returned as pending. -/
theorem sent_mark_overwrites_applied :
    pushToOne.IsNew empty ∧ pushToOne.Interleaves appliedOnce markLast ∧
    (∀ uid ∈ pushToOne.targets.map (·.instanceUID),
      (appliedOnce uid).getLast? = some .applied) ∧
    ∃ row, latestByHash (markLast.foldl (apply pushToOne) empty) "w" "h" =
        some row ∧
      row.status = .sent ∧ isApplied "w" row = false ∧ isPending "w" row = true :=
  ⟨by simp [ConfigPush.IsNew, empty],
    pushToOne_interleaves (by decide) (by decide) (by decide), by decide,
    _, rfl, by decide, by decide, by decide⟩

theorem push_status_applied_iff_markFirst :
    ∃ row, latestByHash (markFirst.foldl (apply pushToOne) empty) "w" "h" =
        some row ∧ row.status = .applied ∧ isApplied "w" row = true ∧
      isPending "w" row = false ∧ isPendingOrApplying "w" row = false :=
  (push_status_applied_iff pushToOne empty appliedOnce markFirst
    (by simp [ConfigPush.IsNew, empty]) (by decide)
    (fun uid h => by
      by_cases hu : uid = "a"
      · simp [pushToOne, hu]
      · exact absurd (if_neg hu) h)
    (by decide) (pushToOne_interleaves (by decide) (by decide) (by decide))).mpr
    ⟨by decide, "a", by decide⟩

end OneTarget

end OtelMagnify.Push
