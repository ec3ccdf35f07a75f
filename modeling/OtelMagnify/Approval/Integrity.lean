import OtelMagnify.Approval.Handlers

/-! What a push sends against what was approved. The upsert keeps its `ON CONFLICT` target by
id alone, so it can rewrite the draft of a request that has been approved since it was looked
up; and the approving `UPDATE` checks the status, not the draft that was validated. -/
namespace OtelMagnify.Approval
open Push StepSystem

/-- The step does not swap a draft under an approval: an upsert leaves the draft of an approved
request as it is, and a pending request is approved with the draft that was validated. -/
def keepsApprovedDraft (s : State) : Action → Bool
  | .resume t .upsert =>
    match s.handlers[t]? with
    | some (.upserting draft id) =>
      (getConfigApprovalRequest s.approvals id).all fun row =>
        row.status ≠ .approved || row.draftYAML = draft.draftYAML
    | _ => true
  | .resume t (.setApproved _) =>
    match s.handlers[t]? with
    | some (.approving id _ _ validated) =>
      (getConfigApprovalRequest s.approvals id).all fun row =>
        row.status ≠ .pending || row.draftYAML = validated
    | _ => true
  | _ => true

/-- Every draft on its way to the agents is the one that was approved. -/
structure DraftInv (s : State) : Prop where
  approved : ∀ id row, getConfigApprovalRequest s.approvals id = some row →
    row.status = .approved → s.approvedAs id = some ⟨row.draftYAML, row.draftYAML⟩
  decided : ∀ id, s.approvedAs id ≠ none →
    ∃ row, getConfigApprovalRequest s.approvals id = some row ∧ row.status ≠ .pending
  jobs : ∀ h ∈ s.handlers, ∀ job, h.job = some job → job.req.breakGlass = false →
    s.approvedAs job.approval.id = some ⟨job.approval.draftYAML, job.approval.draftYAML⟩
  sent : ∀ e ∈ s.sent, e.breakGlass = false → s.approvedAs e.approvalID = some ⟨e.body, e.body⟩

theorem DraftInv.initial (history : WorkloadConfigs) : DraftInv (State.initial history) where
  approved id row h := by
    have hmem := (KeyedTable.get?_eq_some_iff.mp h).1
    simp [State.initial, Approvals.empty, KeyedTable.empty] at hmem
  decided id h := absurd rfl h
  jobs h hmem := by simp [State.initial] at hmem
  sent e he := by simp [State.initial] at he

variable {h : Handler} {t : ℕ}

/-- The jobs of a state in which request `t` has moved on. -/
theorem job_become {s : State} {P : PushJob → Prop}
    (hold : ∀ h ∈ s.handlers, ∀ job, h.job = some job → P job)
    (hnew : ∀ job, h.job = some job → P job) :
    ∀ g ∈ (s.become t h).handlers, ∀ job, g.job = some job → P job := by
  intro g hg
  rcases List.mem_or_eq_of_mem_set hg with hg | rfl
  · exact hold g hg
  · exact hnew

theorem job_arrive {s : State} {P : PushJob → Prop}
    (hold : ∀ h ∈ s.handlers, ∀ job, h.job = some job → P job)
    (hnew : ∀ job, h.job = some job → P job) :
    ∀ g ∈ (s.arrive h).handlers, ∀ job, g.job = some job → P job := by
  intro g hg
  rcases Threads.mem_start hg with hg | rfl
  · exact hold g hg
  · exact hnew

namespace DraftInv

variable {s : State} {id : String} {approvals : Approvals}

theorem approvedAs_update (inv : DraftInv s) {row : ConfigApprovalRequest}
    (a : ApprovedAs) (hrow : getConfigApprovalRequest s.approvals id = some row)
    (hpending : row.status = .pending)
    {k : String} {b : ApprovedAs} (hk : s.approvedAs k = some b) :
    Function.update s.approvedAs id (some a) k = some b := by
  have hne : k ≠ id := by
    rintro rfl
    obtain ⟨row', hrow', hst⟩ := inv.decided k (by simp [hk])
    rw [hrow] at hrow'
    exact hst (Option.some.inj hrow' ▸ hpending)
  rw [Function.update_of_ne hne, hk]

theorem upsert (inv : DraftInv s) {draft : ApprovalDraft} (hjob : h.job = none)
    (hdb : upsertConfigApprovalRequest s.approvals (draft.request id) = some approvals)
    (hkeep : ∀ row, getConfigApprovalRequest s.approvals id = some row →
      row.status = .approved → row.draftYAML = draft.draftYAML) :
    DraftInv { s.become t h with approvals } where
  approved k row hrow hst := by
    rw [get_upsertConfigApprovalRequest hdb] at hrow
    split at hrow
    · rename_i hk
      have hrow' := Option.some.inj hrow
      cases hold : getConfigApprovalRequest s.approvals id with
      | none =>
        simp only [ApprovalDraft.request, hold, Option.elim_none] at hrow'
        exact absurd (hrow' ▸ hst) (by simp)
      | some old =>
        simp only [ApprovalDraft.request, hold, Option.elim_some] at hrow'
        subst hrow'
        have hold' := inv.approved id old hold hst
        rw [hkeep old hold hst] at hold'
        exact hk ▸ hold'
    · exact inv.approved k row hrow hst
  decided k hk := by
    obtain ⟨row, hrow, hst⟩ := inv.decided k hk
    rw [get_upsertConfigApprovalRequest hdb]
    split
    · rename_i hid
      have hrow' : getConfigApprovalRequest s.approvals (draft.request id).id = some row :=
        hid ▸ hrow
      exact ⟨(redraft (draft.request id)).apply row, by rw [hrow', Option.elim_some], hst⟩
    · exact ⟨row, hrow, hst⟩
  jobs := job_become inv.jobs (by simp [hjob])
  sent := inv.sent

theorem approve (inv : DraftInv s) {approvedBy comment validated : String}
    {approvedAt : Time} {row : ConfigApprovalRequest} (hjob : h.job = none)
    (hrow : getConfigApprovalRequest s.approvals id = some row)
    (hdb : approveConfigApprovalRequest s.approvals id approvedBy comment approvedAt =
      some approvals)
    (hkeep : row.status = .pending → row.draftYAML = validated) :
    DraftInv { s.become t h with
      approvals
      approvedAs := Function.update s.approvedAs id
        (some { stored := row.draftYAML, validated }) } := by
  obtain ⟨row', hrow', hp, hget⟩ := get_updateWhere hdb
  obtain rfl : row = row' := Option.some.inj (hrow.symm.trans hrow')
  have hpending : row.status = .pending := by simpa using hp
  have hkeeps : ∀ {k b}, s.approvedAs k = some b → Function.update s.approvedAs id
      (some { stored := row.draftYAML, validated }) k = some b :=
    fun hk => inv.approvedAs_update _ hrow hpending hk
  refine ⟨fun k q hq hst => ?_, fun k hk => ?_, ?_, fun e he hb => hkeeps (inv.sent e he hb)⟩
  · rw [hget] at hq
    split at hq
    · rename_i hk
      obtain rfl := Option.some.inj hq
      have hself : Function.update s.approvedAs id (some ⟨row.draftYAML, validated⟩) k =
          some ⟨row.draftYAML, row.draftYAML⟩ := by
        rw [hk, Function.update_self, ← hkeep hpending]
      exact hself
    · exact hkeeps (inv.approved k q hq hst)
  · rw [hget]
    split
    · exact ⟨_, rfl, by simp [setApproved]⟩
    · rename_i hne
      exact inv.decided k (by simpa [Function.update_of_ne hne] using hk)
  · exact job_become (fun g hg job hj hb => hkeeps (inv.jobs g hg job hj hb)) (by simp [hjob])

theorem markPushed (inv : DraftInv s) {configHash pushComment reason : String}
    {confirmed breakGlass : Bool} {pushedAt : Time} (hjob : h.job = none)
    (hdb : markConfigApprovalRequestPushed s.approvals id configHash pushComment confirmed
      breakGlass reason pushedAt = some approvals) :
    DraftInv { s.become t h with approvals } := by
  obtain ⟨row, -, -, hget⟩ := get_updateWhere hdb
  refine ⟨fun k q hq hst => ?_, fun k hk => ?_, job_become inv.jobs (by simp [hjob]), inv.sent⟩
  · rw [hget] at hq
    split at hq
    · obtain rfl := Option.some.inj hq
      exact absurd hst (by simp [setPushed])
    · exact inv.approved k q hq hst
  · rw [hget]
    split
    · exact ⟨_, rfl, by simp [setPushed]⟩
    · exact inv.decided k hk

theorem step {s' : State} {a : Action} (inv : DraftInv s) (hG : keepsApprovedDraft s a = true)
    (h : Approval.step s a = some s') : DraftInv s' := by
  cases step_effect h with
  | arrive h hjob =>
    exact ⟨inv.approved, inv.decided, job_arrive inv.jobs (by simp [hjob]), inv.sent⟩
  | check workloadID approvalID actor req wl valid blocked job hrow hopen happroved =>
    refine ⟨inv.approved, inv.decided, job_arrive inv.jobs fun j hj hb => ?_, inv.sent⟩
    obtain rfl : job = j := Option.some.inj hj
    rw [getConfigApprovalRequest_id hrow]
    exact inv.approved approvalID job.approval hrow (happroved hb)
  | move t h₀ h history hat hjob =>
    refine ⟨inv.approved, inv.decided, job_become inv.jobs fun j hj => ?_, inv.sent⟩
    rcases hjob with hnone | ⟨-, -, hsame⟩
    · simp [hnone] at hj
    · exact inv.jobs h₀ (List.mem_of_getElem? hat) j (hsame ▸ hj)
  | upsert t draft id h approvals hat hjob hdb =>
    refine inv.upsert hjob hdb fun row hrow hst => ?_
    simpa [keepsApprovedDraft, hat, hrow, hst] using hG
  | approve t id approvedBy comment validated approvedAt row h approvals hat hjob hrow hdb =>
    refine inv.approve hjob hrow hdb fun hst => ?_
    simpa [keepsApprovedDraft, hat, hrow, hst] using hG
  | record t job history hat =>
    refine ⟨inv.approved, inv.decided, job_become inv.jobs fun j hj => ?_, inv.sent⟩
    exact inv.jobs _ (List.mem_of_getElem? hat) j hj
  | send t job h hat hpast hsame =>
    have hjob := inv.jobs _ (List.mem_of_getElem? hat) job rfl
    refine ⟨inv.approved, inv.decided, job_become inv.jobs fun j hj => ?_, fun e he hb => ?_⟩
    · obtain rfl : job = j := Option.some.inj (hsame.symm.trans hj)
      exact hjob
    · rcases List.mem_cons.mp he with rfl | he
      · exact hjob hb
      · exact inv.sent e he hb
  | markPushed t job pushedAt h approvals hat hjob hdb => exact inv.markPushed hjob hdb

end DraftInv

/-- In every run whose steps keep approved drafts, a push that is not break-glass sends the
draft stored when its request became approved, which is the draft that was validated. -/
theorem approved_content_integrity (history : WorkloadConfigs) (as : List Action)
    (s : State)
    (hG : Meets step (fun s a => keepsApprovedDraft s a = true) (State.initial history) as)
    (hrun : run step (State.initial history) as = some s) :
    ∀ e ∈ s.sent, e.breakGlass = false →
      s.approvedAs e.approvalID = some { stored := e.body, validated := e.body } :=
  (run_invariant_of_meets (fun _ _ _ inv hG h => DraftInv.step inv hG h)
    (DraftInv.initial history) hG hrun).sent

section TwoDrafts

def tracesDraft : String :=
  "receivers:\n  otlp:\nexporters:\n  debug:\nservice:\n  pipelines:\n    traces:\n" ++
  "      receivers: [otlp]\n      exporters: [debug]\n"

def logsDraft : String :=
  "receivers:\n  otlp:\nexporters:\n  debug:\nservice:\n  pipelines:\n    logs:\n" ++
  "      receivers: [otlp]\n      exporters: [debug]\n"

def connectedWorkload : WorkloadLookup :=
  .found { acceptsRemoteConfig := true, status := "connected" }

def createDraft (draftYAML : String) : Action :=
  .create "w" "dev@example.com"
    { draftYAML, targetGroup := "edge", targetEnv := "", comment := "rollout"
      prodConfirmation := false }
    connectedWorkload true 1

def zeroID : String := newConfigApprovalID (Vector.replicate 16 0)

def approveZero : Action :=
  .approve "w" zeroID "lead@example.com" "ok" connectedWorkload true

def pushZero : Action :=
  .push "w" zeroID "ops@example.com"
    { comment := "go", prodDoubleConfirmed := false, breakGlass := false, breakGlassReason := "" }
    connectedWorkload true false

/-- The first draft is stored. -/
def drafted : List Action :=
  [createDraft tracesDraft, .resume 0 (.lookUpPending (Vector.replicate 16 0)), .resume 0 .upsert]

/-- The second draft is looked up while the request is pending and stored after it is approved. -/
def swappedRun : List Action := drafted ++
  [createDraft logsDraft, .resume 1 (.lookUpPending (Vector.replicate 16 1)), approveZero,
   .resume 2 (.setApproved 2), .resume 1 .upsert, pushZero, .resume 3 (.record 3 []),
   .resume 3 (.send none)]

theorem upsert_swaps_approved_draft :
    ∃ s e a, run step (State.initial KeyedTable.empty) swappedRun = some s ∧ e ∈ s.sent ∧
      e.breakGlass = false ∧ s.approvedAs e.approvalID = some a ∧
      e.body = logsDraft ∧ a.stored = tracesDraft ∧ a.validated = tracesDraft ∧
      tracesDraft ≠ logsDraft := by
  simp only [exists_and_left]
  decide +kernel

def orderedRun : List Action := drafted ++
  [createDraft logsDraft, .resume 1 (.lookUpPending (Vector.replicate 16 1)), .resume 1 .upsert,
   approveZero, .resume 2 (.setApproved 2), pushZero, .resume 3 (.record 3 []),
   .resume 3 (.send none)]

theorem approved_content_integrity_ordered :
    ∃ s e, run step (State.initial KeyedTable.empty) orderedRun = some s ∧ e ∈ s.sent ∧
      s.approvedAs e.approvalID = some { stored := e.body, validated := e.body } := by
  obtain ⟨s, hrun, hmem⟩ : ∃ s, run step (State.initial KeyedTable.empty) orderedRun = some s ∧
      ⟨zeroID, "w", logsDraft, false⟩ ∈ s.sent := by decide +kernel
  exact ⟨s, _, hrun, hmem,
    approved_content_integrity KeyedTable.empty orderedRun s (by decide +kernel) hrun _ hmem rfl⟩

end TwoDrafts

end OtelMagnify.Approval
