import OtelMagnify.Approval.Integrity

/-! How often an approval request is pushed. The status is checked when the request is read and
written only after the send, so a second push that is checked in between, or after a push that
failed halfway, sends again. -/
namespace OtelMagnify.Approval
open Push StepSystem

/-- A push is checked while no other push of the same request is in progress, and, when a row
has been recorded for the request before, only once that push has marked it pushed. -/
def checksAlone (s : State) : Action → Bool
  | .push _ approvalID _ _ _ _ _ =>
    (s.handlers.all fun h => h.job.all fun job => job.approval.id ≠ approvalID) &&
      (approvalID ∉ s.recorded ||
        (getConfigApprovalRequest s.approvals approvalID).all fun row => row.status = .pushed)
  | _ => true

def isRecordingFor (id : String) : Handler → Bool
  | .recording job => job.approval.id = id
  | _ => false

def isSendingFor (id : String) : Handler → Bool
  | .sending job => job.approval.id = id
  | _ => false

def sends (s : State) (id : String) : ℕ := s.sent.countP fun e => e.approvalID = id

/-- A checked push has one row and one send ahead of it; both are still to come or have happened,
and at most one push of a request was ever checked. -/
structure PushInv (s : State) : Prop where
  recorded : ∀ id, s.recorded.count id + s.handlers.countP (isRecordingFor id) ≤ 1
  sent : ∀ id, sends s id + s.handlers.countP (isSendingFor id) ≤ s.recorded.count id

theorem PushInv.initial (history : WorkloadConfigs) : PushInv (State.initial history) where
  recorded id := by simp [State.initial]
  sent id := by simp [State.initial, sends]

def Handler.isOpen : Handler → Bool
  | recording _ => true
  | sending _ => true
  | _ => false

variable {h : Handler}

theorem not_for_of_not_isOpen (hopen : h.isOpen = false) (id : String) :
    isRecordingFor id h = false ∧ isSendingFor id h = false := by
  cases h <;> simp_all [Handler.isOpen, isRecordingFor, isSendingFor]

theorem not_isOpen_of_job (hjob : h.job = none) : h.isOpen = false := by
  cases h <;> simp_all [Handler.isOpen, Handler.job]

theorem not_isOpen_of_isPastSend (hpast : h.isPastSend = true) : h.isOpen = false := by
  cases h <;> simp_all [Handler.isOpen, Handler.isPastSend]

theorem not_for_of_job {id : String} (hjob : h.job.all (fun job => job.approval.id ≠ id) = true) :
    isRecordingFor id h = false ∧ isSendingFor id h = false := by
  cases h <;> simp_all [Handler.job, isRecordingFor, isSendingFor]

namespace PushInv

variable {s s' : State}

/-- The bounds when one handler replaces another: what the new handler no longer has ahead of
it must have been recorded or sent. -/
theorem become {t : ℕ} {h₀ : Handler} (inv : PushInv s)
    (hat : s.handlers[t]? = some h₀) (hs : s'.handlers = s.handlers.set t h)
    (hrec : ∀ id, s'.recorded.count id + (if isRecordingFor id h then 1 else 0) ≤
      s.recorded.count id + (if isRecordingFor id h₀ then 1 else 0))
    (hsent : ∀ id, sends s' id + (if isSendingFor id h then 1 else 0) + s.recorded.count id ≤
      sends s id + (if isSendingFor id h₀ then 1 else 0) + s'.recorded.count id) :
    PushInv s' where
  recorded id := by
    have hc := Threads.countP_set_add hat h (isRecordingFor id)
    have h₁ := hrec id
    have h₂ := inv.recorded id
    rw [hs]
    omega
  sent id := by
    have hc := Threads.countP_set_add hat h (isSendingFor id)
    have h₁ := hsent id
    have h₂ := inv.sent id
    rw [hs]
    omega

theorem quiet {t : ℕ} {h₀ : Handler} (inv : PushInv s) (hat : s.handlers[t]? = some h₀)
    (hs : s'.handlers = s.handlers.set t h) (hopen : h.isOpen = false)
    (hrec : s'.recorded = s.recorded) (hsent : s'.sent = s.sent) : PushInv s' := by
  have hno := not_for_of_not_isOpen hopen
  refine inv.become hat hs (fun id => ?_) fun id => ?_
  · simp [(hno id).1, hrec]
  · simp [(hno id).2, hrec, sends, hsent]

theorem check {job : PushJob} (inv : PushInv s)
    (halone : ∀ h ∈ s.handlers, h.job.all (fun j => j.approval.id ≠ job.approval.id) = true)
    (hnone : job.approval.id ∉ s.recorded) : PushInv (s.arrive (.recording job)) := by
  have hzero : s.handlers.countP (isRecordingFor job.approval.id) = 0 :=
    List.countP_eq_zero.mpr fun h hh => by simp [(not_for_of_job (halone h hh)).1]
  refine ⟨fun id => ?_, fun id => ?_⟩
  · have hid := inv.recorded id
    rw [State.arrive, List.countP_append, List.countP_singleton]
    by_cases hj : job.approval.id = id
    · subst hj
      simp [List.count_eq_zero_of_not_mem hnone, hzero, isRecordingFor]
    · simpa [isRecordingFor, hj] using hid
  · simpa [State.arrive, List.countP_append, isSendingFor, sends] using inv.sent id

theorem step {a : Action} (inv : PushInv s) (hG : checksAlone s a = true)
    (hstep : Approval.step s a = some s') : PushInv s' := by
  cases step_effect hstep with
  | arrive h hjob =>
    have hno := not_for_of_not_isOpen (not_isOpen_of_job hjob)
    refine ⟨fun id => ?_, fun id => ?_⟩
    · simpa [State.arrive, List.countP_append, (hno id).1] using inv.recorded id
    · simpa [State.arrive, List.countP_append, (hno id).2, sends] using inv.sent id
  | check workloadID approvalID actor req wl valid blocked job hrow hopen happroved =>
    obtain ⟨halone, hrec⟩ := Bool.and_eq_true_iff.mp hG
    rw [← getConfigApprovalRequest_id hrow] at halone hrec
    refine inv.check (List.all_eq_true.mp halone) fun hmem => ?_
    rw [getConfigApprovalRequest_id hrow] at hrec hmem
    simp [hmem, hrow, hopen] at hrec
  | move t h₀ h history hat hjob =>
    have hopen : h.isOpen = false := by
      rcases hjob with hnone | ⟨-, hpast, -⟩
      · exact not_isOpen_of_job hnone
      · exact not_isOpen_of_isPastSend hpast
    exact inv.quiet hat rfl hopen rfl rfl
  | upsert t draft id h approvals hat hjob hdb
  | approve t id approvedBy comment validated approvedAt row h approvals hat hjob hrow hdb
  | markPushed t job pushedAt h approvals hat hjob hdb =>
    exact inv.quiet hat rfl (not_isOpen_of_job hjob) rfl rfl
  | record t job history hat =>
    refine inv.become hat rfl (fun id => ?_) fun id => ?_
    · simp [isRecordingFor, List.count_cons]
    · simp [isSendingFor, List.count_cons, sends, State.become]
      omega
  | send t job h hat hpast hsame =>
    have hno := not_for_of_not_isOpen (not_isOpen_of_isPastSend hpast)
    refine inv.become hat rfl (fun id => ?_) fun id => ?_
    · rw [(hno id).1]
      simp [State.become]
    · rw [(hno id).2]
      simp [isSendingFor, State.become, sends, List.countP_cons, PushJob.sent]

end PushInv

/-- In every run whose pushes are checked alone, an approval request is sent to the agents at
most once and at most one history row is recorded for it. -/
theorem single_push_per_approval (history : WorkloadConfigs) (as : List Action) (s : State)
    (hG : Meets step (fun s a => checksAlone s a = true) (State.initial history) as)
    (hrun : run step (State.initial history) as = some s) (id : String) :
    sends s id ≤ 1 ∧ s.recorded.count id ≤ 1 := by
  have inv := run_invariant_of_meets (fun _ _ _ inv hG h => PushInv.step inv hG h)
    (PushInv.initial history) hG hrun
  have hrec := inv.recorded id
  have hsent := inv.sent id
  omega

section TwoPushes

/-- Both pushes read the request while it is approved. -/
def overlappingPushes : List Action := drafted ++
  [approveZero, .resume 1 (.setApproved 2), pushZero, pushZero,
   .resume 2 (.record 3 []), .resume 3 (.record 4 []), .resume 2 (.send none),
   .resume 3 (.send none), .resume 2 (.markSent 5), .resume 2 (.markPushed 6)]

theorem overlapping_pushes_send_twice :
    ∃ s, run step (State.initial KeyedTable.empty) overlappingPushes = some s ∧
      sends s zeroID = 2 ∧ s.recorded.count zeroID = 2 ∧ s.history.rows.length = 2 := by
  decide +kernel

def retriedPush : List Action := drafted ++
  [approveZero, .resume 1 (.setApproved 2), pushZero,
   .resume 2 (.record 3 []), .resume 2 (.send none), .resume 2 (.markSent 5),
   .resume 2 (.markPushed 6), pushZero]

theorem single_push_per_approval_retried :
    ∃ s, run step (State.initial KeyedTable.empty) retriedPush = some s ∧
      sends s zeroID ≤ 1 ∧ s.recorded.count zeroID ≤ 1 := by
  have hobs : (run step (State.initial KeyedTable.empty) retriedPush).isSome = true := by
    decide +kernel
  obtain ⟨s, hrun⟩ := Option.isSome_iff_exists.mp hobs
  exact ⟨s, hrun,
    single_push_per_approval KeyedTable.empty retriedPush s (by decide +kernel) hrun zeroID⟩

end TwoPushes

end OtelMagnify.Approval
