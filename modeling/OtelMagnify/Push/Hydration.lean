import OtelMagnify.Push.Aggregate
import OtelMagnify.Push.Sanitize

/-! What `HydratePushStatus` derives from a row: the counts, the status, the timeline, and that a
row which was hydrated before is as good as the stored one. -/
namespace OtelMagnify.Push

def WorkloadConfig.withPushID (wc : WorkloadConfig) (id : String) : WorkloadConfig :=
  { wc with pushID := id }

/-- The id of a push: one is made for a row without, from the RFC 3339 text of its time. -/
def pushIDFor (format : Time → String) (wc : WorkloadConfig) (submittedAt : Time) : String :=
  if wc.pushID = "" ∧ submittedAt ≠ 0 then
    wc.workloadID ++ ":" ++ wc.configID ++ ":" ++ format submittedAt
  else wc.pushID

def hydrateRow (format : Time → String) (clock now : Time) (wc : WorkloadConfig) :
    WorkloadConfig :=
  let h := hydratePushStatus clock now wc
  h.withPushID (pushIDFor format wc h.submittedAt)

section Counts

theorem foldl_add_count (insts : List WorkloadConfigInstanceStatus) (t : Tally) :
    let u := insts.foldl Tally.add t
    u.applied + u.failed + u.pending = t.applied + t.failed + t.pending + insts.length ∧
      u.noStatus + t.pending ≤ u.pending + t.noStatus := by
  induction insts generalizing t with
  | nil => exact ⟨rfl, Nat.le_of_eq (Nat.add_comm _ _)⟩
  | cons i insts ih =>
    obtain ⟨hsum, hle⟩ := ih (t.add i)
    have hadd : (t.add i).applied + (t.add i).failed + (t.add i).pending =
        t.applied + t.failed + t.pending + 1 ∧
        (t.add i).noStatus + t.pending ≤ (t.add i).pending + t.noStatus := by
      cases hi : i.status <;> simp only [Tally.add, hi] <;> omega
    simp only [List.foldl_cons, List.length_cons]
    omega

theorem foldl_add_timedOut (insts : List WorkloadConfigInstanceStatus)
    (h : ∀ i ∈ insts, i.timedOut = true → i.status = .noStatus) (t : Tally) :
    let u := insts.foldl Tally.add t
    u.timedOut + t.noStatus ≤ u.noStatus + t.timedOut := by
  induction insts generalizing t with
  | nil => exact Nat.le_of_eq (Nat.add_comm _ _)
  | cons i insts ih =>
    have hrest := ih (fun j hj => h j (List.mem_cons_of_mem _ hj)) (t.add i)
    have hadd : (t.add i).timedOut + t.noStatus ≤ (t.add i).noStatus + t.timedOut := by
      have hi := h i List.mem_cons_self
      cases htimed : i.timedOut with
      | true => simp only [Tally.add, hi htimed, htimed, Bool.toNat_true]; omega
      | false => cases hstatus : i.status <;> simp only [Tally.add, hstatus, htimed,
          Bool.toNat_false] <;> omega
    simp only [List.foldl_cons]
    omega

theorem status_of_timedOut {expired : Bool} {configID : String}
    {inst : WorkloadConfigInstanceStatus}
    (h : (hydrateInstance expired configID inst).timedOut = true) :
    (hydrateInstance expired configID inst).status = .noStatus := by
  unfold hydrateInstance at h ⊢
  dsimp only at h ⊢
  split at h
  · rename_i hexpired
    rw [if_pos hexpired]
    rfl
  · cases h

end Counts

section Absorb

def awaitsReport (inst : WorkloadConfigInstanceStatus) : Bool :=
  inst.required && (canonicalInstanceStatus inst.status = .sent ||
    canonicalInstanceStatus inst.status = .noStatus)

variable (configID : String) (inst : WorkloadConfigInstanceStatus)

theorem hydrateInstance_eq (expired : Bool) :
    hydrateInstance expired configID inst =
      if expired && awaitsReport inst then expireInstance (normalizeInstance configID inst)
      else normalizeInstance configID inst := by
  unfold hydrateInstance
  dsimp only
  rw [Bool.and_assoc]
  rfl

theorem canonicalInstanceStatus_idem (status : PushStatus) :
    canonicalInstanceStatus (canonicalInstanceStatus status) = canonicalInstanceStatus status := by
  cases status <;> rfl

theorem normalizeInstance_idem :
    normalizeInstance configID (normalizeInstance configID inst) =
      normalizeInstance configID inst := by
  have hcause : ¬ ((normalizeInstance configID inst).errorMessage ≠ "" ∧
      (normalizeInstance configID inst).errorCause = "") := by
    -- a text that is left has been given a cause
    rintro ⟨hmsg, hcause⟩
    have hne : inst.errorMessage ≠ "" := by
      intro hempty
      simp only [normalizeInstance, hempty] at hmsg
      exact hmsg (by decide)
    have hknown := cause_mem_knownCauses inst.errorMessage
    simp only [normalizeInstance, hne, ne_eq, not_false_eq_true, true_and] at hcause
    split_ifs at hcause with hnone
    · rw [hcause] at hknown
      exact absurd hknown (by decide)
    · exact hnone hcause
  have hhash : (if (normalizeInstance configID inst).configHash = "" then configID
      else (normalizeInstance configID inst).configHash) =
        (normalizeInstance configID inst).configHash := by
    simp only [normalizeInstance]
    split_ifs <;> rfl
  conv_lhs => rw [normalizeInstance, hhash]
  rw [if_neg hcause]
  simp only [normalizeInstance, canonicalInstanceStatus_idem, sanitize_sanitize]

theorem awaitsReport_normalizeInstance :
    awaitsReport (normalizeInstance configID inst) = awaitsReport inst := by
  simp only [awaitsReport, normalizeInstance, canonicalInstanceStatus_idem]

/-- The overlay hides the cause and the text that were there. -/
theorem expireInstance_normalizeInstance_expireInstance :
    expireInstance (normalizeInstance configID
      (expireInstance (normalizeInstance configID inst))) =
        expireInstance (normalizeInstance configID inst) := by
  simp only [expireInstance, normalizeInstance]
  congr 1
  split_ifs <;> rfl

theorem hydrateInstance_hydrateInstance {expired expired' : Bool}
    (h : expired = true → expired' = true) :
    hydrateInstance expired' configID (hydrateInstance expired configID inst) =
      hydrateInstance expired' configID inst := by
  simp only [hydrateInstance_eq]
  cases hawaits : awaitsReport inst with
  | false =>
    simp only [Bool.and_false, Bool.false_eq_true, if_false, awaitsReport_normalizeInstance,
      hawaits, normalizeInstance_idem]
  | true =>
    cases hexpired : expired with
    | false =>
      simp only [Bool.false_and, Bool.false_eq_true, if_false, awaitsReport_normalizeInstance,
        hawaits, normalizeInstance_idem]
    | true =>
      have hrequired : awaitsReport (expireInstance (normalizeInstance configID inst)) = true := by
        rw [awaitsReport, Bool.and_eq_true] at hawaits ⊢
        exact ⟨hawaits.1, rfl⟩
      simp only [h hexpired, hrequired, Bool.and_self, if_true,
        expireInstance_normalizeInstance_expireInstance]

theorem canonicalPushStatus_idem (status : PushStatus) :
    canonicalPushStatus (canonicalPushStatus status) = canonicalPushStatus status := by
  cases status <;> rfl

/-- A row that has nothing left to normalise. -/
structure IsNormal (wc : WorkloadConfig) : Prop where
  hash : (if wc.configHash = "" then wc.configID else wc.configHash) = wc.configHash
  status : canonicalPushStatus wc.status = wc.status
  submitted : (if wc.submittedAt = 0 then wc.appliedAt else wc.submittedAt) = wc.submittedAt
  timeout : wc.opampStatusTimeoutAt = none → wc.submittedAt = 0
  message : sanitizeRemoteConfigErrorMessage wc.errorMessage = wc.errorMessage

theorem IsNormal.normalizeRow_eq {wc : WorkloadConfig} (h : IsNormal wc) : normalizeRow wc = wc := by
  have htimeout : wc.opampStatusTimeoutAt.or
      (if wc.submittedAt = 0 then none else some (wc.submittedAt + opampStatusTimeout)) =
        wc.opampStatusTimeoutAt := by
    cases hat : wc.opampStatusTimeoutAt with
    | none => exact if_pos (h.timeout hat)
    | some t => rfl
  unfold normalizeRow
  simp only [h.hash, h.status, h.submitted, h.message, htimeout]

theorem isNormal_normalizeRow (wc : WorkloadConfig) : IsNormal (normalizeRow wc) where
  hash := by
    simp only [normalizeRow]
    split_ifs <;> rfl
  status := canonicalPushStatus_idem wc.status
  submitted := by
    simp only [normalizeRow]
    split_ifs <;> rfl
  timeout := by
    simp only [normalizeRow]
    cases wc.opampStatusTimeoutAt with
    | none =>
      intro h
      by_contra hne
      rw [Option.none_or, if_neg hne] at h
      cases h
    | some t =>
      intro h
      cases h
  message := by
    simp only [normalizeRow]
    exact sanitize_sanitize wc.errorMessage

/-- The stored status is read only where no target decides. -/
theorem aggregateStatus_cases (t : Tally) (n : ℕ) (sentAt : Option Time) :
    (∀ status, aggregateStatus t n sentAt status = status) ∨
      ∃ decided, canonicalPushStatus decided = decided ∧
        ∀ status, aggregateStatus t n sentAt status = decided := by
  unfold aggregateStatus
  by_cases hn : n = 0
  · exact .inl fun _ => if_pos hn
  by_cases hfailed : 0 < t.failed
  · exact .inr ⟨.failed, rfl, fun _ => by rw [if_neg hn, if_pos hfailed]⟩
  by_cases hall : t.allApplied = true
  · exact .inr ⟨.applied, rfl, fun _ => by rw [if_neg hn, if_neg hfailed, if_pos hall]⟩
  by_cases hany : t.hasApplyingOrApplied = true
  · exact .inr ⟨.applying, rfl, fun _ => by
      rw [if_neg hn, if_neg hfailed, if_neg hall, if_pos hany]⟩
  by_cases hsent : sentAt.isSome = true
  · exact .inr ⟨.sent, rfl, fun _ => by
      rw [if_neg hn, if_neg hfailed, if_neg hall, if_neg hany, if_pos hsent]⟩
  · exact .inl fun _ => by
      rw [if_neg hn, if_neg hfailed, if_neg hall, if_neg hany, if_neg hsent]

theorem aggregateStatus_idem (t : Tally) (n : ℕ) (sentAt : Option Time) (status : PushStatus) :
    aggregateStatus t n sentAt (aggregateStatus t n sentAt status) =
      aggregateStatus t n sentAt status := by
  rcases aggregateStatus_cases t n sentAt with hstored | ⟨_, -, heq⟩
  · rw [hstored]
  · rw [heq, heq]

theorem IsNormal.deriveRow {wc : WorkloadConfig} (h : IsNormal wc) (now : Time) :
    IsNormal (deriveRow now wc) where
  hash := h.hash
  status := by
    simp only [Push.deriveRow]
    rcases aggregateStatus_cases _ _ wc.sentAt with hstored | ⟨decided, hdecided, heq⟩
    · rw [hstored, h.status]
    · rw [heq, hdecided]
  submitted := h.submitted
  timeout := h.timeout
  message := h.message

/-- What was derived at an earlier time does not change what is derived later. -/
theorem deriveRow_deriveRow {now later : Time} (hle : now ≤ later) (wc : WorkloadConfig) :
    deriveRow later (deriveRow now wc) = deriveRow later wc := by
  have hexpired : (wc.opampStatusTimeoutAt.any fun t => t ≤ now) = true →
      (wc.opampStatusTimeoutAt.any fun t => t ≤ later) = true := by
    cases wc.opampStatusTimeoutAt with
    | none => exact id
    | some t =>
      simp only [Option.any_some, decide_eq_true_eq]
      exact fun h => h.trans hle
  unfold deriveRow
  dsimp only
  generalize wc.opampStatusTimeoutAt.any (fun t => t ≤ now) = expired,
    wc.opampStatusTimeoutAt.any (fun t => t ≤ later) = expired' at hexpired ⊢
  have hinsts : (wc.instanceStatuses.map (hydrateInstance expired wc.configID)).map
        (hydrateInstance expired' wc.configID) =
      wc.instanceStatuses.map (hydrateInstance expired' wc.configID) := by
    rw [List.map_map]
    exact List.map_congr_left fun inst _ => hydrateInstance_hydrateInstance _ inst hexpired
  simp only [hinsts, List.length_map, aggregateStatus_hydrate expired expired',
    aggregateStatus_idem, buildTimeline, buildWorkloadConfigErrorGroups]

theorem hydratePushStatus_hydratePushStatus {clock now clock' later : Time}
    (hle : hydratedAt clock now ≤ hydratedAt clock' later) (wc : WorkloadConfig) :
    hydratePushStatus clock' later (hydratePushStatus clock now wc) =
      hydratePushStatus clock' later wc := by
  simp only [hydratePushStatus]
  rw [((isNormal_normalizeRow wc).deriveRow _).normalizeRow_eq, deriveRow_deriveRow hle]

theorem hydratePushStatus_withPushID (clock now : Time) (wc : WorkloadConfig) (id : String) :
    hydratePushStatus clock now (wc.withPushID id) =
      (hydratePushStatus clock now wc).withPushID id := by
  unfold hydratePushStatus WorkloadConfig.withPushID
  rfl

theorem submittedAt_withPushID (wc : WorkloadConfig) (id : String) :
    (wc.withPushID id).submittedAt = wc.submittedAt := rfl

theorem withPushID_withPushID (wc : WorkloadConfig) (id id' : String) :
    (wc.withPushID id).withPushID id' = wc.withPushID id' := rfl

theorem pushIDFor_withPushID (format : Time → String) (wc wc' : WorkloadConfig)
    (submittedAt : Time) (hworkload : wc'.workloadID = wc.workloadID)
    (hconfig : wc'.configID = wc.configID) :
    pushIDFor format (wc'.withPushID (pushIDFor format wc submittedAt)) submittedAt =
      pushIDFor format wc submittedAt := by
  have hne (text : String) : wc.workloadID ++ ":" ++ wc.configID ++ ":" ++ text ≠ "" := by
    intro h
    have hlist := congrArg String.toList h
    simp at hlist
  simp only [pushIDFor, WorkloadConfig.withPushID, hworkload, hconfig]
  by_cases hmade : wc.pushID = "" ∧ submittedAt ≠ 0
  · rw [if_pos hmade, if_neg fun h => hne _ h.1]
  · rw [if_neg hmade, if_neg hmade]

theorem submittedAt_hydratePushStatus (clock now : Time) (wc : WorkloadConfig) :
    (hydratePushStatus clock now wc).submittedAt = (normalizeRow wc).submittedAt := rfl

theorem hydrateRow_hydrateRow (format : Time → String) {clock now clock' later : Time}
    (hle : hydratedAt clock now ≤ hydratedAt clock' later) (wc : WorkloadConfig) :
    hydrateRow format clock' later (hydrateRow format clock now wc) =
      hydrateRow format clock' later wc := by
  have hid := pushIDFor_withPushID format wc (hydratePushStatus clock now wc)
    (normalizeRow wc).submittedAt rfl rfl
  unfold hydrateRow
  simp only [hydratePushStatus_withPushID, hydratePushStatus_hydratePushStatus hle,
    submittedAt_withPushID, submittedAt_hydratePushStatus, hid, withPushID_withPushID]

end Absorb

/-- The status of a push with targets, from the statuses of the targets and what is stored. -/
def targetsStatus (insts : List WorkloadConfigInstanceStatus) (sentAt : Option Time)
    (stored : PushStatus) : PushStatus :=
  if ∃ i ∈ insts, i.status = .failed then .failed
  else if ∀ i ∈ insts, i.status = .applied then .applied
  else if ∃ i ∈ insts, i.status = .applied ∨ i.status = .applying then .applying
  else if sentAt.isSome then .sent
  else canonicalPushStatus stored

theorem aggregateStatus_tally {insts : List WorkloadConfigInstanceStatus} (hne : insts ≠ [])
    (sentAt : Option Time) (stored : PushStatus) :
    aggregateStatus (tally insts) insts.length sentAt (canonicalPushStatus stored) =
      targetsStatus insts sentAt stored := by
  have hlength : insts.length ≠ 0 := by simpa using hne
  simp only [aggregateStatus, targetsStatus, tally_failed_pos, tally_allApplied,
    tally_hasApplyingOrApplied, ne_eq, hne, not_false_eq_true, true_and, if_neg hlength,
    or_comm]

theorem timeline_sorted (wc : WorkloadConfig) :
    (buildTimeline wc).Pairwise fun a b => a.at_ ≤ b.at_ := by
  have hsorted (entries : List TimelineEntry) :
      (entries.mergeSort fun a b => a.at_ ≤ b.at_).Pairwise fun a b =>
        decide (a.at_ ≤ b.at_) = true :=
    List.pairwise_mergeSort (by intro a b c; simp only [decide_eq_true_eq]; exact le_trans)
      (by intro a b; simp only [Bool.or_eq_true, decide_eq_true_eq]; exact le_total _ _) entries
  unfold buildTimeline
  exact (hsorted _).imp of_decide_eq_true

section Hydration

variable (format : Time → String) (clock now : Time) (wc : WorkloadConfig)

/-- What holds of the row `h` that `wc` is hydrated to. -/
structure IsHydrated (wc h : WorkloadConfig) : Prop where
  counts : h.appliedCount + h.failedCount + h.pendingCount = h.targetCount
  targets : h.targetCount = wc.instanceStatuses.length
  timedOut : h.timedOutCount ≤ h.noStatusCount
  noStatus : h.noStatusCount ≤ h.pendingCount
  status : wc.instanceStatuses ≠ [] →
    h.status = targetsStatus h.instanceStatuses wc.sentAt wc.status
  timeline : h.timeline.Pairwise fun a b => a.at_ ≤ b.at_

theorem isHydrated_hydrateRow : IsHydrated wc (hydrateRow format clock now wc) := by
  have hcount := foldl_add_count (hydrateRow format clock now wc).instanceStatuses
    { allApplied := decide (0 < (hydrateRow format clock now wc).instanceStatuses.length) }
  have htimed := foldl_add_timedOut (hydrateRow format clock now wc).instanceStatuses (by
      intro i hi
      obtain ⟨inst, -, rfl⟩ := List.mem_map.1 hi
      exact status_of_timedOut)
    { allApplied := decide (0 < (hydrateRow format clock now wc).instanceStatuses.length) }
  simp only [Nat.zero_add, Nat.add_zero] at hcount htimed
  refine ⟨hcount.1, List.length_map _, htimed, hcount.2, fun hne => ?_, timeline_sorted _⟩
  have hinsts : (hydrateRow format clock now wc).instanceStatuses ≠ [] := by
    intro hnil
    exact hne (List.map_eq_nil_iff.1 hnil)
  exact aggregateStatus_tally hinsts wc.sentAt wc.status

/-- The counts, the status and the timeline of a hydrated push; and what an earlier hydration has
written into the row changes none of it. -/
theorem hydration :
    IsHydrated wc (hydrateRow format clock now wc) ∧
      ∀ clock' later, hydratedAt clock now ≤ hydratedAt clock' later →
        hydrateRow format clock' later (hydrateRow format clock now wc) =
          hydrateRow format clock' later wc :=
  ⟨isHydrated_hydrateRow format clock now wc,
    fun _ _ hle => hydrateRow_hydrateRow format hle wc⟩

/-- A push to one required instance that has not reported, stored as failed. -/
def unsentPush : WorkloadConfig where
  workloadID := "w"
  configID := "c"
  appliedAt := 10
  status := .failed
  instanceStatuses :=
    [{ instanceUID := "i", required := true, status := .sent, configHash := "c", updatedAt := 10 }]

/-- The zero time stands for the current one, so that a row hydrated at it before may be past its
timeout; and a push is failed as well when it is stored as such and no target has reported. -/
theorem hydration_at_the_zero_time :
    ((0 : Time) ≤ 20 ∧
      hydrateRow (fun _ => "") (20 + opampStatusTimeout) 20
        (hydrateRow (fun _ => "") (20 + opampStatusTimeout) 0 unsentPush) ≠
      hydrateRow (fun _ => "") (20 + opampStatusTimeout) 20 unsentPush) ∧
    ((hydrateRow (fun _ => "") 20 20 unsentPush).status = .failed ∧
      ¬ ∃ i ∈ (hydrateRow (fun _ => "") 20 20 unsentPush).instanceStatuses,
        i.status = .failed) := by
  decide +kernel

/-- The push of one instance before and after its timeout. -/
theorem hydration_past_the_timeout :
    hydratedAt 0 20 ≤ hydratedAt 0 (20 + opampStatusTimeout) ∧
      hydrateRow (fun _ => "") 0 (20 + opampStatusTimeout)
          (hydrateRow (fun _ => "") 0 20 unsentPush) =
        hydrateRow (fun _ => "") 0 (20 + opampStatusTimeout) unsentPush :=
  ⟨by decide, (hydration (fun _ => "") 0 20 unsentPush).2 0 _ (by decide)⟩

end Hydration

end OtelMagnify.Push
