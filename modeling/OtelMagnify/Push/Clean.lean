import OtelMagnify.Push.Sanitize
import OtelMagnify.Push.Store

/-! The error texts of a push, stored and hydrated: whatever the row held, hydration leaves the
sanitiser's own texts. -/
namespace OtelMagnify.Push

/-- The error texts of a push: its own, those of its targets, the samples of its error groups and
the messages of its timeline. -/
def WorkloadConfig.messages (wc : WorkloadConfig) : List String :=
  [wc.errorMessage, wc.timeoutMessage] ++ wc.instanceStatuses.map (·.errorMessage) ++
    wc.errorGroups.map (·.sampleMessage) ++ wc.timeline.map (·.message)

def WorkloadConfigRow.messages (r : WorkloadConfigRow) : List String :=
  r.errorMessage :: r.instanceStatuses.map (·.errorMessage)

theorem empty_mem_keptTexts : "" ∈ keptTexts := List.mem_cons_self

theorem timeoutMessage_mem_keptTexts : opAMPStatusTimeoutMessage ∈ keptTexts := by decide

theorem map_subset_keptTexts {α : Type} {f : α → String} {l : List α} :
    l.map f ⊆ keptTexts ↔ ∀ a ∈ l, f a ∈ keptTexts := by
  rw [List.subset_def]
  exact List.forall_mem_map

theorem messages_subset_iff (wc : WorkloadConfig) :
    wc.messages ⊆ keptTexts ↔
      wc.errorMessage ∈ keptTexts ∧ wc.timeoutMessage ∈ keptTexts ∧
      (∀ i ∈ wc.instanceStatuses, i.errorMessage ∈ keptTexts) ∧
      (∀ g ∈ wc.errorGroups, g.sampleMessage ∈ keptTexts) ∧
      ∀ t ∈ wc.timeline, t.message ∈ keptTexts := by
  simp only [WorkloadConfig.messages, List.append_subset, List.cons_subset, List.nil_subset,
    and_true, map_subset_keptTexts, and_assoc]

section Hydrated

theorem errorMessage_hydrateInstance (expired : Bool) (configID : String)
    (inst : WorkloadConfigInstanceStatus) :
    (hydrateInstance expired configID inst).errorMessage ∈ keptTexts := by
  unfold hydrateInstance
  dsimp only
  split
  · exact timeoutMessage_mem_keptTexts
  · exact sanitize_mem_keptTexts _

theorem message_timelineEntry {state : PushStatus} {at_ : Time} {message : String} {timedOut : Bool}
    (h : message ∈ keptTexts) {t : TimelineEntry}
    (ht : t ∈ timelineEntry state at_ message timedOut) : t.message ∈ keptTexts := by
  unfold timelineEntry at ht
  split at ht
  · cases ht
  · rw [List.mem_singleton] at ht
    rw [ht]
    exact h

theorem message_buildTimeline {wc : WorkloadConfig}
    (h : ∀ i ∈ wc.instanceStatuses, i.errorMessage ∈ keptTexts) {t : TimelineEntry}
    (ht : t ∈ buildTimeline wc) : t.message ∈ keptTexts := by
  rw [buildTimeline, List.mem_mergeSort] at ht
  simp only [List.mem_append, List.mem_flatMap] at ht
  rcases ht with ((hsubmitted | hsent) | htimeout) | ⟨i, hi, hreport⟩
  · exact message_timelineEntry empty_mem_keptTexts hsubmitted
  · split at hsent
    · exact message_timelineEntry empty_mem_keptTexts hsent
    · cases hsent
  · split at htimeout
    · split at htimeout
      · exact message_timelineEntry timeoutMessage_mem_keptTexts htimeout
      · cases htimeout
    · cases htimeout
  · split at hreport
    · cases hreport
    · exact message_timelineEntry (h i hi) hreport

/-- A sample is empty or sanitised. -/
theorem sampleMessage_addToErrorGroups {groups : List ErrorGroup}
    (h : ∀ g ∈ groups, g.sampleMessage ∈ keptTexts) (configID cause inst msg : String)
    (at_ : Time) :
    ∀ g ∈ addToErrorGroups configID groups cause inst msg at_, g.sampleMessage ∈ keptTexts := by
  have hextend {g : ErrorGroup} (hg : g.sampleMessage ∈ keptTexts) :
      (g.extend inst msg at_).sampleMessage ∈ keptTexts := by
    simp only [ErrorGroup.extend]
    split
    · exact sanitize_mem_keptTexts msg
    · exact hg
  unfold addToErrorGroups
  generalize normalizeRemoteConfigErrorCause cause msg = inferred
  dsimp only
  split
  · intro g hg
    obtain ⟨g, hmem, rfl⟩ := List.mem_map.1 hg
    split
    · exact hextend (h g hmem)
    · exact h g hmem
  · intro g hg
    rcases List.mem_append.1 hg with hmem | hnew
    · exact h g hmem
    · rw [List.mem_singleton.1 hnew]
      exact hextend empty_mem_keptTexts

theorem sampleMessage_errorGroups (wc : WorkloadConfig) :
    ∀ g ∈ buildWorkloadConfigErrorGroups wc, g.sampleMessage ∈ keptTexts := by
  let Kept (groups : List ErrorGroup) : Prop := ∀ g ∈ groups, g.sampleMessage ∈ keptTexts
  have hinsts : Kept (wc.instanceStatuses.foldl (addInstanceError wc.configID) []) := by
    refine List.foldlRecOn (motive := Kept) _ _ nofun fun groups h inst _ => ?_
    unfold addInstanceError
    split
    · exact sampleMessage_addToErrorGroups h _ _ _ _ _
    · exact h
  intro g hg
  rw [buildWorkloadConfigErrorGroups, List.mem_mergeSort] at hg
  obtain ⟨group, hgroup, rfl⟩ := List.mem_map.1 hg
  split at hgroup
  · exact sampleMessage_addToErrorGroups hinsts _ _ _ _ _ group hgroup
  · exact hinsts group hgroup

theorem messages_hydratePushStatus (clock now : Time) (wc : WorkloadConfig) :
    (hydratePushStatus clock now wc).messages ⊆ keptTexts := by
  have hinsts : ∀ i ∈ (hydratePushStatus clock now wc).instanceStatuses,
      i.errorMessage ∈ keptTexts := by
    intro i hi
    obtain ⟨inst, -, rfl⟩ := List.mem_map.1 hi
    exact errorMessage_hydrateInstance ..
  have htimeout (timedOut : Bool) :
      (if timedOut then opAMPStatusTimeoutMessage else "") ∈ keptTexts := by
    cases timedOut
    · exact empty_mem_keptTexts
    · exact timeoutMessage_mem_keptTexts
  rw [messages_subset_iff]
  refine ⟨sanitize_mem_keptTexts _, htimeout _, hinsts, sampleMessage_errorGroups _, ?_⟩
  intro t ht
  exact message_buildTimeline hinsts ht

theorem messages_scanWorkloadConfig (content : String) (now : Time) (r : WorkloadConfigRow) :
    (scanWorkloadConfig content now r).messages ⊆ keptTexts :=
  messages_hydratePushStatus ..

end Hydrated

section Stored

def CleanHistory (db : WorkloadConfigs) : Prop := ∀ r ∈ db.rows, r.messages ⊆ keptTexts

variable {db : WorkloadConfigs}

theorem CleanHistory.update (h : CleanHistory db) {sel : WorkloadConfigRow → Bool}
    {f : WorkloadConfigRow → WorkloadConfigRow} {hf : ∀ r, (f r).key = r.key}
    (hkeep : ∀ r, r.messages ⊆ keptTexts → (f r).messages ⊆ keptTexts) :
    CleanHistory (db.update sel f hf) := by
  intro q hq
  obtain ⟨r, hr, rfl⟩ := List.mem_map.1 hq
  split
  · exact hkeep r (h r hr)
  · exact h r hr

theorem CleanHistory.recordWorkloadConfig (h : CleanHistory db) {clock : Time}
    {wc : WorkloadConfig} {db' : WorkloadConfigs}
    (hdb : recordWorkloadConfig db clock wc = some db') : CleanHistory db' := by
  intro q hq
  rw [KeyedTable.insert_rows hdb, List.mem_append, List.mem_singleton] at hq
  rcases hq with hq | rfl
  · exact h q hq
  · refine List.cons_subset.2 ⟨sanitize_mem_keptTexts _, ?_⟩
    rw [List.map_map]
    exact map_subset_keptTexts.2 fun inst _ => sanitize_mem_keptTexts inst.errorMessage

theorem CleanHistory.markWorkloadConfigSent (h : CleanHistory db) {w hash : String} {at_ : Time} :
    CleanHistory (markWorkloadConfigSent db w hash at_) :=
  h.update fun _ hr => hr

theorem CleanHistory.updateWorkloadConfigStatus (h : CleanHistory db) {w hash : String}
    {status : PushStatus} {msg : String} :
    CleanHistory (updateWorkloadConfigStatus db w hash status msg) :=
  h.update fun _ hr => List.cons_subset.2
    ⟨sanitize_mem_keptTexts msg, (List.cons_subset.1 hr).2⟩

theorem CleanHistory.updateWorkloadConfigInstanceStatus (h : CleanHistory db)
    {w hash uid : String} {status : PushStatus} {msg content : String}
    {scanNow clock updatedAt : Time} :
    CleanHistory (updateWorkloadConfigInstanceStatus db w hash uid status msg content scanNow
      clock updatedAt) := by
  unfold Push.updateWorkloadConfigInstanceStatus
  split
  · exact h
  · refine h.update fun r _ => List.cons_subset.2 ⟨sanitize_mem_keptTexts msg, ?_⟩
    refine map_subset_keptTexts.2 fun i hi => ?_
    obtain ⟨inst, -, rfl⟩ := List.mem_map.1 hi
    exact errorMessage_hydrateInstance ..

end Stored

end OtelMagnify.Push
