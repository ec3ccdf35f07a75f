import OtelMagnify.Server.Frame

/-! The columns of a workload row that heartbeats and status reports do not own, and what each
statement on the `workloads` table does to them. -/
namespace OtelMagnify.Server
open Push

/-- The row without the columns that a heartbeat or a report writes (`status`, `last_seen_at`,
`remote_config_status`) and those that an upsert merges or a fingerprint determines. -/
structure Columns where
  displayName : String
  type : WorkloadType
  version : String
  labels : Attrs
  activeConfigID : Option String
  activeConfigHash : String
  acceptsRemoteConfig : Bool
  retentionUntil : Option Time
  archivedAt : Option Time
  deriving DecidableEq, Repr

def Workload.columns (row : Workload) : Columns where
  displayName := row.displayName
  type := row.type
  version := row.version
  labels := row.labels
  activeConfigID := row.activeConfigID
  activeConfigHash := row.activeConfigHash
  acceptsRemoteConfig := row.acceptsRemoteConfig
  retentionUntil := row.retentionUntil
  archivedAt := row.archivedAt

def Workloads.columns (rows : Workloads) (w : String) : Option Columns :=
  (rows w).map Workload.columns

namespace Columns

/-- What a description makes of the columns. `reported` is the config id of its effective config,
if it has one that the store holds. -/
def describe (attrs : Attrs) (accepts : Bool) (reported : Option String) (old : Option Columns) :
    Columns :=
  let o := old.getD Workload.zero.columns
  let service := attr attrs "service.name"
  let version := attr attrs "service.version"
  { o with
    displayName := if service ≠ "" then service else o.displayName
    version := if version ≠ "" then version else o.version
    type := classifyAgent attrs
    acceptsRemoteConfig := accepts
    labels := describedLabels o.labels attrs
    retentionUntil := none
    activeConfigID := reported.or o.activeConfigID }

def clearRetention (c : Columns) : Columns := { c with retentionUntil := none }

def setRetention (until_ : Time) (c : Columns) : Columns := { c with retentionUntil := some until_ }

def archive (at_ : Time) (c : Columns) : Columns := { c with archivedAt := some at_ }

def archiveExpired (now : Time) (c : Columns) : Columns :=
  if c.archivedAt = none ∧ c.retentionUntil.any (· < now) = true then c.archive now else c

end Columns

theorem columns_described (prev : Option Workload) (fp : FingerprintResult) (attrs : Attrs)
    (msg : AgentMessage) (status : WorkloadStatus) (now : Time) (stored : Bool) :
    (Workload.described prev fp attrs msg status now stored).columns =
      .describe attrs msg.acceptsRemoteConfig (persistEffectiveConfig msg.effectiveConfig stored)
        (prev.map Workload.columns) := by
  cases prev <;> rfl

def trustedLabels (labels : Attrs) : Attrs :=
  labels.filter fun kv => hasPrefix kv.1 trustedSelectorLabelPrefix

/-- A description keeps the trusted labels and brings none. -/
theorem trustedLabels_describedLabels (old attrs : Attrs) :
    trustedLabels (describedLabels old attrs) = trustedLabels old := by
  have hnone : (attrs.filter fun kv => kv.1 ≠ "service.name" && kv.1 ≠ "service.version" &&
      !hasPrefix kv.1 trustedSelectorLabelPrefix).filter
        (fun kv => hasPrefix kv.1 trustedSelectorLabelPrefix) = [] := by
    rw [List.filter_filter, List.filter_eq_nil_iff]
    intro kv _
    cases hasPrefix kv.1 trustedSelectorLabelPrefix <;> simp
  rw [trustedLabels, describedLabels, List.filter_append, hnone, List.append_nil,
    List.filter_filter]
  simp only [Bool.and_self]
  rfl

namespace Workloads

def archiveWorkload (rows : Workloads) (id : String) (archivedAt : Time) : Workloads :=
  Function.update rows id ((rows id).map fun w =>
    { w with
      status := .disconnected
      retentionUntil := some archivedAt
      archivedAt := some archivedAt })

theorem columns_update (rows : Workloads) (w : String) (row : Option Workload) :
    columns (Function.update rows w row) =
      Function.update rows.columns w (row.map Workload.columns) := by
  funext x
  by_cases hx : x = w
  · subst hx
    simp [columns]
  · simp [columns, hx]

theorem columns_upsertWorkload (rows : Workloads) (w : String) (row : Workload) :
    (rows.upsertWorkload w row).columns = Function.update rows.columns w (some row.columns) :=
  columns_update rows w _

theorem columns_upsertWorkload_self {rows : Workloads} {w : String} {row : Workload}
    (h : rows.columns w = some row.columns) :
    (rows.upsertWorkload w row).columns = rows.columns := by
  rw [columns_upsertWorkload, ← h, Function.update_eq_self]

theorem columns_markWorkloadDisconnected (rows : Workloads) (w : String) (until_ : Time) :
    (rows.markWorkloadDisconnected w until_).columns =
      Function.update rows.columns w ((rows.columns w).map (.setRetention until_)) := by
  rw [markWorkloadDisconnected, columns_update, columns, Option.map_map, Option.map_map]
  rfl

theorem columns_clearWorkloadRetention (rows : Workloads) (w : String) :
    (rows.clearWorkloadRetention w).columns =
      Function.update rows.columns w ((rows.columns w).map .clearRetention) := by
  rw [clearWorkloadRetention, columns_update, columns, Option.map_map, Option.map_map]
  rfl

theorem columns_archiveWorkload (rows : Workloads) (w : String) (at_ : Time) :
    (rows.archiveWorkload w at_).columns =
      Function.update rows.columns w
        ((rows.columns w).map fun c => (c.setRetention at_).archive at_) := by
  rw [archiveWorkload, columns_update, columns, Option.map_map, Option.map_map]
  rfl

theorem columns_archiveExpiredWorkloads (rows : Workloads) (now : Time) :
    (rows.archiveExpiredWorkloads now).columns =
      fun w => (rows.columns w).map (.archiveExpired now) := by
  funext w
  simp only [columns, archiveExpiredWorkloads, Option.map_map]
  refine Option.map_congr fun row _ => ?_
  simp only [Function.comp_apply, Columns.archiveExpired]
  by_cases h : row.archivedAt = none ∧ row.retentionUntil.any (· < now) = true
  · rw [if_pos h]
    exact (if_pos h).symm
  · rw [if_neg h]
    exact (if_neg h).symm

end Workloads

end OtelMagnify.Server
