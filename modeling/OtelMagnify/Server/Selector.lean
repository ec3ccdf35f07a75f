import OtelMagnify.Server.Columns

/-! Push selectors: which workloads the selector of a saved push group, or an ad hoc one, matches
(`internal/api/pushes.go`). -/
namespace OtelMagnify.Server
open Push

structure PushGroupSelector where
  matchLabels : Attrs := []
  types : List String := []
  versions : List String := []
  capabilities : List String := []
  deriving DecidableEq, Repr

def WorkloadType.text : WorkloadType → String
  | collector => "collector"
  | sdk => "sdk"

def workloadHasPushCapability (row : Workload) (capability : String) : Bool :=
  if capability ∈ ["remote_config", "remote_config_capable", "push_config"] then
    row.acceptsRemoteConfig
  else if capability = "report_config" then row.type = .collector
  else row.availableComponents.any fun ac => ac.components.any fun c => capability ∈ c.2

def matchesLabel (row : Workload) (useTrustedLabels : Bool) (kv : String × String) : Bool :=
  if useTrustedLabels then attr row.labels (trustedSelectorLabelPrefix ++ kv.1) = kv.2
  else !hasPrefix kv.1 trustedSelectorLabelPrefix && attr row.labels kv.1 = kv.2

def matchesPushSelector (row : Workload) (sel : PushGroupSelector) (useTrustedLabels : Bool) :
    Bool :=
  sel.matchLabels.all (matchesLabel row useTrustedLabels) &&
    (sel.types = [] || row.type.text ∈ sel.types) &&
    (sel.versions = [] || row.version ∈ sel.versions) &&
    sel.capabilities.all (workloadHasPushCapability row)

/-- Whether `buildPushPreview` targets the workload: it is listed and the selector matches. -/
def Workloads.isPushTarget (rows : Workloads) (groupID : String) (sel : PushGroupSelector)
    (w : String) : Bool :=
  (rows w).any fun row => row.archivedAt = none && matchesPushSelector row sel (groupID ≠ "")

theorem hasPrefix_append (pre s : String) : hasPrefix (pre ++ s) pre = true := by
  simp [hasPrefix, String.toList_append]

/-- A trusted key is looked up among the trusted labels only. -/
theorem attr_trustedLabels {key : String} (h : hasPrefix key trustedSelectorLabelPrefix = true)
    (labels : Attrs) : attr (trustedLabels labels) key = attr labels key := by
  have hfind : (trustedLabels labels).find? (·.1 = key) = labels.find? (·.1 = key) := by
    rw [trustedLabels, List.find?_filter]
    congr 1
    funext kv
    by_cases hk : kv.1 = key
    · simp [hk, h]
    · simp [hk]
  rw [attr, attr, hfind]

theorem matchesPushSelector_trusted {sel : PushGroupSelector} {kv : String × String}
    (hmem : kv ∈ sel.matchLabels) (h : hasPrefix kv.1 trustedSelectorLabelPrefix = true)
    (row : Workload) : matchesPushSelector row sel false = false := by
  have hall : sel.matchLabels.all (matchesLabel row false) = false := by
    rw [List.all_eq_false]
    exact ⟨kv, hmem, by simp [matchesLabel, h]⟩
  simp [matchesPushSelector, hall]

theorem matchesPushSelector_congr {sel : PushGroupSelector} {a b : Workload}
    (htypes : sel.types = []) (hversions : sel.versions = []) (hcaps : sel.capabilities = [])
    (h : trustedLabels a.labels = trustedLabels b.labels) :
    matchesPushSelector a sel true = matchesPushSelector b sel true := by
  have hlabel : matchesLabel a true = matchesLabel b true := by
    funext kv
    have hpre := hasPrefix_append trustedSelectorLabelPrefix kv.1
    simp only [matchesLabel, if_true]
    rw [← attr_trustedLabels hpre a.labels, ← attr_trustedLabels hpre b.labels, h]
  simp [matchesPushSelector, htypes, hversions, hcaps, hlabel]

end OtelMagnify.Server
