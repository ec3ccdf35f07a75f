import OtelMagnify.Push.Aggregate
import Mathlib.Data.List.Basic

/-! The instance registry: which live instance belongs to which workload. -/
namespace OtelMagnify.Server
open Push

structure Instance where
  instanceUID : String
  podName : String
  version : String
  effectiveConfigHash : String
  healthy : Bool
  acceptsRemoteConfig : Bool
  remoteConfigCapabilityKnown : Bool
  remoteConfigStatus : Option RemoteConfigStatus
  deriving DecidableEq, Repr

inductive WorkloadStatus where
  | connected | degraded | disconnected
  deriving DecidableEq, Repr

/-- `InstanceRegistry`: the buckets and the cache agree. -/
structure Registry where
  byWorkload : String → List Instance
  uidToWL : String → Option String
  uidToWL_eq_some : ∀ uid w, uidToWL uid = some w ↔ ∃ i ∈ byWorkload w, i.instanceUID = uid

namespace Registry

def empty : Registry where
  byWorkload := fun _ => []
  uidToWL := fun _ => none
  uidToWL_eq_some := by simp

def without (bucket : List Instance) (uid : String) : List Instance :=
  bucket.filter (·.instanceUID ≠ uid)

theorem exists_mem_without {bucket : List Instance} {uid u : String} :
    (∃ i ∈ without bucket uid, i.instanceUID = u) ↔
      (∃ i ∈ bucket, i.instanceUID = u) ∧ u ≠ uid := by
  simp only [without, List.mem_filter, decide_eq_true_eq]
  constructor
  · rintro ⟨i, ⟨hi, hne⟩, rfl⟩
    exact ⟨⟨i, hi, rfl⟩, hne⟩
  · rintro ⟨⟨i, hi, rfl⟩, hne⟩
    exact ⟨i, ⟨hi, hne⟩, rfl⟩

/-- `BindInstance`. The bucket that the instance leaves is not looked at again. -/
def bindInstance (r : Registry) (uid workloadID : String) (ins : Instance) : Registry where
  byWorkload := fun w =>
    if w = workloadID then { ins with instanceUID := uid } :: without (r.byWorkload w) uid
    else if r.uidToWL uid = some w then without (r.byWorkload w) uid
    else r.byWorkload w
  uidToWL := Function.update r.uidToWL uid (some workloadID)
  uidToWL_eq_some := by
    intro u w
    by_cases hu : u = uid
    · subst hu
      rw [Function.update_self]
      split
      · next hw => simp [hw]
      · next hw =>
        have hne : some workloadID ≠ some w := fun h => hw (Option.some.inj h).symm
        split
        · rw [exists_mem_without]
          simp [hne]
        · next hnot =>
          rw [← r.uidToWL_eq_some]
          simp [hne, hnot]
    · rw [Function.update_of_ne hu, r.uidToWL_eq_some]
      split
      · simp only [List.mem_cons, exists_eq_or_imp, exists_mem_without]
        constructor
        · exact fun h => .inr ⟨h, hu⟩
        · rintro (h | h)
          · exact absurd h.symm hu
          · exact h.1
      · split
        · rw [exists_mem_without]
          simp [hu]
        · rfl

/-- `UpdateInstance`; no caller changes the uid. -/
def updateInstance (r : Registry) (uid : String) (mutate : Instance → Instance) : Registry where
  byWorkload := fun w => (r.byWorkload w).map fun i =>
    if i.instanceUID = uid then { mutate i with instanceUID := i.instanceUID } else i
  uidToWL := r.uidToWL
  uidToWL_eq_some := by
    intro u w
    rw [r.uidToWL_eq_some]
    constructor
    · rintro ⟨i, hi, rfl⟩
      refine ⟨_, List.mem_map_of_mem hi, ?_⟩
      split <;> rfl
    · rintro ⟨j, hj, rfl⟩
      obtain ⟨i, hi, rfl⟩ := List.mem_map.mp hj
      refine ⟨i, hi, ?_⟩
      split <;> rfl

/-- `UnbindInstance` of an instance that is in the bucket of the workload. -/
def remove (r : Registry) (uid workloadID : String) (h : r.uidToWL uid = some workloadID) :
    Registry where
  byWorkload := fun w =>
    if w = workloadID then without (r.byWorkload w) uid else r.byWorkload w
  uidToWL := Function.update r.uidToWL uid none
  uidToWL_eq_some := by
    intro u w
    by_cases hu : u = uid
    · subst hu
      rw [Function.update_self]
      split
      · rw [exists_mem_without]
        simp
      · next hw =>
        rw [← r.uidToWL_eq_some, h]
        simp [Ne.symm hw]
    · rw [Function.update_of_ne hu, r.uidToWL_eq_some]
      split
      · rw [exists_mem_without]
        simp [hu]
      · rfl

/-- `UnbindInstance`: the workload it belonged to, empty when there was none. -/
def unbindInstance (r : Registry) (uid : String) : Registry × String :=
  match h : r.uidToWL uid with
  | none => (r, "")
  | some w => if w = "" then (r, "") else (r.remove uid w h, w)

def lookupWorkload (r : Registry) (uid : String) : Option String := r.uidToWL uid

def count (r : Registry) (workloadID : String) : ℕ := (r.byWorkload workloadID).length

def instances (r : Registry) (workloadID : String) : List Instance := r.byWorkload workloadID

def aggregatedStatus (r : Registry) (workloadID : String) : WorkloadStatus :=
  let bucket := r.byWorkload workloadID
  if bucket.length = 0 then .disconnected
  else if bucket.any (!·.healthy) then .degraded
  else .connected

variable {r : Registry} {uid w : String}

section Members

variable {i : Instance}

theorem mem_bindInstance {workloadID : String} {ins : Instance} :
    i ∈ (r.bindInstance uid workloadID ins).byWorkload w ↔
      w = workloadID ∧ i = { ins with instanceUID := uid } ∨
        i ∈ r.byWorkload w ∧ i.instanceUID ≠ uid := by
  simp only [bindInstance]
  split
  · next hw => simp [hw, without]
  · next hw =>
    split
    · simp [hw, without]
    · next hnot =>
      have hne (hi : i ∈ r.byWorkload w) : i.instanceUID ≠ uid :=
        fun hu => hnot ((r.uidToWL_eq_some uid w).mpr ⟨i, hi, hu⟩)
      simpa [hw] using hne

theorem mem_unbindInstance :
    i ∈ (r.unbindInstance uid).1.byWorkload w ↔
      i ∈ r.byWorkload w ∧ (i.instanceUID = uid → w = "") := by
  have howner (hi : i ∈ r.byWorkload w) (hu : i.instanceUID = uid) : r.uidToWL uid = some w :=
    (r.uidToWL_eq_some uid w).mpr ⟨i, hi, hu⟩
  unfold unbindInstance
  split
  · next hnone => exact iff_self_and.mpr fun hi hu => nomatch hnone.symm.trans (howner hi hu)
  · next w' hsome =>
    have hw (hi : i ∈ r.byWorkload w) (hu : i.instanceUID = uid) : w = w' :=
      Option.some.inj ((howner hi hu).symm.trans hsome)
    split
    · next hempty => exact iff_self_and.mpr fun hi hu => (hw hi hu).trans hempty
    · next hne =>
      simp only [remove]
      split
      · next heq => simp [without, heq, hne]
      · next hother => exact iff_self_and.mpr fun hi hu => absurd (hw hi hu) hother

end Members

theorem uidToWL_unbindInstance (h : r.uidToWL uid ≠ some "") :
    (r.unbindInstance uid).1.uidToWL = Function.update r.uidToWL uid none ∧
      (r.unbindInstance uid).2 = (r.uidToWL uid).getD "" := by
  unfold unbindInstance
  split
  · next hn =>
    refine ⟨?_, by simp [hn]⟩
    rw [← hn, Function.update_eq_self]
  · next w hw =>
    have hne : w ≠ "" := fun he => h (he ▸ hw)
    rw [if_neg hne]
    exact ⟨rfl, by simp [hw]⟩

theorem count_pos_iff : 0 < r.count w ↔ ∃ uid, r.uidToWL uid = some w := by
  simp only [count, List.length_pos_iff_exists_mem, r.uidToWL_eq_some]
  constructor
  · rintro ⟨i, hi⟩
    exact ⟨i.instanceUID, i, hi, rfl⟩
  · rintro ⟨uid, i, hi, -⟩
    exact ⟨i, hi⟩

theorem aggregatedStatus_ne_disconnected (h : r.uidToWL uid = some w) :
    r.aggregatedStatus w ≠ .disconnected := by
  have hpos : 0 < r.count w := count_pos_iff.mpr ⟨uid, h⟩
  have hne : (r.byWorkload w).length ≠ 0 := Nat.pos_iff_ne_zero.mp hpos
  unfold aggregatedStatus
  dsimp only
  rw [if_neg hne]
  split <;> simp

end Registry

end OtelMagnify.Server
