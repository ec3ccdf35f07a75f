import OtelMagnify.Server.Registry
import Mathlib.Data.Finmap
import Mathlib.Algebra.Order.BigOperators.Group.Finset

/-! The two maps of `internal/opamp/registry.go` under its own operations: the buckets by workload,
each of them a map, and the cache that leads from a uid to a workload. -/
namespace OtelMagnify.Server
open Push

structure TimedInstance extends Instance where
  connectedAt : Time
  lastMessageAt : Time
  deriving DecidableEq

/-- The entry that `BindInstance` stores. -/
def TimedInstance.boundAs (ins : TimedInstance) (uid : String) (now now' : Time) : TimedInstance :=
  { ins with
    instanceUID := uid
    connectedAt := if ins.connectedAt = 0 then now else ins.connectedAt
    lastMessageAt := now' }

abbrev Bucket := Finmap fun _ : String => TimedInstance

abbrev Buckets := Finmap fun _ : String => Bucket

namespace Buckets

variable (bs : Buckets) (w uid : String)

/-- A missing bucket is read as the nil map. -/
def get : Bucket := (bs.lookup w).getD ∅

/-- The instance leaves its bucket, and an emptied bucket is deleted. -/
def leave : Buckets :=
  if ((bs.get w).erase uid).keys.card = 0 then bs.erase w
  else bs.insert w ((bs.get w).erase uid)

/-- The bucket is made when it is missing. -/
def put (ins : TimedInstance) : Buckets := bs.insert w ((bs.get w).insert uid ins)

def NoneEmpty : Prop := ∀ w ∈ bs, ∃ uid, uid ∈ bs.get w

variable {bs w uid} {w' uid' : String} {ins : TimedInstance}

theorem mem_get_put :
    uid' ∈ (bs.put w uid ins).get w' ↔ uid' ∈ bs.get w' ∨ w' = w ∧ uid' = uid := by
  by_cases h : w' = w
  · subst h
    simp [put, get, or_comm]
  · simp [put, get, h, Finmap.lookup_insert_of_ne]

theorem notMem_of_card_eq_zero {m : Bucket} (h : m.keys.card = 0) : uid' ∉ m := by
  rw [← Finmap.mem_keys, Finset.card_eq_zero.mp h]
  exact Finset.notMem_empty _

theorem mem_get_leave :
    uid' ∈ (bs.leave w uid).get w' ↔ uid' ∈ bs.get w' ∧ ¬ (w' = w ∧ uid' = uid) := by
  unfold leave
  by_cases h : w' = w
  · subst h
    split_ifs with hempty
    · have hnot : uid' ∉ (bs.get w').erase uid := notMem_of_card_eq_zero hempty
      simpa [get, and_comm, Finmap.notMem_empty] using hnot
    · simp [get, and_comm]
  · split_ifs <;> simp [get, h, Finmap.lookup_erase_ne, Finmap.lookup_insert_of_ne]

theorem NoneEmpty.put (h : bs.NoneEmpty) : (bs.put w uid ins).NoneEmpty := by
  intro w' hw'
  rcases Finmap.mem_insert.mp hw' with rfl | hold
  · exact ⟨uid, mem_get_put.mpr (.inr ⟨rfl, rfl⟩)⟩
  · obtain ⟨u, hu⟩ := h w' hold
    exact ⟨u, mem_get_put.mpr (.inl hu)⟩

theorem NoneEmpty.leave (h : bs.NoneEmpty) : (bs.leave w uid).NoneEmpty := by
  intro w' hw'
  by_cases hw : w' = w
  · subst hw
    by_contra hnone
    have hempty : ((bs.get w').erase uid).keys = ∅ := by
      refine Finset.eq_empty_of_forall_notMem fun u hu => hnone ⟨u, mem_get_leave.mpr ?_⟩
      simpa [and_comm] using Finmap.mem_keys.mp hu
    rw [Buckets.leave, if_pos (Finset.card_eq_zero.mpr hempty)] at hw'
    simp at hw'
  · have hold : w' ∈ bs := by
      unfold Buckets.leave at hw'
      split_ifs at hw' <;> simpa [hw] using hw'
    obtain ⟨u, hu⟩ := h w' hold
    exact ⟨u, mem_get_leave.mpr ⟨hu, fun hsame => hw hsame.1⟩⟩

theorem lookup_get_put_self : ((bs.put w uid ins).get w).lookup uid = some ins := by
  simp [put, get]

theorem lookup_get_put (h : uid' ≠ uid) :
    ((bs.put w uid ins).get w').lookup uid' = (bs.get w').lookup uid' := by
  by_cases hw : w' = w
  · subst hw
    simp [put, get, Finmap.lookup_insert_of_ne _ h]
  · simp [put, get, hw, Finmap.lookup_insert_of_ne]

theorem lookup_get_leave (h : uid' ≠ uid) :
    ((bs.leave w uid).get w').lookup uid' = (bs.get w').lookup uid' := by
  unfold leave
  by_cases hw : w' = w
  · subst hw
    rw [← Finmap.lookup_erase_ne (s := bs.get w') h]
    split_ifs with hempty
    · rw [Finmap.lookup_eq_none.mpr (notMem_of_card_eq_zero hempty)]
      simp [get]
    · simp [get]
  · split_ifs <;> simp [get, hw, Finmap.lookup_erase_ne, Finmap.lookup_insert_of_ne]

end Buckets

structure RegistryMaps where
  byWorkload : Buckets
  uidToWL : Finmap fun _ : String => String

inductive RegistryCall where
  | bindInstance (uid workloadID : String) (ins : TimedInstance) (connectedAt lastMessageAt : Time)
  | updateInstance (uid : String) (mutate : TimedInstance → TimedInstance) (lastMessageAt : Time)
  | unbindInstance (uid : String)

namespace RegistryMaps

variable (r : RegistryMaps) (uid : String)

/-- The buckets when the uid has left the bucket of another workload. -/
def withoutPrevious (workloadID : String) : Buckets :=
  match r.uidToWL.lookup uid with
  | some prevWL => if prevWL = workloadID then r.byWorkload else r.byWorkload.leave prevWL uid
  | none => r.byWorkload

/-- `BindInstance` with its two readings of the clock, and whether the binding is fresh. -/
def bindInstance (workloadID : String) (ins : TimedInstance) (now now' : Time) :
    RegistryMaps × Bool :=
  (⟨(r.withoutPrevious uid workloadID).put workloadID uid (ins.boundAs uid now now'),
    r.uidToWL.insert uid workloadID⟩, (r.uidToWL.lookup uid).isNone)

def updateInstance (mutate : TimedInstance → TimedInstance) (now : Time) : RegistryMaps × Bool :=
  match r.uidToWL.lookup uid with
  | none => (r, false)
  | some w =>
    match (r.byWorkload.get w).lookup uid with
    | none => (r, false)
    | some inst =>
      ({ r with byWorkload := r.byWorkload.put w uid { mutate inst with lastMessageAt := now } },
        true)

def unbindInstance : RegistryMaps × String :=
  let wl := (r.uidToWL.lookup uid).getD ""
  if wl = "" then (r, "") else (⟨r.byWorkload.leave wl uid, r.uidToWL.erase uid⟩, wl)

def count (w : String) : ℕ := (r.byWorkload.get w).keys.card

def call : RegistryCall → RegistryMaps
  | .bindInstance uid workloadID ins now now' => (r.bindInstance uid workloadID ins now now').1
  | .updateInstance uid mutate now => (r.updateInstance uid mutate now).1
  | .unbindInstance uid => (r.unbindInstance uid).1

def calls (cs : List RegistryCall) : RegistryMaps := cs.foldl call ⟨∅, ∅⟩

/-- The cache is the inverse of the buckets, and no bucket is empty. -/
structure Inv : Prop where
  owner : ∀ uid w, r.uidToWL.lookup uid = some w ↔ uid ∈ r.byWorkload.get w
  noneEmpty : r.byWorkload.NoneEmpty

/-- The workload and the instance of a uid, as the two maps have them. -/
def view : Option (String × TimedInstance) :=
  (r.uidToWL.lookup uid).bind fun w => ((r.byWorkload.get w).lookup uid).map (w, ·)

/-- What the calls do to one map from the uids. -/
def specCall (b : String → Option (String × TimedInstance)) :
    RegistryCall → String → Option (String × TimedInstance)
  | .bindInstance uid workloadID ins now now' =>
    Function.update b uid (some (workloadID, ins.boundAs uid now now'))
  | .updateInstance uid mutate now =>
    Function.update b uid ((b uid).map fun x => (x.1, { mutate x.2 with lastMessageAt := now }))
  | .unbindInstance uid => Function.update b uid ((b uid).filter (·.1 = ""))

variable {r uid}

theorem Inv.noneEmpty_withoutPrevious (h : r.Inv) (workloadID : String) :
    (r.withoutPrevious uid workloadID).NoneEmpty := by
  unfold withoutPrevious
  split
  · split
    · exact h.noneEmpty
    · exact h.noneEmpty.leave
  · exact h.noneEmpty

theorem Inv.mem_withoutPrevious (h : r.Inv) {workloadID u w : String} :
    u ∈ (r.withoutPrevious uid workloadID).get w ↔
      r.uidToWL.lookup u = some w ∧ (u = uid → w = workloadID) := by
  unfold withoutPrevious
  split
  · next prevWL hprev =>
    have hprevWL : ∀ {w}, r.uidToWL.lookup uid = some w ↔ prevWL = w := by simp [hprev]
    split
    · next hsame =>
      rw [← h.owner, iff_self_and]
      rintro hu rfl
      exact (hprevWL.mp hu).symm.trans hsame
    · next hother =>
      rw [Buckets.mem_get_leave, ← h.owner, and_congr_right_iff]
      intro hu
      constructor
      · rintro hnot rfl
        exact absurd ⟨(hprevWL.mp hu).symm, rfl⟩ hnot
      · rintro hw ⟨rfl, rfl⟩
        exact hother (hw rfl)
  · next hprev =>
    rw [← h.owner, iff_self_and]
    rintro hu rfl
    cases hprev.symm.trans hu

theorem Inv.bindInstance (h : r.Inv) (workloadID : String) (ins : TimedInstance)
    (now now' : Time) :
    (r.bindInstance uid workloadID ins now now').1.Inv where
  owner u w := by
    rw [RegistryMaps.bindInstance, Buckets.mem_get_put, h.mem_withoutPrevious]
    by_cases hu : u = uid
    · subst hu
      rw [Finmap.lookup_insert, Option.some_inj]
      constructor
      · rintro rfl
        exact .inr ⟨rfl, rfl⟩
      · rintro (⟨-, hsame⟩ | ⟨rfl, -⟩)
        · exact (hsame rfl).symm
        · rfl
    · rw [Finmap.lookup_insert_of_ne _ hu]
      simp [hu]
  noneEmpty := (h.noneEmpty_withoutPrevious workloadID).put

theorem Inv.updateInstance (h : r.Inv) (mutate : TimedInstance → TimedInstance) (now : Time) :
    (r.updateInstance uid mutate now).1.Inv := by
  unfold RegistryMaps.updateInstance
  split
  · exact h
  next w hw =>
  split
  · exact h
  · refine ⟨fun u w' => ?_, h.noneEmpty.put⟩
    rw [Buckets.mem_get_put, h.owner, iff_self_or]
    rintro ⟨rfl, rfl⟩
    exact (h.owner _ _).mp hw

theorem Inv.unbindInstance (h : r.Inv) : (r.unbindInstance uid).1.Inv := by
  unfold RegistryMaps.unbindInstance
  cases hwl : r.uidToWL.lookup uid with
  | none => exact h
  | some wl =>
    dsimp only [Option.getD_some]
    split
    · exact h
    refine ⟨fun u w => ?_, h.noneEmpty.leave⟩
    rw [Buckets.mem_get_leave, ← h.owner]
    by_cases hu : u = uid
    · subst hu
      simp [hwl, eq_comm]
    · simp [Finmap.lookup_erase_ne hu, hu]

theorem inv_calls (cs : List RegistryCall) : (calls cs).Inv := by
  induction cs using List.reverseRecOn with
  | nil => constructor <;> simp [calls, Buckets.get, Buckets.NoneEmpty, Finmap.notMem_empty]
  | append_singleton cs c ih =>
    rw [calls, List.foldl_append]
    cases c with
    | bindInstance uid workloadID ins now now' => exact ih.bindInstance workloadID ins now now'
    | updateInstance uid mutate now => exact ih.updateInstance mutate now
    | unbindInstance uid => exact ih.unbindInstance

/-- Every bound uid is counted for its own workload. -/
theorem Inv.sum_count (h : r.Inv) : ∑ w ∈ r.byWorkload.keys, r.count w = r.uidToWL.keys.card := by
  have hmaps : ∀ uid ∈ r.uidToWL.keys, (r.uidToWL.lookup uid).getD "" ∈ r.byWorkload.keys := by
    intro uid huid
    obtain ⟨w, hw⟩ := Finmap.mem_iff.mp (Finmap.mem_keys.mp huid)
    have hmem := (h.owner uid w).mp hw
    rw [hw, Option.getD_some, Finmap.mem_keys]
    by_contra hnone
    rw [Buckets.get, Finmap.lookup_eq_none.mpr hnone] at hmem
    exact Finmap.notMem_empty hmem
  rw [Finset.card_eq_sum_card_fiberwise hmaps]
  refine Finset.sum_congr rfl fun w _ => congrArg Finset.card (Finset.ext fun uid => ?_)
  rw [Finset.mem_filter, Finmap.mem_keys, Finmap.mem_keys, ← h.owner, Finmap.mem_iff]
  constructor
  · intro hw
    exact ⟨⟨w, hw⟩, by rw [hw]; rfl⟩
  · rintro ⟨⟨w', hw'⟩, hget⟩
    rw [hw', Option.getD_some] at hget
    exact hget ▸ hw'

/-- After any calls, the cache leads from a uid to the one bucket that holds it, no bucket is empty,
the counts add up to the number of bound uids, and a binding is fresh exactly when no bucket holds
the uid. -/
theorem buckets_inverse (cs : List RegistryCall) :
    (∀ uid w, (calls cs).uidToWL.lookup uid = some w ↔ uid ∈ (calls cs).byWorkload.get w) ∧
    (∀ uid w w', uid ∈ (calls cs).byWorkload.get w → uid ∈ (calls cs).byWorkload.get w' → w = w') ∧
    (∀ w ∈ (calls cs).byWorkload, 0 < (calls cs).count w) ∧
    ∑ w ∈ (calls cs).byWorkload.keys, (calls cs).count w = (calls cs).uidToWL.keys.card ∧
    ∀ uid w ins now now', ((calls cs).bindInstance uid w ins now now').2 = true ↔
      ∀ w', uid ∉ (calls cs).byWorkload.get w' := by
  have h := inv_calls cs
  refine ⟨h.owner, ?_, ?_, h.sum_count, ?_⟩
  · intro uid w w' hw hw'
    rw [← h.owner] at hw hw'
    exact Option.some.inj (hw.symm.trans hw')
  · intro w hw
    obtain ⟨uid, huid⟩ := h.noneEmpty w hw
    exact Finset.card_pos.mpr ⟨uid, Finmap.mem_keys.mpr huid⟩
  · intro uid w ins now now'
    simp only [bindInstance, Option.isNone_iff_eq_none, ← h.owner,
      Option.eq_none_iff_forall_ne_some, ne_eq]

theorem view_call (r : RegistryMaps) (c : RegistryCall) : (r.call c).view = specCall r.view c := by
  funext u
  cases c with
  | bindInstance uid workloadID ins now now' =>
    by_cases hu : u = uid
    · subst hu
      simp [call, bindInstance, view, specCall, Buckets.lookup_get_put_self]
    · have hprev (w : String) : ((r.withoutPrevious uid workloadID).get w).lookup u =
          (r.byWorkload.get w).lookup u := by
        unfold withoutPrevious
        split
        · split
          · rfl
          · exact Buckets.lookup_get_leave hu
        · rfl
      simp [call, bindInstance, view, specCall, hu, Finmap.lookup_insert_of_ne,
        Buckets.lookup_get_put hu, hprev]
  | updateInstance uid mutate now =>
    simp only [call, updateInstance, specCall]
    by_cases hu : u = uid
    · subst hu
      cases hw : r.uidToWL.lookup u with
      | none => simp [view, hw]
      | some w => cases hi : (r.byWorkload.get w).lookup u <;>
          simp [view, hw, hi, Buckets.lookup_get_put_self]
    · rw [Function.update_of_ne hu]
      split
      · rfl
      · split
        · rfl
        · simp [view, Buckets.lookup_get_put hu]
  | unbindInstance uid =>
    simp only [call, unbindInstance, specCall]
    by_cases hu : u = uid
    · subst hu
      cases hw : r.uidToWL.lookup u with
      | none => simp [view, hw]
      | some wl => cases hi : (r.byWorkload.get wl).lookup u <;> by_cases hwl : wl = "" <;>
          simp_all [view, Option.filter]
    · rw [Function.update_of_ne hu]
      split
      · rfl
      · simp [view, Finmap.lookup_erase_ne hu, Buckets.lookup_get_leave hu]

/-- The two maps stand for one: after any calls a uid leads to the workload and the instance of its
last binding, with the later updates, and the bucket of a workload holds exactly the instances of
the uids that lead to it. -/
theorem registry_is_one_map (cs : List RegistryCall) :
    (calls cs).view = cs.foldl specCall (fun _ => none) ∧
    ∀ uid w t, ((calls cs).byWorkload.get w).lookup uid = some t ↔
      (calls cs).view uid = some (w, t) := by
  refine ⟨?_, fun uid w t => ?_⟩
  · induction cs using List.reverseRecOn with
    | nil => rfl
    | append_singleton cs c ih =>
      rw [calls, List.foldl_append, List.foldl_append, ← ih]
      exact view_call _ c
  · simp only [view, Option.bind_eq_some_iff, Option.map_eq_some_iff, Prod.mk.injEq]
    constructor
    · intro ht
      exact ⟨w, ((inv_calls cs).owner uid w).mpr (Finmap.mem_of_lookup_eq_some ht), t, ht, rfl, rfl⟩
    · rintro ⟨w', -, t', ht, rfl, rfl⟩
      exact ht

end RegistryMaps

/-! The registry of the handlers has lists for the buckets and leaves out the clocks. It follows the
maps call by call. -/
namespace Registry

/-- The same call on a registry; an update changes the same fields and no uid. -/
inductive Follows : Registry → RegistryCall → Registry → Prop where
  | bind (r uid w ins now now') :
    Follows r (.bindInstance uid w ins now now') (r.bindInstance uid w ins.toInstance)
  | update (r uid mutate f now)
    (h : ∀ t, (mutate t).toInstance = { f t.toInstance with instanceUID := t.instanceUID }) :
    Follows r (.updateInstance uid mutate now) (r.updateInstance uid f)
  | unbind (r uid) : Follows r (.unbindInstance uid) (r.unbindInstance uid).1

inductive Runs : List RegistryCall → Registry → Prop where
  | nil : Runs [] .empty
  | concat {cs c r r'} (h : Runs cs r) (hc : Follows r c r') : Runs (cs ++ [c]) r'

/-- The buckets hold the instances of the map under their uids. -/
structure Shows (r : Registry) (b : String → Option (String × TimedInstance)) : Prop where
  uid : ∀ uid w t, b uid = some (w, t) → t.instanceUID = uid
  mem : ∀ w i, i ∈ r.byWorkload w ↔ ∃ t, b i.instanceUID = some (w, t) ∧ t.toInstance = i

variable {r r' : Registry} {b : String → Option (String × TimedInstance)}

theorem Shows.update {uid : String} {x : Option (String × TimedInstance)} (h : r.Shows b)
    (hx : ∀ y ∈ x, y.2.instanceUID = uid)
    (hmem : ∀ w i, i ∈ r'.byWorkload w ↔ i ∈ r.byWorkload w ∧ i.instanceUID ≠ uid ∨
      i.instanceUID = uid ∧ ∃ t, x = some (w, t) ∧ t.toInstance = i) :
    r'.Shows (Function.update b uid x) := by
  refine ⟨fun u w t ht => ?_, fun w i => ?_⟩
  · by_cases hu : u = uid
    · rw [hu, Function.update_self] at ht
      exact (hx _ ht).trans hu.symm
    · rw [Function.update_of_ne hu] at ht
      exact h.uid u w t ht
  · rw [hmem]
    by_cases hu : i.instanceUID = uid
    · simp [hu]
    · simp [hu, h.mem]

theorem Shows.follows {c : RegistryCall} (h : r.Shows b) (hc : Follows r c r') :
    r'.Shows (RegistryMaps.specCall b c) := by
  cases hc with
  | bind uid w ins now now' =>
    refine h.update (by simp [TimedInstance.boundAs]) fun w' i => ?_
    rw [mem_bindInstance, or_comm]
    refine or_congr_right ⟨?_, ?_⟩
    · rintro ⟨rfl, rfl⟩
      exact ⟨rfl, _, rfl, rfl⟩
    · rintro ⟨-, t, ht, rfl⟩
      cases ht
      exact ⟨rfl, rfl⟩
  | update uid mutate f now hmutate =>
    refine h.update (fun y hy => ?_) fun w i => ?_
    · obtain ⟨⟨w, t⟩, ht, rfl⟩ := Option.map_eq_some_iff.mp hy
      exact (congrArg Instance.instanceUID (hmutate t)).trans (h.uid uid w t ht)
    · constructor
      · intro hi
        obtain ⟨j, hj, rfl⟩ := List.mem_map.mp hi
        obtain ⟨t, ht, rfl⟩ := (h.mem w j).mp hj
        split
        · next hu =>
          refine .inr ⟨hu, { mutate t with lastMessageAt := now }, ?_, hmutate t⟩
          exact Option.map_eq_some_iff.mpr ⟨_, hu ▸ ht, rfl⟩
        · next hu => exact .inl ⟨hj, hu⟩
      · rintro (⟨hi, hu⟩ | ⟨-, t', ht', rfl⟩)
        · exact List.mem_map.mpr ⟨i, hi, if_neg hu⟩
        · obtain ⟨⟨w, t⟩, ht, ⟨⟩⟩ := Option.map_eq_some_iff.mp ht'
          have hu := h.uid uid w t ht
          refine List.mem_map.mpr ⟨t.toInstance, (h.mem w _).mpr ⟨t, hu.symm ▸ ht, rfl⟩, ?_⟩
          rw [if_pos hu]
          exact (hmutate t).symm
  | unbind uid =>
    refine h.update (fun y hy => ?_) fun w i => ?_
    · exact h.uid uid y.1 y.2 (Option.filter_eq_some_iff.mp hy).1
    · rw [mem_unbindInstance]
      by_cases hu : i.instanceUID = uid
      · by_cases hw : w = "" <;> simp [h.mem, hu, hw, Option.filter_eq_some_iff]
      · simp [hu]

/-- After the same calls, the registry of the handlers holds what the two maps stand for. -/
theorem Runs.shows {cs : List RegistryCall} (h : Runs cs r) :
    r.Shows (RegistryMaps.calls cs).view := by
  induction h with
  | nil =>
    have hview (uid : String) : (RegistryMaps.calls []).view uid = none := rfl
    exact ⟨by simp [hview], by simp [hview, empty]⟩
  | concat _ hc ih =>
    rw [RegistryMaps.calls, List.foldl_append, List.foldl_cons, List.foldl_nil,
      RegistryMaps.view_call]
    exact ih.follows hc

end Registry

end OtelMagnify.Server
