import OtelMagnify.Canary.Handlers
import OtelMagnify.Lib.GoString
import Mathlib.Data.Rat.Floor
import Mathlib.Tactic.Linarith

/-! The targets of a canary: `selectCanaryTargets` with its five strategies, what an accepted
selection guarantees, and how a list of instances is read. -/
namespace OtelMagnify.Canary
open Push (Time PushStatus)
open GoString (trimSpace)

structure LiveInstance extends Instance where
  podName : String := ""
  deriving DecidableEq, Repr

/-- The live instances by workload. The buckets are maps, and the cache of `InstanceWorkload`
agrees with them. -/
structure Fleet where
  instances : String → List LiveInstance
  instanceWorkload : String → Option String
  nodup : ∀ w, ((instances w).map (·.instanceUID)).Nodup
  instanceWorkload_eq_some : ∀ uid w,
    instanceWorkload uid = some w ↔ ∃ i ∈ instances w, i.instanceUID = uid

inductive Strategy where
  | one | count | n | percentage | labelSelector | instances
  | unsupported (name : String)
  deriving DecidableEq, Repr

structure CanarySelection where
  strategy : Strategy
  instanceUID : String := ""
  instanceUIDs : List String := []
  count : ℤ := 0
  percentage : ℤ := 0
  labels : List (String × String) := []
  deriving DecidableEq, Repr

inductive ErrorCode where
  | invalidInstanceTarget
  | instanceTargetCrossWorkload
  | instanceTargetNotConnected
  | instanceRemoteConfigUnsupported
  deriving DecidableEq, Repr

/-- The stop reasons of a selection; `remote_config_unsupported` is found by it alone. -/
inductive SelectionStop where
  | remoteConfigUnsupported | collectorDegraded | noHeartbeat
  deriving DecidableEq, Repr

structure SelectedTarget where
  instanceUID : String
  podName : String
  status : PushStatus
  stopReason : Option SelectionStop
  updatedAt : Time
  deriving DecidableEq, Repr

structure Selected where
  targets : List SelectedTarget
  stopReasons : List SelectionStop
  errors : List String
  errorCodes : List ErrorCode
  deriving DecidableEq, Repr

/-- The local variables of `selectCanaryTargets` after its switch. -/
structure Picked where
  selected : List LiveInstance
  errs : List String := []
  errorCodes : List ErrorCode := []
  deriving DecidableEq, Repr

@[simp] theorem mem_appendUnique {α : Type*} [DecidableEq α] {items : List α} {item x : α} :
    x ∈ appendUnique items item ↔ x ∈ items ∨ x = item := by
  unfold appendUnique
  split
  · next h =>
    constructor
    · exact .inl
    · rintro (hx | rfl)
      · exact hx
      · exact h
  · simp

theorem appendUnique_ne_nil {α : Type*} [DecidableEq α] (items : List α) (item : α) :
    appendUnique items item ≠ [] :=
  List.ne_nil_of_mem (mem_appendUnique.mpr (.inr rfl))

def refused (error : String) (errorCodes : List ErrorCode) : Selected :=
  ⟨[], [], [error], errorCodes⟩

def labelsMatch (labels want : List (String × String)) : Bool :=
  want ≠ [] && want.all fun l => (labels.lookup l.1).getD "" = l.2

namespace Fleet

variable (fleet : Fleet) (w : String)

def sorted : List LiveInstance :=
  (fleet.instances w).insertionSort (·.instanceUID ≤ ·.instanceUID)

def canaryEligibleInstances (now : Time) : List LiveInstance :=
  (fleet.sorted w).filter (·.isEligible now)

/-- `byUID`; the last instance with a uid wins. -/
def byUID (uid : String) : Option LiveInstance :=
  (fleet.sorted w).reverse.find? (·.instanceUID = uid)

/-- Whether an instance that is not in `byUID` is refused as one of another workload. -/
def isForeign (uid : String) : Bool := (fleet.instanceWorkload uid).any (· ≠ w)

/-- The body of the loop over `instance_uids`, with `seen`. -/
def pick (p : Picked × List String) (uid : String) : Picked × List String :=
  match (fleet.byUID w uid).filter fun _ => uid ∉ p.2 with
  | some inst => ({ p.1 with selected := p.1.selected ++ [inst] }, uid :: p.2)
  | none =>
    if uid = "" then p
    else if fleet.isForeign w uid then
      ({ p.1 with
          errs := p.1.errs ++ ["instance target belongs to a different workload: " ++ uid]
          errorCodes := appendUnique p.1.errorCodes .instanceTargetCrossWorkload }, p.2)
    else
      ({ p.1 with
          errs := p.1.errs ++ ["instance target is not connected: " ++ uid]
          errorCodes := appendUnique p.1.errorCodes .instanceTargetNotConnected }, p.2)

def pickAll (uids : List String) : Picked := (uids.foldl (fleet.pick w) (⟨[], [], []⟩, [])).1

/-- The number of targets of a percentage, in exact arithmetic. -/
def percentageOf (eligible : ℕ) (percentage : ℤ) : ℕ :=
  let n := ⌈(eligible : ℚ) * percentage / 100⌉.toNat
  if n < 1 ∧ 0 < eligible then 1 else n

/-- The switch on the strategy: an early return or what has been selected. -/
def choose (labels : List (String × String)) (selection : CanarySelection) (now : Time) :
    Except Selected Picked :=
  let eligible := fleet.canaryEligibleInstances w now
  match selection.strategy with
  | .one =>
    let uid := selection.instanceUID
    if trimSpace uid = "" then .error (refused "instance_uid is required" [.invalidInstanceTarget])
    else
      match fleet.byUID w uid with
      | some inst => .ok ⟨[inst], [], []⟩
      | none =>
        if fleet.isForeign w uid then
          .error (refused ("instance target belongs to a different workload: " ++ uid)
            [.instanceTargetCrossWorkload])
        else
          .error (refused ("instance target is not connected: " ++ uid)
            [.instanceTargetNotConnected])
  | .count | .n =>
    if selection.count ≤ 0 then .error (refused "count must be positive" [])
    else if selection.count ≥ eligible.length then
      .error (refused "canary target count must be smaller than eligible instances" [])
    else .ok ⟨eligible.take selection.count.toNat, [], []⟩
  | .percentage =>
    if selection.percentage ≤ 0 then .error (refused "percentage must be positive" [])
    else if selection.percentage ≥ 100 then
      .error (refused "percentage must be less than 100" [])
    else .ok ⟨eligible.take (percentageOf eligible.length selection.percentage), [], []⟩
  | .labelSelector => .ok ⟨if labelsMatch labels selection.labels then eligible else [], [], []⟩
  | .instances => .ok (fleet.pickAll w selection.instanceUIDs)
  | .unsupported _ => .error (refused "unsupported selection strategy" [])

end Fleet

namespace LiveInstance

/-- The stop reason of a target: the last of the three checks that fails. -/
def stopReason (now : Time) (inst : LiveInstance) : Option SelectionStop :=
  if inst.isFresh now = false then some .noHeartbeat
  else if inst.healthy = false then some .collectorDegraded
  else if inst.rejectsRemoteConfig then some .remoteConfigUnsupported
  else none

def target (now : Time) (inst : LiveInstance) : SelectedTarget :=
  { instanceUID := inst.instanceUID
    podName := inst.podName
    status := .sent
    stopReason := inst.stopReason now
    updatedAt := now }

end LiveInstance

/-- One of the three checks of the loop over the selected instances. -/
def Selected.check (failed : Bool) (reason : SelectionStop) (error : String)
    (code : Option ErrorCode) (r : Selected) : Selected :=
  if failed then
    { r with
      stopReasons := appendUnique r.stopReasons reason
      errors := r.errors ++ [error]
      errorCodes := (code.map (appendUnique r.errorCodes)).getD r.errorCodes }
  else r

def Selected.examine (now : Time) (r : Selected) (inst : LiveInstance) : Selected :=
  let checked :=
    ((r.check inst.rejectsRemoteConfig .remoteConfigUnsupported
        ("instance does not accept remote config: " ++ inst.instanceUID)
        (some .instanceRemoteConfigUnsupported)).check
      (!inst.healthy) .collectorDegraded ("collector degraded: " ++ inst.instanceUID) none).check
      (!inst.isFresh now) .noHeartbeat ("stale heartbeat: " ++ inst.instanceUID) none
  { checked with targets := r.targets ++ [inst.target now] }

/-- `selectCanaryTargets` after its switch. -/
def Fleet.conclude (fleet : Fleet) (w : String) (now : Time) (p : Picked) : Selected :=
  if p.errs ≠ [] then ⟨[], [], p.errs, p.errorCodes⟩
  else if p.selected = [] then refused "canary target set is empty" []
  else
    let r := p.selected.foldl (.examine now) ⟨[], [], [], p.errorCodes⟩
    if r.errors = [] ∧ p.selected.length ≥ (fleet.canaryEligibleInstances w now).length then
      refused "canary target set must be smaller than eligible instances" []
    else r

def Fleet.selectCanaryTargets (fleet : Fleet) (w : String) (labels : List (String × String))
    (selection : CanarySelection) (now : Time) : Selected :=
  match fleet.choose w labels selection now with
  | .error r => r
  | .ok p => fleet.conclude w now p

namespace Fleet

variable {fleet : Fleet} {w uid : String} {now : Time} {inst : LiveInstance}

theorem mem_sorted : inst ∈ fleet.sorted w ↔ inst ∈ fleet.instances w :=
  (List.perm_insertionSort _ _).mem_iff

theorem nodup_sorted (fleet : Fleet) (w : String) :
    ((fleet.sorted w).map (·.instanceUID)).Nodup :=
  ((List.perm_insertionSort _ _).map _).nodup_iff.mpr (fleet.nodup w)

theorem byUID_eq_some :
    fleet.byUID w uid = some inst ↔ inst ∈ fleet.instances w ∧ inst.instanceUID = uid := by
  constructor
  · intro h
    have hmem := List.mem_of_find?_eq_some h
    exact ⟨mem_sorted.mp (List.mem_reverse.mp hmem), by simpa using List.find?_some h⟩
  · rintro ⟨hmem, rfl⟩
    have hin : inst ∈ (fleet.sorted w).reverse := List.mem_reverse.mpr (mem_sorted.mpr hmem)
    cases hfind : fleet.byUID w inst.instanceUID with
    | none =>
      have hne := List.find?_eq_none.mp hfind inst hin
      simp at hne
    | some other =>
      have hother := List.mem_reverse.mp (List.mem_of_find?_eq_some hfind)
      have huid : other.instanceUID = inst.instanceUID := by
        simpa using List.find?_some hfind
      rw [List.inj_on_of_nodup_map (nodup_sorted fleet w) hother (List.mem_reverse.mp hin) huid]

theorem mem_canaryEligibleInstances :
    inst ∈ fleet.canaryEligibleInstances w now ↔
      inst ∈ fleet.instances w ∧ inst.isEligible now = true := by
  rw [canaryEligibleInstances, List.mem_filter, mem_sorted]

/-- What is selected, whatever happens next: instances of the workload, each once. -/
def Drawn (fleet : Fleet) (w : String) (selected : List LiveInstance) : Prop :=
  (∀ i ∈ selected, i ∈ fleet.instances w) ∧ (selected.map (·.instanceUID)).Nodup

theorem drawn_eligible (fleet : Fleet) (w : String) (now : Time) :
    fleet.Drawn w (fleet.canaryEligibleInstances w now) :=
  ⟨fun _ hi => (mem_canaryEligibleInstances.mp hi).1,
    ((List.filter_sublist).map _).nodup (nodup_sorted fleet w)⟩

theorem Drawn.take {selected : List LiveInstance} (h : fleet.Drawn w selected) (k : ℕ) :
    fleet.Drawn w (selected.take k) :=
  ⟨fun i hi => h.1 i (List.mem_of_mem_take hi), ((List.take_sublist k _).map _).nodup h.2⟩

end Fleet

variable {code : ErrorCode} {seen uids : List String}

section Examine

variable {now : Time} {r : Selected} {inst : LiveInstance} {l : List LiveInstance}

def LiveInstance.problems (now : Time) (inst : LiveInstance) : List String :=
  (if inst.rejectsRemoteConfig then
      ["instance does not accept remote config: " ++ inst.instanceUID] else []) ++
    (if inst.healthy then [] else ["collector degraded: " ++ inst.instanceUID]) ++
    if inst.isFresh now then [] else ["stale heartbeat: " ++ inst.instanceUID]

theorem LiveInstance.problems_eq_nil :
    inst.problems now = [] ↔ inst.isEligible now = true := by
  simp only [problems, Instance.isEligible]
  cases inst.rejectsRemoteConfig <;> cases inst.healthy <;> cases inst.isFresh now <;> simp

theorem Selected.errors_examine : (r.examine now inst).errors = r.errors ++ inst.problems now := by
  simp only [examine, check, LiveInstance.problems]
  cases inst.rejectsRemoteConfig <;> cases inst.healthy <;> cases inst.isFresh now <;> simp

theorem Selected.mem_errorCodes_examine :
    code ∈ (r.examine now inst).errorCodes ↔
      code ∈ r.errorCodes ∨
        code = .instanceRemoteConfigUnsupported ∧ inst.rejectsRemoteConfig = true := by
  simp only [examine, check]
  cases inst.rejectsRemoteConfig <;> cases inst.healthy <;> cases inst.isFresh now <;> simp

theorem errors_foldl_examine :
    (l.foldl (.examine now) r).errors = r.errors ++ l.flatMap (·.problems now) := by
  induction l generalizing r with
  | nil => simp
  | cons i l ih => rw [List.foldl_cons, ih, Selected.errors_examine, List.flatMap_cons,
      List.append_assoc]

theorem targets_foldl_examine :
    (l.foldl (.examine now) r).targets = r.targets ++ l.map (·.target now) := by
  induction l generalizing r with
  | nil => simp
  | cons i l ih =>
    have hstep : (r.examine now i).targets = r.targets ++ [i.target now] := rfl
    rw [List.foldl_cons, ih, hstep, List.map_cons, List.append_assoc, List.singleton_append]

theorem mem_errorCodes_foldl_examine :
    code ∈ (l.foldl (.examine now) r).errorCodes ↔
      code ∈ r.errorCodes ∨
        code = .instanceRemoteConfigUnsupported ∧ ∃ i ∈ l, i.rejectsRemoteConfig = true := by
  induction l generalizing r with
  | nil => simp
  | cons i l ih =>
    rw [List.foldl_cons, ih, Selected.mem_errorCodes_examine]
    simp only [List.exists_mem_cons_iff]
    tauto

theorem flatMap_problems_eq_nil :
    l.flatMap (·.problems now) = [] ↔ ∀ i ∈ l, i.isEligible now = true := by
  simp only [List.flatMap_eq_nil_iff, LiveInstance.problems_eq_nil]

end Examine

namespace Fleet

variable {fleet : Fleet} {w : String} {labels : List (String × String)}
  {selection : CanarySelection} {now : Time} {p : Picked}

/-! A list of instances. -/

def IsUnknown (fleet : Fleet) (uid : String) : Prop :=
  uid ≠ "" ∧ fleet.instanceWorkload uid = none

def IsForeign (fleet : Fleet) (w uid : String) : Prop :=
  uid ≠ "" ∧ ∃ w', fleet.instanceWorkload uid = some w' ∧ w' ≠ w

def Repeats (fleet : Fleet) (w : String) (uids : List String) : Prop :=
  ∃ uid, uid ≠ "" ∧ fleet.instanceWorkload uid = some w ∧ 2 ≤ uids.count uid

/-- What the loop over `instance_uids` has found. -/
structure Found (fleet : Fleet) (w : String) (uids : List String) (p : Picked × List String) :
    Prop where
  seen : ∀ uid, uid ∈ p.2 ↔ uid ∈ uids ∧ fleet.instanceWorkload uid = some w
  selected : ∀ i, i ∈ p.1.selected ↔ i ∈ fleet.instances w ∧ i.instanceUID ∈ uids
  nodup : (p.1.selected.map (·.instanceUID)).Nodup
  cross : .instanceTargetCrossWorkload ∈ p.1.errorCodes ↔ ∃ uid ∈ uids, fleet.IsForeign w uid
  notConnected : .instanceTargetNotConnected ∈ p.1.errorCodes ↔
    (∃ uid ∈ uids, fleet.IsUnknown uid) ∨ fleet.Repeats w uids
  codes : ∀ code ∈ p.1.errorCodes,
    code = .instanceTargetCrossWorkload ∨ code = .instanceTargetNotConnected
  errs : p.1.errs = [] ↔ p.1.errorCodes = []

variable {uid : String}

theorem isForeign_iff (h : uid ≠ "") : fleet.isForeign w uid = true ↔ fleet.IsForeign w uid := by
  simp [isForeign, IsForeign, h, Option.any_eq_true]

theorem repeats_append :
    fleet.Repeats w (uids ++ [uid]) ↔ fleet.Repeats w uids ∨
      uid ≠ "" ∧ fleet.instanceWorkload uid = some w ∧ uid ∈ uids := by
  simp only [Repeats, List.count_append]
  constructor
  · rintro ⟨u, hu, hw, hcount⟩
    by_cases hsame : u = uid
    · subst hsame
      have hone : 0 < uids.count u := by
        rw [List.count_singleton_self] at hcount
        omega
      exact .inr ⟨hu, hw, List.count_pos_iff.mp hone⟩
    · rw [List.count_singleton, if_neg (by simpa using Ne.symm hsame)] at hcount
      exact .inl ⟨u, hu, hw, hcount⟩
  · rintro (⟨u, hu, hw, hcount⟩ | ⟨hu, hw, hmem⟩)
    · exact ⟨u, hu, hw, by omega⟩
    · refine ⟨uid, hu, hw, ?_⟩
      have hone := List.count_pos_iff.mpr hmem
      rw [List.count_singleton_self]
      omega

theorem Found.nil (fleet : Fleet) (w : String) : Found fleet w [] (⟨[], [], []⟩, []) := by
  constructor <;> simp [Repeats]

theorem instanceWorkload_eq_some_iff :
    fleet.instanceWorkload uid = some w ↔ ∃ i, fleet.byUID w uid = some i := by
  simp only [fleet.instanceWorkload_eq_some, byUID_eq_some]

theorem Found.select (h : Found fleet w uids (p, seen)) {inst : LiveInstance}
    (hinst : fleet.byUID w uid = some inst) (hseen : uid ∉ seen) :
    Found fleet w (uids ++ [uid])
      ({ p with selected := p.selected ++ [inst] }, uid :: seen) := by
  have hlive := instanceWorkload_eq_some_iff.mpr ⟨inst, hinst⟩
  obtain ⟨hmem, huid⟩ := byUID_eq_some.mp hinst
  have hnew : uid ∉ uids := fun hu => hseen ((h.seen uid).mpr ⟨hu, hlive⟩)
  have hforeign : ¬ fleet.IsForeign w uid := by
    rintro ⟨-, w', hw', hne⟩
    rw [hlive] at hw'
    exact hne (Option.some.inj hw').symm
  have hunknown : ¬ fleet.IsUnknown uid := by
    rintro ⟨-, hnone⟩
    rw [hlive] at hnone
    cases hnone
  constructor
  · intro u
    have hold := h.seen u
    simp only [List.mem_cons, List.mem_append, List.not_mem_nil, or_false]
    constructor
    · rintro (rfl | hu)
      · exact ⟨.inr rfl, hlive⟩
      · exact ⟨.inl (hold.mp hu).1, (hold.mp hu).2⟩
    · rintro ⟨hu | rfl, hw⟩
      · exact .inr (hold.mpr ⟨hu, hw⟩)
      · exact .inl rfl
  · intro i
    have hold := h.selected i
    simp only [List.mem_append, List.mem_singleton]
    constructor
    · rintro (hi | rfl)
      · exact ⟨(hold.mp hi).1, .inl (hold.mp hi).2⟩
      · exact ⟨hmem, .inr huid⟩
    · rintro ⟨hi, hu | hu⟩
      · exact .inl (hold.mpr ⟨hi, hu⟩)
      · have hsame := byUID_eq_some.mpr ⟨hi, hu⟩
        rw [hinst] at hsame
        exact .inr (Option.some.inj hsame).symm
  · rw [List.map_append, List.map_singleton, huid]
    refine List.Nodup.append h.nodup (List.nodup_singleton _) ?_
    intro u hu hu'
    obtain ⟨i, hi, hiu⟩ := List.mem_map.mp hu
    rw [List.mem_singleton.mp hu'] at hiu
    exact hnew (hiu ▸ ((h.selected i).mp hi).2)
  · rw [h.cross]
    simp [hforeign]
  · rw [repeats_append, h.notConnected]
    simp [hunknown, hnew]
  · exact h.codes
  · exact h.errs

theorem Found.skip {p' : Picked} (h : Found fleet w uids (p, seen))
    (hseen : fleet.instanceWorkload uid = some w → uid ∈ uids)
    (hselected : p'.selected = p.selected)
    (hcross : .instanceTargetCrossWorkload ∈ p'.errorCodes ↔
      .instanceTargetCrossWorkload ∈ p.errorCodes ∨ fleet.IsForeign w uid)
    (hnot : .instanceTargetNotConnected ∈ p'.errorCodes ↔
      .instanceTargetNotConnected ∈ p.errorCodes ∨
        uid ≠ "" ∧ (fleet.instanceWorkload uid = none ∨ fleet.instanceWorkload uid = some w))
    (hcodes : ∀ code ∈ p'.errorCodes,
      code = .instanceTargetCrossWorkload ∨ code = .instanceTargetNotConnected)
    (herrs : p'.errs = [] ↔ p'.errorCodes = []) :
    Found fleet w (uids ++ [uid]) (p', seen) := by
  constructor
  · intro u
    rw [h.seen u, List.mem_append, List.mem_singleton]
    constructor
    · rintro ⟨hu, hw⟩
      exact ⟨.inl hu, hw⟩
    · rintro ⟨hu | rfl, hw⟩
      · exact ⟨hu, hw⟩
      · exact ⟨hseen hw, hw⟩
  · intro i
    rw [hselected, h.selected i, List.mem_append, List.mem_singleton]
    constructor
    · rintro ⟨hi, hu⟩
      exact ⟨hi, .inl hu⟩
    · rintro ⟨hi, hu | hu⟩
      · exact ⟨hi, hu⟩
      · refine ⟨hi, hu ▸ hseen ?_⟩
        exact (fleet.instanceWorkload_eq_some uid w).mpr ⟨i, hi, hu⟩
  · rw [hselected]
    exact h.nodup
  · rw [hcross, h.cross]
    simp only [List.mem_append, List.mem_singleton, or_and_right, exists_or, exists_eq_left]
  · rw [hnot, h.notConnected, repeats_append]
    simp only [List.mem_append, List.mem_singleton, or_and_right, exists_or, exists_eq_left,
      IsUnknown]
    constructor
    · rintro ((hknown | hrepeats) | ⟨hne, hnone | hlive⟩)
      · exact .inl (.inl hknown)
      · exact .inr (.inl hrepeats)
      · exact .inl (.inr ⟨hne, hnone⟩)
      · exact .inr (.inr ⟨hne, hlive, hseen hlive⟩)
    · rintro ((hknown | ⟨hne, hnone⟩) | (hrepeats | ⟨hne, hlive, -⟩))
      · exact .inl (.inl hknown)
      · exact .inr ⟨hne, .inl hnone⟩
      · exact .inl (.inr hrepeats)
      · exact .inr ⟨hne, .inr hlive⟩
  · exact hcodes
  · exact herrs

theorem Found.pick {p : Picked × List String} (h : Found fleet w uids p)
    (uid : String) : Found fleet w (uids ++ [uid]) (fleet.pick w p uid) := by
  obtain ⟨p, seen⟩ := p
  unfold Fleet.pick
  split
  · next inst hinst =>
    obtain ⟨hbyUID, hseen⟩ := Option.filter_eq_some_iff.mp hinst
    exact h.select hbyUID (of_decide_eq_true hseen)
  next hnone =>
  -- an instance of the workload gets here only when it has been seen
  have hseen : fleet.instanceWorkload uid = some w → uid ∈ uids := by
    intro hw
    obtain ⟨i, hi⟩ := instanceWorkload_eq_some_iff.mp hw
    have hin : uid ∈ seen := by simpa [hi] using hnone
    exact ((h.seen uid).mp hin).1
  split
  · next hempty =>
    exact h.skip hseen rfl (by simp [IsForeign, hempty]) (by simp [hempty]) h.codes h.errs
  next hne =>
  split
  · next hforeign =>
    have hf := (isForeign_iff hne).mp hforeign
    obtain ⟨-, w', hw', hww'⟩ := hf
    refine h.skip hseen rfl ?_ ?_ ?_ ?_
    · simp [(isForeign_iff hne).mp hforeign]
    · simp [hw', hww']
    · intro code hcode
      rcases mem_appendUnique.mp hcode with hcode | rfl
      · exact h.codes code hcode
      · exact .inl rfl
    · simp [appendUnique_ne_nil]
  · next hforeign =>
    have hf : ¬ fleet.IsForeign w uid := fun hf => hforeign ((isForeign_iff hne).mpr hf)
    refine h.skip hseen rfl ?_ ?_ ?_ ?_
    · simp [hf]
    · have hlocal : fleet.instanceWorkload uid = none ∨ fleet.instanceWorkload uid = some w := by
        cases hw : fleet.instanceWorkload uid with
        | none => exact .inl rfl
        | some w' =>
          by_contra hother
          exact hf ⟨hne, w', hw, fun hsame => hother (.inr (congrArg some hsame))⟩
      simp [hne, hlocal]
    · intro code hcode
      rcases mem_appendUnique.mp hcode with hcode | rfl
      · exact h.codes code hcode
      · exact .inr rfl
    · simp [appendUnique_ne_nil]

theorem found (fleet : Fleet) (w : String) (uids : List String) :
    Found fleet w uids (uids.foldl (fleet.pick w) (⟨[], [], []⟩, [])) := by
  induction uids using List.reverseRecOn with
  | nil => exact Found.nil fleet w
  | append_singleton uids uid ih =>
    rw [List.foldl_append]
    exact ih.pick uid

/-! An accepted selection. -/

theorem percentageOf_eq {eligible : ℕ} {percentage : ℤ} (hpos : 0 < percentage)
    (h : 0 < eligible) :
    (percentageOf eligible percentage : ℤ) = ⌈(eligible : ℚ) * percentage / 100⌉ := by
  have hshare : 0 < (eligible : ℚ) * percentage / 100 := by positivity
  have hceil : 0 < ⌈(eligible : ℚ) * percentage / 100⌉ := Int.ceil_pos.mpr hshare
  unfold percentageOf
  dsimp only
  rw [if_neg (by omega)]
  exact Int.toNat_of_nonneg hceil.le

theorem percentageOf_le {eligible : ℕ} {percentage : ℤ} (hle : percentage < 100) :
    percentageOf eligible percentage ≤ eligible := by
  have hceil : ⌈(eligible : ℚ) * percentage / 100⌉ ≤ eligible := by
    rw [Int.ceil_le]
    have hcast : (percentage : ℚ) ≤ 100 := by exact_mod_cast hle.le
    have hnonneg : (0 : ℚ) ≤ eligible := Nat.cast_nonneg _
    push_cast
    nlinarith
  unfold percentageOf
  dsimp only
  split <;> omega

/-- What the switch over the strategies may answer. -/
def Chosen (fleet : Fleet) (w : String) (selection : CanarySelection) (now : Time) :
    Except Selected Picked → Prop
  | .error r => r.errors ≠ []
  | .ok p => fleet.Drawn w p.selected ∧
      (selection.strategy = .count ∨ selection.strategy = .n →
        p.selected.length = selection.count) ∧
      (selection.strategy = .percentage → p.selected ≠ [] →
        p.selected.length = ⌈((fleet.canaryEligibleInstances w now).length : ℚ) *
          selection.percentage / 100⌉)

theorem chosen_choose :
    fleet.Chosen w selection now (fleet.choose w labels selection now) := by
  have hdrawn := drawn_eligible fleet w now
  have hrefused : ∀ error codes,
      fleet.Chosen w selection now (.error (refused error codes)) :=
    fun error codes => List.cons_ne_nil error []
  have hexact : ∀ n : ℤ, ¬ n ≤ 0 → ¬ n ≥ (fleet.canaryEligibleInstances w now).length →
      (((fleet.canaryEligibleInstances w now).take n.toNat).length : ℤ) = n := by
    intro n hpos hlt
    rw [List.length_take]
    omega
  unfold choose
  dsimp only
  split
  · next hone =>
    split
    · exact hrefused _ _
    split
    · next inst hinst =>
      refine ⟨⟨?_, List.nodup_singleton _⟩, by simp [hone], by simp [hone]⟩
      intro i hi
      rw [List.mem_singleton.mp hi]
      exact (byUID_eq_some.mp hinst).1
    · split <;> exact hrefused _ _
  · next hcount =>
    split
    · exact hrefused _ _
    next hpos =>
    split
    · exact hrefused _ _
    next hlt => exact ⟨hdrawn.take _, fun _ => hexact _ hpos hlt, by simp [hcount]⟩
  · next hn =>
    split
    · exact hrefused _ _
    next hpos =>
    split
    · exact hrefused _ _
    next hlt => exact ⟨hdrawn.take _, fun _ => hexact _ hpos hlt, by simp [hn]⟩
  · next hpercentage =>
    split
    · exact hrefused _ _
    next hpos =>
    split
    · exact hrefused _ _
    next hlt =>
    refine ⟨hdrawn.take _, by simp [hpercentage], fun _ hne => ?_⟩
    have hsome : 0 < (fleet.canaryEligibleInstances w now).length := by
      rw [List.length_pos_iff]
      rintro hnil
      exact hne (by simp [hnil])
    rw [List.length_take, min_eq_left (percentageOf_le (not_le.mp hlt)),
      percentageOf_eq (not_le.mp hpos) hsome]
  · next hlabels =>
    refine ⟨?_, by simp [hlabels], by simp [hlabels]⟩
    split
    · exact hdrawn
    · exact hdrawn.take 0
  · next hinstances =>
    have hfound := found fleet w selection.instanceUIDs
    exact ⟨⟨fun i hi => ((hfound.selected i).mp hi).1, hfound.nodup⟩, by simp [hinstances],
      by simp [hinstances]⟩
  · exact hrefused _ _

theorem conclude_ok (h : (fleet.conclude w now p).errors = []) :
    p.selected ≠ [] ∧ (∀ i ∈ p.selected, i.isEligible now = true) ∧
      p.selected.length < (fleet.canaryEligibleInstances w now).length ∧
      (fleet.conclude w now p).targets = p.selected.map (·.target now) := by
  unfold conclude at *
  split at h
  · next herrs => exact absurd h herrs
  next herrs =>
  rw [if_neg herrs]
  split at h
  · cases h
  next hne =>
  rw [if_neg hne]
  dsimp only at h ⊢
  split at h
  · cases h
  next hsize =>
  rw [if_neg hsize]
  have hall := h
  rw [errors_foldl_examine, List.nil_append, flatMap_problems_eq_nil] at hall
  refine ⟨hne, hall, ?_, by rw [targets_foldl_examine, List.nil_append]⟩
  by_contra hle
  exact hsize ⟨h, not_lt.mp hle⟩

end Fleet

/-- An accepted selection has targets, each of them once; they are live instances of the workload
that do not reject remote config, are healthy and have a fresh heartbeat, and fewer than all such
instances; a count and a percentage are met exactly. -/
theorem selection_sound {fleet : Fleet} {w : String} {labels : List (String × String)}
    {selection : CanarySelection} {now : Time} {r : Selected}
    (hr : fleet.selectCanaryTargets w labels selection now = r) (h : r.errors = []) :
    r.targets ≠ [] ∧ (r.targets.map (·.instanceUID)).Nodup ∧
    (∀ t ∈ r.targets, ∃ i ∈ fleet.instances w, i.instanceUID = t.instanceUID ∧
      (i.remoteConfigCapabilityKnown = true → i.acceptsRemoteConfig = true) ∧
      i.healthy = true ∧ i.isFresh now = true) ∧
    r.targets.length < ((fleet.instances w).filter (·.isEligible now)).length ∧
    (selection.strategy = .count ∨ selection.strategy = .n →
      r.targets.length = selection.count) ∧
    (selection.strategy = .percentage → r.targets.length =
      ⌈(((fleet.instances w).filter (·.isEligible now)).length : ℚ) *
        selection.percentage / 100⌉) := by
  have hlength : (fleet.canaryEligibleInstances w now).length =
      ((fleet.instances w).filter (·.isEligible now)).length :=
    ((List.perm_insertionSort _ _).filter _).length_eq
  have hchosen : fleet.Chosen w selection now (fleet.choose w labels selection now) :=
    Fleet.chosen_choose
  unfold Fleet.selectCanaryTargets at hr
  split at hr
  · next r' hchoose =>
    subst hr
    rw [hchoose] at hchosen
    exact absurd h hchosen
  · next p hchoose =>
    subst hr
    rw [hchoose] at hchosen
    obtain ⟨hne, hall, hsize, htargets⟩ := Fleet.conclude_ok h
    obtain ⟨⟨hmem, hnodup⟩, hcount, hpercentage⟩ := hchosen
    rw [htargets, ← hlength]
    simp only [List.length_map]
    refine ⟨by simpa using hne, ?_, ?_, hsize, hcount, fun hp => hpercentage hp hne⟩
    · simpa [LiveInstance.target, Function.comp_def] using hnodup
    · intro t ht
      obtain ⟨i, hi, rfl⟩ := List.mem_map.mp ht
      have heligible := hall i hi
      simp only [Instance.isEligible, Instance.rejectsRemoteConfig, Bool.and_eq_true,
        Bool.not_eq_true', Bool.and_eq_false_iff, Bool.not_eq_false'] at heligible
      obtain ⟨⟨haccepts, hhealthy⟩, hfresh⟩ := heligible
      refine ⟨i, hmem i hi, rfl, ?_, hhealthy, hfresh⟩
      intro hknown
      rcases haccepts with hunknown | haccepts
      · rw [hknown] at hunknown
        cases hunknown
      · exact haccepts

def Fleet.single (w : String) (l : List LiveInstance) (h : (l.map (·.instanceUID)).Nodup) :
    Fleet where
  instances := fun w' => if w' = w then l else []
  instanceWorkload := fun uid => if l.any (·.instanceUID = uid) then some w else none
  nodup := by
    intro w'
    split
    · exact h
    · exact List.nodup_nil
  instanceWorkload_eq_some := by
    intro uid w'
    by_cases hw : w' = w
    · simp [hw]
    · simp [hw, Ne.symm hw]

def threeLive : Fleet :=
  .single "w" [⟨⟨"c", true, 5, true, true⟩, ""⟩, ⟨⟨"a", true, 5, true, true⟩, ""⟩,
    ⟨⟨"b", true, 5, true, true⟩, ""⟩] (by decide)

theorem selection_sound_threeLive :
    ∃ r, threeLive.selectCanaryTargets "w" [] ⟨.percentage, "", [], 0, 34, []⟩ 7 = r ∧
      r.targets.map (·.instanceUID) = ["a", "b"] ∧ r.targets.length = ⌈(3 : ℚ) * 34 / 100⌉ := by
  have herrors : (threeLive.selectCanaryTargets "w" [] ⟨.percentage, "", [], 0, 34, []⟩ 7).errors =
      [] := by decide +kernel
  obtain ⟨-, -, -, -, -, hexact⟩ := selection_sound rfl herrors
  exact ⟨_, rfl, by decide +kernel, hexact rfl⟩

/-! Two lists with the same elements. -/

/-- Both are accepted or both refused, with the same targets and the same error codes. -/
structure SameOutcome (r r' : Selected) : Prop where
  accepted : r.errors = [] ↔ r'.errors = []
  targets : ∀ t, t ∈ r.targets ↔ t ∈ r'.targets
  errorCodes : ∀ code, code ∈ r.errorCodes ↔ code ∈ r'.errorCodes

namespace Fleet

variable {fleet : Fleet} {w : String} {now : Time} {p p' : Picked}

theorem mem_errorCodes_conclude (herrs : p.errs = [] ↔ p.errorCodes = [])
    (hcode : code ≠ .instanceRemoteConfigUnsupported) :
    code ∈ (fleet.conclude w now p).errorCodes ↔ code ∈ p.errorCodes := by
  unfold conclude
  split
  · rfl
  next hnil =>
  have hcodes := herrs.mp (not_not.mp hnil)
  split
  · simp [refused, hcodes]
  dsimp only
  split
  · simp [refused, hcodes]
  · rw [mem_errorCodes_foldl_examine]
    simp [hcode]

theorem sameOutcome_conclude_of_perm (herrs : p.errs = []) (herrs' : p'.errs = [])
    (hcodes : p.errorCodes = p'.errorCodes) (hperm : p.selected.Perm p'.selected) :
    SameOutcome (fleet.conclude w now p) (fleet.conclude w now p') := by
  have hnil : p.selected = [] ↔ p'.selected = [] := by
    constructor
    · intro h
      exact (h ▸ hperm).nil_eq.symm
    · intro h
      exact List.Perm.eq_nil (h ▸ hperm)
  have hproblems : ((p.selected.foldl (Selected.examine now) ⟨[], [], [], p.errorCodes⟩).errors = []
      ↔ (p'.selected.foldl (Selected.examine now) ⟨[], [], [], p'.errorCodes⟩).errors = []) := by
    rw [errors_foldl_examine, errors_foldl_examine, List.nil_append, List.nil_append,
      flatMap_problems_eq_nil, flatMap_problems_eq_nil]
    simp only [hperm.mem_iff]
  unfold conclude
  rw [if_neg (not_not.mpr herrs), if_neg (not_not.mpr herrs')]
  by_cases hempty : p.selected = []
  · rw [if_pos hempty, if_pos (hnil.mp hempty)]
    exact ⟨Iff.rfl, fun _ => Iff.rfl, fun _ => Iff.rfl⟩
  rw [if_neg hempty, if_neg (fun h => hempty (hnil.mpr h))]
  dsimp only
  rw [hperm.length_eq]
  by_cases hsize :
      (p'.selected.foldl (Selected.examine now) ⟨[], [], [], p'.errorCodes⟩).errors = [] ∧
        p'.selected.length ≥ (fleet.canaryEligibleInstances w now).length
  · rw [if_pos hsize, if_pos ⟨hproblems.mpr hsize.1, hsize.2⟩]
    exact ⟨Iff.rfl, fun _ => Iff.rfl, fun _ => Iff.rfl⟩
  rw [if_neg hsize, if_neg (fun h => hsize ⟨hproblems.mp h.1, h.2⟩)]
  refine ⟨hproblems, ?_, ?_⟩
  · intro t
    rw [targets_foldl_examine, targets_foldl_examine, List.nil_append, List.nil_append]
    exact (hperm.map _).mem_iff
  · intro code
    rw [mem_errorCodes_foldl_examine, mem_errorCodes_foldl_examine, hcodes]
    simp only [hperm.mem_iff]

/-- Two readings of lists with the same elements end alike unless one of them alone has met an
instance that it takes for not connected. -/
theorem sameOutcome_conclude {uids' seen' : List String}
    (h : Found fleet w uids (p, seen)) (h' : Found fleet w uids' (p', seen'))
    (hset : ∀ uid, uid ∈ uids ↔ uid ∈ uids') :
    SameOutcome (fleet.conclude w now p) (fleet.conclude w now p') ↔
      (.instanceTargetNotConnected ∈ p.errorCodes ↔
        .instanceTargetNotConnected ∈ p'.errorCodes) := by
  constructor
  · intro hsame
    have hcode := hsame.errorCodes .instanceTargetNotConnected
    rw [mem_errorCodes_conclude h.errs (by decide), mem_errorCodes_conclude h'.errs (by decide)]
      at hcode
    exact hcode
  · intro hnot
    have hcross : .instanceTargetCrossWorkload ∈ p.errorCodes ↔
        .instanceTargetCrossWorkload ∈ p'.errorCodes := by
      rw [h.cross, h'.cross]
      simp only [hset]
    have hcodes : ∀ code, code ∈ p.errorCodes ↔ code ∈ p'.errorCodes := by
      intro code
      constructor
      · intro hcode
        rcases h.codes code hcode with rfl | rfl
        · exact hcross.mp hcode
        · exact hnot.mp hcode
      · intro hcode
        rcases h'.codes code hcode with rfl | rfl
        · exact hcross.mpr hcode
        · exact hnot.mpr hcode
    have hnil : p.errorCodes = [] ↔ p'.errorCodes = [] := by
      simp only [List.eq_nil_iff_forall_not_mem, hcodes]
    by_cases herrs : p.errs = []
    · have hcodesnil := h.errs.mp herrs
      have hcodesnil' := hnil.mp hcodesnil
      refine sameOutcome_conclude_of_perm herrs (h'.errs.mpr hcodesnil')
        (hcodesnil.trans hcodesnil'.symm) ?_
      rw [List.perm_ext_iff_of_nodup h.nodup.of_map h'.nodup.of_map]
      intro i
      rw [h.selected, h'.selected, hset]
    · have herrs' : p'.errs ≠ [] := fun he => herrs (h.errs.mpr (hnil.mpr (h'.errs.mp he)))
      unfold conclude
      rw [if_pos herrs, if_pos herrs']
      exact ⟨by simp [herrs, herrs'], fun _ => Iff.rfl, hcodes⟩

end Fleet

/-- Two lists with the same elements are read alike exactly when they name an unknown instance, or
both or neither of them repeat an instance of the workload. -/
theorem instance_lists_iff {fleet : Fleet} {w : String} {labels : List (String × String)}
    {selection selection' : CanarySelection} {now : Time}
    (hs : selection.strategy = .instances) (hs' : selection'.strategy = .instances)
    (hset : ∀ uid, uid ∈ selection.instanceUIDs ↔ uid ∈ selection'.instanceUIDs) :
    SameOutcome (fleet.selectCanaryTargets w labels selection now)
        (fleet.selectCanaryTargets w labels selection' now) ↔
      (∃ uid ∈ selection.instanceUIDs, fleet.IsUnknown uid) ∨
        (fleet.Repeats w selection.instanceUIDs ↔ fleet.Repeats w selection'.instanceUIDs) := by
  have hfound := Fleet.found fleet w selection.instanceUIDs
  have hfound' := Fleet.found fleet w selection'.instanceUIDs
  have hread : fleet.selectCanaryTargets w labels selection now =
      fleet.conclude w now (fleet.pickAll w selection.instanceUIDs) := by
    simp only [Fleet.selectCanaryTargets, Fleet.choose, hs]
  have hread' : fleet.selectCanaryTargets w labels selection' now =
      fleet.conclude w now (fleet.pickAll w selection'.instanceUIDs) := by
    simp only [Fleet.selectCanaryTargets, Fleet.choose, hs']
  rw [hread, hread']
  refine (Fleet.sameOutcome_conclude hfound hfound' hset).trans ?_
  rw [hfound.notConnected, hfound'.notConnected]
  simp only [← hset]
  by_cases hunknown : ∃ uid ∈ selection.instanceUIDs, fleet.IsUnknown uid
  · simp [hunknown]
  · simp [hunknown]

/-- A connected instance that is named twice is refused as not connected. -/
theorem repeated_instance_refused :
    (threeLive.selectCanaryTargets "w" [] ⟨.instances, "", ["a"], 0, 0, []⟩ 7).errors = [] ∧
    (threeLive.selectCanaryTargets "w" [] ⟨.instances, "", ["a", "a"], 0, 0, []⟩ 7).errors =
      ["instance target is not connected: a"] ∧
    (threeLive.selectCanaryTargets "w" [] ⟨.instances, "", ["a", "a"], 0, 0, []⟩ 7).errorCodes =
      [.instanceTargetNotConnected] ∧
    threeLive.instanceWorkload "a" = some "w" := by
  decide

theorem Fleet.not_repeats_of_nodup {fleet : Fleet} {w : String}
    (h : uids.Nodup) : ¬ fleet.Repeats w uids := by
  rintro ⟨uid, -, -, hcount⟩
  have hone := List.nodup_iff_count_le_one.mp h uid
  omega

theorem instance_lists_reordered :
    SameOutcome (threeLive.selectCanaryTargets "w" [] ⟨.instances, "", ["a", "b"], 0, 0, []⟩ 7)
      (threeLive.selectCanaryTargets "w" [] ⟨.instances, "", ["b", "a"], 0, 0, []⟩ 7) := by
  refine (instance_lists_iff rfl rfl ?_).mpr (.inr (iff_of_false ?_ ?_))
  · intro uid
    simp [or_comm]
  · exact Fleet.not_repeats_of_nodup (by decide)
  · exact Fleet.not_repeats_of_nodup (by decide)

end OtelMagnify.Canary
