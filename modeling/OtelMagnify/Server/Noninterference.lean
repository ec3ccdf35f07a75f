import OtelMagnify.Server.Selector
import OtelMagnify.Server.Handled

/-! Trusted selector labels against what agents report. Two runs over the same database whose
messages differ only in the attributes of their descriptions, not in the workloads they fingerprint
to, stay alike: they differ at most in the columns that descriptions set. Trusted labels are not
among those. -/
namespace OtelMagnify.Server
open Push StepSystem
open Token hiding Time

def Workload.unattributed (row : Workload) : Workload :=
  { row with
    fingerprintSource := ""
    fingerprintKeys := []
    displayName := ""
    type := .sdk
    version := ""
    labels := trustedLabels row.labels }

def Instance.unattributed (i : Instance) : Instance := { i with podName := "", version := "" }

namespace Workload

def Alike (a b : Workload) : Prop := a.unattributed = b.unattributed

variable {a b : Workload}

theorem Alike.field (h : a.Alike b) {α : Type*} (f : Workload → α)
    (hf : ∀ r : Workload, f r.unattributed = f r) : f a = f b := by
  rw [← hf a, ← hf b]
  exact congrArg f h

theorem Alike.change (h : a.Alike b) (f : Workload → Workload)
    (hf : ∀ r : Workload, (f r).unattributed = f r.unattributed) : (f a).Alike (f b) := by
  unfold Alike
  rw [hf, hf]
  exact congrArg f h

theorem Alike.trustedLabels (h : a.Alike b) :
    Server.trustedLabels a.labels = Server.trustedLabels b.labels := congrArg labels h

theorem bind_alike {x y : Option Workload} (h : Option.Rel Alike x y) {α : Type*}
    (f : Workload → Option α) (hf : ∀ r : Workload, f r.unattributed = f r) :
    x.bind f = y.bind f := by
  cases h with
  | none => rfl
  | some hab => exact hab.field f hf

end Workload

open Workload

namespace Workloads

def Alike (rows rows' : Workloads) : Prop := ∀ w, Option.Rel Workload.Alike (rows w) (rows' w)

variable {rows rows' : Workloads} {a b : Workload}

theorem Alike.refl (rows : Workloads) : rows.Alike rows := fun w => by
  cases rows w with
  | none => exact .none
  | some row => exact .some rfl

theorem Alike.update (h : rows.Alike rows') (w : String) {x y : Option Workload}
    (hxy : Option.Rel Workload.Alike x y) :
    Alike (Function.update rows w x) (Function.update rows' w y) := by
  intro v
  by_cases hv : v = w
  · subst hv
    rw [Function.update_self, Function.update_self]
    exact hxy
  · rw [Function.update_of_ne hv, Function.update_of_ne hv]
    exact h v

theorem Alike.modify (h : rows.Alike rows') (w : String) {f : Workload → Workload}
    (hf : ∀ r : Workload, (f r).unattributed = f r.unattributed) :
    Option.Rel Workload.Alike ((rows w).map f) ((rows' w).map f) :=
  rel_map (h w) fun _ _ hab => hab.change f hf

theorem Alike.upsertWorkload (h : rows.Alike rows') (w : String) (hab : a.Alike b) :
    (rows.upsertWorkload w a).Alike (rows'.upsertWorkload w b) := by
  refine h.update w (.some ?_)
  rw [bind_alike (h w) remoteConfigStatus fun _ => rfl,
    bind_alike (h w) availableComponents fun _ => rfl]
  exact congrArg (fun r : Workload => { r with
    remoteConfigStatus :=
      (r.remoteConfigStatus.map RemoteConfigStatus.sanitized).or ((rows' w).bind remoteConfigStatus)
    availableComponents :=
      r.availableComponents.or ((rows' w).bind availableComponents) }) hab

theorem Alike.markWorkloadDisconnected (h : rows.Alike rows') (w : String) (until_ : Time) :
    (rows.markWorkloadDisconnected w until_).Alike (rows'.markWorkloadDisconnected w until_) :=
  h.update w (h.modify w fun _ => rfl)

theorem Alike.clearWorkloadRetention (h : rows.Alike rows') (w : String) :
    (rows.clearWorkloadRetention w).Alike (rows'.clearWorkloadRetention w) :=
  h.update w (h.modify w fun _ => rfl)

theorem Alike.archiveExpiredWorkloads (h : rows.Alike rows') (now : Time) :
    (rows.archiveExpiredWorkloads now).Alike (rows'.archiveExpiredWorkloads now) := by
  intro w
  refine h.modify w fun r => ?_
  by_cases hr : r.archivedAt = none ∧ r.retentionUntil.any (· < now) = true
  · rw [if_pos hr]
    exact (if_pos hr).symm
  · rw [if_neg hr]
    exact (if_neg hr).symm

end Workloads

/-- A described row differs from another only in what the attributes determine. -/
theorem described_alike {prev prev' : Option Workload} (h : Option.Rel Workload.Alike prev prev')
    {msg msg' : AgentMessage} (haccepts : msg.acceptsRemoteConfig = msg'.acceptsRemoteConfig)
    (heff : msg.effectiveConfig = msg'.effectiveConfig)
    (hcomp : msg.availableComponents = msg'.availableComponents) (fp fp' : FingerprintResult)
    (attrs attrs' : Attrs) (status : WorkloadStatus) (now : Time) (stored : Bool) :
    (described prev fp attrs msg status now stored).Alike
      (.described prev' fp' attrs' msg' status now stored) := by
  have hprev : (prev.getD .zero).Alike (prev'.getD .zero) := by
    cases h with
    | none => rfl
    | some hab => exact hab
  have hlabels : trustedLabels (describedLabels (prev.getD .zero).labels attrs) =
      trustedLabels (describedLabels (prev'.getD .zero).labels attrs') := by
    rw [trustedLabels_describedLabels, trustedLabels_describedLabels]
    exact hprev.trustedLabels
  have hkept : ∀ {α : Type} (f : Workload → α), (∀ r : Workload, f r.unattributed = f r) →
      f (prev.getD .zero) = f (prev'.getD .zero) := fun f hf => hprev.field f hf
  simp only [Workload.Alike, unattributed, described, hlabels, haccepts, heff,
    hcomp, hkept activeConfigID fun _ => rfl, hkept activeConfigHash fun _ => rfl,
    hkept remoteConfigStatus fun _ => rfl,
    hkept availableComponents fun _ => rfl, hkept archivedAt fun _ => rfl]

namespace Registry

/-- The same instances in the same buckets, up to what their attributes determine. -/
structure Alike (r r' : Registry) : Prop where
  uidToWL : r.uidToWL = r'.uidToWL
  bucket : ∀ w, (r.byWorkload w).map Instance.unattributed =
    (r'.byWorkload w).map Instance.unattributed

variable {r r' : Registry} {uid w : String}

theorem Alike.refl (r : Registry) : r.Alike r := ⟨rfl, fun _ => rfl⟩

theorem map_without (l : List Instance) (uid : String) :
    (without l uid).map Instance.unattributed = without (l.map Instance.unattributed) uid := by
  rw [without, without, List.filter_map]
  rfl

theorem Alike.without (h : r.Alike r') (w uid : String) :
    (Registry.without (r.byWorkload w) uid).map Instance.unattributed =
      (Registry.without (r'.byWorkload w) uid).map Instance.unattributed := by
  rw [map_without, map_without, h.bucket w]

theorem Alike.bindInstance (h : r.Alike r') (uid w : String) {i j : Instance}
    (hij : i.unattributed = j.unattributed) :
    (r.bindInstance uid w i).Alike (r'.bindInstance uid w j) := by
  refine ⟨by simp only [Registry.bindInstance, h.uidToWL], fun v => ?_⟩
  simp only [Registry.bindInstance, h.uidToWL]
  split
  · rw [List.map_cons, List.map_cons, h.without]
    exact congrArg (· :: _) (congrArg (fun k : Instance => { k with instanceUID := uid }) hij)
  · split
    · exact h.without v uid
    · exact h.bucket v

theorem Alike.updateInstance (h : r.Alike r') (uid : String) {mutate : Instance → Instance}
    (hmut : ∀ i, (mutate i).unattributed = (mutate i.unattributed).unattributed) :
    (r.updateInstance uid mutate).Alike (r'.updateInstance uid mutate) := by
  have hpush : ∀ l : List Instance, (l.map fun i =>
      if i.instanceUID = uid then { mutate i with instanceUID := i.instanceUID } else i).map
        Instance.unattributed = (l.map Instance.unattributed).map fun i =>
          Instance.unattributed (if i.instanceUID = uid then
            { mutate i with instanceUID := i.instanceUID } else i) := by
    intro l
    rw [List.map_map, List.map_map]
    refine List.map_congr_left fun i _ => ?_
    simp only [Function.comp_apply]
    by_cases hi : i.instanceUID = uid
    · rw [if_pos hi, if_pos (show i.unattributed.instanceUID = uid from hi)]
      exact congrArg (fun k : Instance => { k with instanceUID := i.instanceUID }) (hmut i)
    · rw [if_neg hi, if_neg (show ¬ i.unattributed.instanceUID = uid from hi)]
      rfl
  refine ⟨h.uidToWL, fun v => ?_⟩
  simp only [Registry.updateInstance]
  rw [hpush, hpush, h.bucket v]

theorem unbindInstance_of_none (h : r.uidToWL uid = none) : r.unbindInstance uid = (r, "") := by
  unfold Registry.unbindInstance
  split
  · rfl
  · next v hv =>
    rw [h] at hv
    cases hv

theorem unbindInstance_of_some (h : r.uidToWL uid = some w) :
    r.unbindInstance uid = if w = "" then (r, "") else (r.remove uid w h, w) := by
  unfold Registry.unbindInstance
  split
  · next hn =>
    rw [h] at hn
    cases hn
  · next v hv =>
    have hvw : v = w := by
      rw [h] at hv
      exact (Option.some.inj hv).symm
    subst hvw
    rfl

theorem Alike.unbindInstance (h : r.Alike r') (uid : String) :
    (r.unbindInstance uid).1.Alike (r'.unbindInstance uid).1 ∧
      (r.unbindInstance uid).2 = (r'.unbindInstance uid).2 := by
  cases hw : r.uidToWL uid with
  | none =>
    rw [unbindInstance_of_none hw, unbindInstance_of_none (h.uidToWL ▸ hw)]
    exact ⟨h, rfl⟩
  | some w =>
    rw [unbindInstance_of_some hw, unbindInstance_of_some (h.uidToWL ▸ hw)]
    split
    · exact ⟨h, rfl⟩
    · refine ⟨⟨by simp only [Registry.remove, h.uidToWL], fun v => ?_⟩, rfl⟩
      simp only [Registry.remove]
      split
      · exact h.without v uid
      · exact h.bucket v

theorem Alike.count (h : r.Alike r') (w : String) : r.count w = r'.count w := by
  have hlen := congrArg List.length (h.bucket w)
  rw [List.length_map, List.length_map] at hlen
  exact hlen

/-- A test that does not look at the attributes of instances. -/
theorem Alike.any (h : r.Alike r') (w : String) {p : Instance → Bool}
    (hp : ∀ i, p i.unattributed = p i) : (r.byWorkload w).any p = (r'.byWorkload w).any p := by
  have hmap : ∀ l : List Instance, (l.map Instance.unattributed).any p = l.any p := by
    intro l
    rw [List.any_map]
    exact congrArg l.any (funext hp)
  rw [← hmap, h.bucket w, hmap]

theorem Alike.aggregatedStatus (h : r.Alike r') (w : String) :
    r.aggregatedStatus w = r'.aggregatedStatus w := by
  have hlen : (r.byWorkload w).length = (r'.byWorkload w).length := h.count w
  have hany : (r.byWorkload w).any (!·.healthy) = (r'.byWorkload w).any (!·.healthy) :=
    h.any w fun _ => rfl
  simp only [Registry.aggregatedStatus, hlen, hany]

end Registry

/-- Everything outside the registry and the rows is the same. -/
inductive Shared.Alike (σ : Shared) : Shared → Prop where
  | intro (r : Registry) (rows : Workloads) (hr : σ.registry.Alike r) (hrows : σ.rows.Alike rows) :
      Alike σ { σ with registry := r, rows := rows }

/-- The same message, up to the attributes of its description; both fingerprint to one workload. -/
inductive AgentMessage.Alike (msg : AgentMessage) : AgentMessage → Prop where
  | heartbeat (h : msg.agentDescription = none) : Alike msg msg
  | described (desc desc' : AgentDescription) (h : msg.agentDescription = some desc)
      (hid : (fingerprint desc.attrs msg.uid).id = (fingerprint desc'.attrs msg.uid).id) :
      Alike msg { msg with agentDescription := some desc' }

def HandlerStage.carries : HandlerStage → Bool
  | aggregating _ _ | upserting _ _ | refreshAggregating _ _ | refreshUpserting _ _ => true
  | launching _ _ | reportUpserting _ _ => true
  | _ => false

inductive HandlerStage.Alike : HandlerStage → HandlerStage → Prop where
  | same (stage : HandlerStage) (h : stage.carries = false) : Alike stage stage
  | aggregating (w : String) {a b : Option Workload} (h : Option.Rel Workload.Alike a b) :
      Alike (.aggregating w a) (.aggregating w b)
  | upserting (w : String) {a b : Workload} (h : a.Alike b) :
      Alike (.upserting w a) (.upserting w b)
  | refreshAggregating (w : String) {a b : Workload} (h : a.Alike b) :
      Alike (.refreshAggregating w a) (.refreshAggregating w b)
  | refreshUpserting (w : String) {a b : Workload} (h : a.Alike b) :
      Alike (.refreshUpserting w a) (.refreshUpserting w b)
  | launching (w : String) {a b : Workload} (h : a.Alike b) :
      Alike (.launching w a) (.launching w b)
  | reportUpserting (w : String) {a b : Workload} (h : a.Alike b) :
      Alike (.reportUpserting w a) (.reportUpserting w b)

def Thread.carries : Thread → Bool
  | arriving _ _ _ | handler _ _ => true
  | _ => false

inductive Thread.Alike : Thread → Thread → Prop where
  | same (t : Thread) (h : t.carries = false) : Alike t t
  | arriving (s : Session) {msg msg' : AgentMessage} (sameConn : Bool) (hmsg : msg.Alike msg') :
      Alike (.arriving s msg sameConn) (.arriving s msg' sameConn)
  | handler (l : Lease) {msg msg' : AgentMessage} (sameConn : Bool) {stage stage' : HandlerStage}
      (hmsg : msg.Alike msg') (hstage : stage.Alike stage') :
      Alike (.handler ⟨l, msg, sameConn⟩ stage) (.handler ⟨l, msg', sameConn⟩ stage')

inductive Event.Alike : Event → Event → Prop where
  | same (e : Event) : Alike e e
  | message (s : Session) {msg msg' : AgentMessage} (sameConn : Bool) (hmsg : msg.Alike msg') :
      Alike (.message s msg sameConn) (.message s msg' sameConn)

/-- The same step of the environment, up to the attributes of descriptions. -/
def Action.Alike : Action → Action → Prop := Pool.LabelRel Event.Alike

def State.Alike : State → State → Prop := Pool.Rel Shared.Alike Thread.Alike

def Moved.Alike : Moved → Moved → Prop := Option.Rel (Pool.MoveRel Shared.Alike Thread.Alike)

section Steps

variable {σ σ' : Shared} {msg msg' : AgentMessage} {l : Lease} {sameConn : Bool}
  {stage stage' : HandlerStage}

theorem Shared.Alike.refl (σ : Shared) : σ.Alike σ := .intro _ _ (.refl _) (.refl _)

theorem Shared.Alike.rows (h : σ.Alike σ') : σ.rows.Alike σ'.rows := by
  cases h with
  | intro r rows hr hrows => exact hrows

theorem AgentMessage.Alike.field (h : msg.Alike msg') {α : Type*} (f : AgentMessage → α)
    (hf : ∀ (m : AgentMessage) d, f { m with agentDescription := d } = f m) : f msg = f msg' := by
  cases h with
  | heartbeat => rfl
  | described desc desc' => exact (hf _ _).symm

theorem AgentMessage.Alike.refl (msg : AgentMessage) : msg.Alike msg := by
  cases h : msg.agentDescription with
  | none => exact .heartbeat h
  | some desc =>
    have hself : { msg with agentDescription := some desc } = msg := by rw [← h]
    have hmsg : msg.Alike { msg with agentDescription := some desc } := .described desc desc h rfl
    rwa [hself] at hmsg

/-- The handlers go on in alike states. -/
theorem next_alike (hσ : σ.Alike σ') (hmsg : msg.Alike msg') (hstage : stage.Alike stage') :
    Moved.Alike (some (σ, .handler ⟨l, msg, sameConn⟩ stage, none))
      (some (σ', .handler ⟨l, msg', sameConn⟩ stage', none)) :=
  .some ⟨hσ, .handler l sameConn hmsg hstage, .none⟩

theorem ite_rel {α β : Type*} {R : α → β → Prop} {p : Prop} [Decidable p] {a a' : α} {b b' : β}
    (ht : p → R a b) (he : ¬ p → R a' b') : R (if p then a else a') (if p then b else b') := by
  by_cases hp : p
  · rw [if_pos hp, if_pos hp]
    exact ht hp
  · rw [if_neg hp, if_neg hp]
    exact he hp

theorem getWorkload_alike (hσ : σ.Alike σ') (ok : Bool) (w : String) :
    Option.Rel Workload.Alike (σ.getWorkload ok w) (σ'.getWorkload ok w) := by
  cases hσ with
  | intro r rows hr hrows =>
    cases ok with
    | false => exact .none
    | true => exact hrows w

theorem upsertWorkload_alike (hσ : σ.Alike σ') (ok : Bool) (w : String) {a b : Workload}
    (hab : a.Alike b) : (σ.upsertWorkload ok w a).Alike (σ'.upsertWorkload ok w b) := by
  cases hσ with
  | intro r rows hr hrows =>
    cases ok with
    | false => exact .intro r rows hr hrows
    | true => exact .intro r _ hr (hrows.upsertWorkload w hab)

theorem aggregatedStatus_alike (hσ : σ.Alike σ') (w : String) :
    σ.registry.aggregatedStatus w = σ'.registry.aggregatedStatus w := by
  cases hσ with
  | intro r rows hr hrows => exact hr.aggregatedStatus w

/-- What a locked section of the handler leaves is alike. -/
def StageAlike (a b : Shared × HandlerStage) : Prop := a.1.Alike b.1 ∧ a.2.Alike b.2

open Handler

theorem claim_alike (hσ : σ.Alike σ') (hmsg : msg.Alike msg') :
    StageAlike (claim ⟨l, msg, sameConn⟩ σ) (claim ⟨l, msg', sameConn⟩ σ') := by
  have hclaim : claim ⟨l, msg', sameConn⟩ σ' = claim ⟨l, msg, sameConn⟩ σ' := by
    cases hmsg <;> rfl
  rw [hclaim]
  obtain ⟨r, rows, hr, hrows⟩ := hσ
  have hσ : σ.Alike { σ with registry := r, rows := rows } := .intro r rows hr hrows
  refine ite_rel (fun _ => ⟨hσ, .same _ rfl⟩) fun _ => ?_
  refine ite_rel (fun _ => ?_) fun _ => ?_
  · exact ite_rel (fun _ => ⟨hσ, .same _ rfl⟩) fun _ => ⟨hσ, .same _ rfl⟩
  refine ite_rel (fun _ => ⟨hσ, .same _ rfl⟩) fun _ => ?_
  refine ite_rel (fun _ => ⟨hσ, .same _ rfl⟩) fun _ => ?_
  exact ⟨.intro r rows hr hrows, .same _ rfl⟩

theorem setAdmitted_alike (hσ : σ.Alike σ') (hmsg : msg.Alike msg') :
    StageAlike (setAdmitted ⟨l, msg, sameConn⟩ σ)
      (setAdmitted ⟨l, msg', sameConn⟩ σ') := by
  have hset : setAdmitted ⟨l, msg', sameConn⟩ σ' =
      setAdmitted ⟨l, msg, sameConn⟩ σ' := by
    cases hmsg <;> rfl
  rw [hset]
  obtain ⟨r, rows, hr, hrows⟩ := hσ
  refine ite_rel (fun _ => ?_) fun _ => ?_
  · exact ⟨.intro r rows hr hrows, .same _ rfl⟩
  · exact ⟨.intro r rows hr hrows, .same _ rfl⟩

/-- Both bind the instance to one workload, or both look its workload up. -/
theorem accept_alike (hσ : σ.Alike σ') (hmsg : msg.Alike msg') (c : Choice) :
    Moved.Alike (resumeHandler σ ⟨l, msg, sameConn⟩ .accepted c)
      (resumeHandler σ' ⟨l, msg', sameConn⟩ .accepted c) := by
  obtain ⟨r, rows, hr, hrows⟩ := hσ
  cases hmsg with
  | heartbeat h =>
    simp only [resumeHandler, accept, h, Registry.lookupWorkload, hr.uidToWL]
    cases r.uidToWL (uid ⟨l, msg, sameConn⟩) with
    | none | some w => exact next_alike (.intro r rows hr hrows) (.heartbeat h) (.same _ rfl)
  | described desc desc' h hid =>
    simp only [resumeHandler, accept, h]
    have hid' : (fingerprint desc.attrs (uid ⟨l, msg, sameConn⟩)).id =
      (fingerprint desc'.attrs (uid ⟨l, msg, sameConn⟩)).id := hid
    rw [hid']
    exact next_alike (.intro _ rows (hr.bindInstance _ _ rfl) hrows) (.described desc desc' h hid)
      (.same _ rfl)

theorem report_alike (hσ : σ.Alike σ') (hmsg : msg.Alike msg') (w : String) (c : Choice) :
    Moved.Alike (resumeHandler σ ⟨l, msg, sameConn⟩ (.reporting w) c)
      (resumeHandler σ' ⟨l, msg', sameConn⟩ (.reporting w) c) := by
  have hrcs : msg.remoteConfigStatus = msg'.remoteConfigStatus :=
    hmsg.field AgentMessage.remoteConfigStatus fun _ _ => rfl
  have huid : uid ⟨l, msg, sameConn⟩ = uid ⟨l, msg', sameConn⟩ :=
    hmsg.field AgentMessage.uid fun _ _ => rfl
  simp only [resumeHandler, report, hrcs, huid]
  split
  · exact next_alike hσ hmsg (.same _ rfl)
  split
  · exact next_alike hσ hmsg (.same _ rfl)
  · obtain ⟨r, rows, hr, hrows⟩ := hσ
    exact next_alike (.intro _ rows (hr.updateInstance _ fun _ => rfl) hrows) hmsg (.same _ rfl)

theorem diverges_alike (hσ : σ.Alike σ') (hmsg : msg.Alike msg') (w : String) {a b : Workload}
    (hab : a.Alike b) :
    diverges ⟨l, msg, sameConn⟩ σ w a = diverges ⟨l, msg', sameConn⟩ σ' w b := by
  obtain ⟨r, rows, hr, hrows⟩ := hσ
  have huid : uid ⟨l, msg, sameConn⟩ = uid ⟨l, msg', sameConn⟩ :=
    hmsg.field AgentMessage.uid fun _ _ => rfl
  have hhash : a.activeConfigHash = b.activeConfigHash := hab.field _ fun _ => rfl
  have hid : a.activeConfigID = b.activeConfigID := hab.field _ fun _ => rfl
  simp only [diverges, hhash, hid, huid, Registry.instances]
  congr 1
  exact hr.any w fun _ => rfl

theorem launch_alike (hσ : σ.Alike σ') (hmsg : msg.Alike msg') (w : String) {a b : Workload}
    (hab : a.Alike b) (c : Choice) :
    Moved.Alike (resumeHandler σ ⟨l, msg, sameConn⟩ (.launching w a) c)
      (resumeHandler σ' ⟨l, msg', sameConn⟩ (.launching w b) c) := by
  have hdiv : diverges ⟨l, msg, sameConn⟩ σ w a =
    diverges ⟨l, msg', sameConn⟩ σ' w b := diverges_alike hσ hmsg w hab
  obtain ⟨r, rows, hr, hrows⟩ := hσ
  simp only [resumeHandler, hdiv]
  split <;> exact next_alike (.intro r rows hr hrows) hmsg (.same _ rfl)

theorem fork_alike (hσ : σ.Alike σ') (hmsg : msg.Alike msg') (w : String) (c : Choice) :
    Moved.Alike (resumeHandler σ ⟨l, msg, sameConn⟩ (.forking w) c)
      (resumeHandler σ' ⟨l, msg', sameConn⟩ (.forking w) c) := by
  obtain ⟨r, rows, hr, hrows⟩ := hσ
  refine .some ⟨.intro r rows hr hrows, .handler l sameConn hmsg (.same _ rfl), ?_⟩
  simp only [session]
  cases (σ.tokens.fork l.session).2 with
  | none => exact .none
  | some l' => exact .some (.same _ rfl)

theorem resumeHandler_alike (hσ : σ.Alike σ') (hmsg : msg.Alike msg') (hstage : stage.Alike stage')
    (c : Choice) :
    Moved.Alike (resumeHandler σ ⟨l, msg, sameConn⟩ stage c)
      (resumeHandler σ' ⟨l, msg', sameConn⟩ stage' c) := by
  have huid : msg.uid = msg'.uid := hmsg.field AgentMessage.uid fun _ _ => rfl
  have hσ' := hσ
  obtain ⟨r, rows, hr, hrows⟩ := hσ'
  cases hstage with
  | aggregating w h =>
    refine next_alike hσ hmsg (.upserting w ?_)
    rw [aggregatedStatus_alike hσ w]
    exact described_alike h (hmsg.field _ fun _ _ => rfl) (hmsg.field _ fun _ _ => rfl)
      (hmsg.field _ fun _ _ => rfl) _ _ _ _ _ _ _
  | upserting w h =>
    refine next_alike (upsertWorkload_alike hσ c.ok w h) hmsg (.same _ ?_)
    split <;> rfl
  | refreshAggregating w h =>
    refine next_alike hσ hmsg (.refreshUpserting w ?_)
    rw [aggregatedStatus_alike hσ w]
    exact h.change (fun row => { row with
      status := r.aggregatedStatus w, lastSeenAt := c.now }) fun _ => rfl
  | refreshUpserting w h =>
    exact next_alike (upsertWorkload_alike hσ c.ok w h) hmsg (.launching w h)
  | reportUpserting w h =>
    exact next_alike (upsertWorkload_alike hσ c.ok w h) hmsg (.same _ rfl)
  | launching w h => exact launch_alike hσ hmsg w h c
  | same stage hcarries =>
    cases stage with
    | accepted => exact accept_alike hσ hmsg c
    | reporting w => exact report_alike hσ hmsg w c
    | forking w => exact fork_alike hσ hmsg w c
    | describing w => exact next_alike hσ hmsg (.aggregating w (getWorkload_alike hσ c.ok w))
    | refreshing w =>
      simp only [resumeHandler]
      have hg := getWorkload_alike hσ c.ok w
      generalize σ.getWorkload c.ok w = x,
        Shared.getWorkload { σ with registry := r, rows := rows } c.ok w = y at hg
      cases hg with
      | none => exact next_alike hσ hmsg (.same _ rfl)
      | some h => exact next_alike hσ hmsg (.refreshAggregating w h)
    | reportReading w snap =>
      simp only [resumeHandler]
      have hg := getWorkload_alike hσ c.ok w
      generalize σ.getWorkload c.ok w = x,
        Shared.getWorkload { σ with registry := r, rows := rows } c.ok w = y at hg
      cases hg with
      | none => exact next_alike hσ hmsg (.same _ rfl)
      | some h =>
        exact next_alike hσ hmsg (.reportUpserting w
          (h.change (fun r => { r with remoteConfigStatus := some snap }) fun _ => rfl))
    | locking =>
      refine ite_rel (fun _ => .none) fun _ => ite_rel (fun _ => ?_) fun _ => ?_
      all_goals exact next_alike (.intro r rows hr hrows) hmsg (.same _ rfl)
    | claiming => exact next_alike (claim_alike hσ hmsg).1 hmsg (claim_alike hσ hmsg).2
    | admitting =>
      exact next_alike (setAdmitted_alike hσ hmsg).1 hmsg (setAdmitted_alike hσ hmsg).2
    | touching w =>
      have hhealth : msg.health = msg'.health := hmsg.field _ fun _ _ => rfl
      have hrcs : msg.remoteConfigStatus = msg'.remoteConfigStatus := hmsg.field _ fun _ _ => rfl
      simp only [resumeHandler, uid, huid, hhealth, hrcs]
      exact next_alike (.intro _ rows (hr.updateInstance _ fun _ => rfl) hrows) hmsg (.same _ rfl)
    | clearing w =>
      refine next_alike ?_ hmsg (.same _ rfl)
      split
      · exact .intro r _ hr (hrows.clearWorkloadRetention w)
      · exact .intro r rows hr hrows
    | cancelling w =>
      exact next_alike (.intro r rows hr hrows) hmsg (.same _ rfl)
    | marking =>
      refine next_alike hσ hmsg (.same _ ?_)
      split <;> rfl
    | unlocking disconnect =>
      refine next_alike (.intro r rows hr hrows) hmsg (.same _ ?_)
      split <;> rfl
    | releasing disconnect =>
      refine .some ⟨.intro r rows hr hrows, .same _ ?_, .none⟩
      cases disconnect <;> rfl
    | replying =>
      simp only [resumeHandler, session]
      split
      · exact next_alike (.intro r rows hr hrows) hmsg (.same _ rfl)
      · exact next_alike (.intro r rows hr hrows) hmsg (.same _ rfl)
      refine ite_rel (fun _ => ?_) fun _ => ?_
      · exact .some ⟨.intro r rows hr hrows, .same _ rfl, .none⟩
      · exact next_alike (.intro r rows hr hrows) hmsg (.same _ rfl)
    | _ => cases hcarries

theorem tokens_rel (m : Option Manager) : Option.Rel (· = ·) m m := by
  cases m with
  | none => exact .none
  | some m => exact .some rfl

theorem unbind_alike (hσ : σ.Alike σ') (s : Session) :
    (σ.unbind s).1.Alike (σ'.unbind s).1 ∧ (σ.unbind s).2 = (σ'.unbind s).2 := by
  obtain ⟨r, rows, hr, hrows⟩ := hσ
  have hunbind := hr.unbindInstance (σ.info s).uid
  refine ite_rel (R := fun a b : Shared × CloserStage => a.1.Alike b.1 ∧ a.2 = b.2) (fun _ => ?_)
    fun _ => ?_
  · exact ⟨.intro r rows hr hrows, rfl⟩
  · exact ⟨.intro _ rows hunbind.1 hrows, by simp only [hunbind.2]⟩

theorem resumeCloser_alike (hσ : σ.Alike σ') (kind : Closing) (s : Session) (stage : CloserStage)
    (c : Choice) :
    Moved.Alike (resumeCloser σ kind s stage c) (resumeCloser σ' kind s stage c) := by
  have hσ' := hσ
  obtain ⟨r, rows, hr, hrows⟩ := hσ'
  cases stage with
  | unbinding =>
    have hunbind := unbind_alike hσ s
    simp only [resumeCloser, hunbind.2]
    exact .some ⟨hunbind.1, .same _ rfl, .none⟩
  | counting w =>
    simp only [resumeCloser, hr.count w]
    exact .some ⟨.intro r rows hr hrows, .same _ rfl, .none⟩
  | completing =>
    refine rel_map (tokens_rel _) ?_
    rintro m _ rfl
    refine ⟨.intro r rows hr hrows, .same _ ?_, .none⟩
    split <;> rfl
  | cleaning =>
    refine rel_map (tokens_rel _) ?_
    rintro m _ rfl
    exact ⟨.intro r rows hr hrows, .same _ rfl, .none⟩
  | returning =>
    cases kind with
    | disabled target =>
      refine rel_map (tokens_rel _) ?_
      rintro m _ rfl
      exact ⟨.intro r rows hr hrows, .same _ rfl, .none⟩
    | _ => exact .none
  | finishing | awaiting | disconnecting | releasing =>
    simp only [resumeCloser]
    split
    all_goals first | exact .none | exact .some ⟨.intro r rows hr hrows, .same _ rfl, .none⟩
  | _ =>
    exact .some ⟨.intro r rows hr hrows, .same _ rfl, .none⟩

/-- A step of alike goroutines leads to alike states. -/
theorem resume_alike (σ σ' : Shared) (t t' : Thread) (c : Choice) (hσ : σ.Alike σ')
    (ht : t.Alike t') : Moved.Alike (resume σ t c) (resume σ' t' c) := by
  have hσ' := hσ
  obtain ⟨r, rows, hr, hrows⟩ := hσ'
  cases ht with
  | handler l sameConn hmsg hstage => exact resumeHandler_alike hσ hmsg hstage c
  | arriving s sameConn hmsg =>
    simp only [resume]
    cases (σ.tokens.acquire s c.now).2 with
    | none =>
      exact .some ⟨.intro r rows hr hrows, .same _ rfl, .none⟩
    | some l => exact next_alike (.intro r rows hr hrows) hmsg (.same _ rfl)
  | same t hnot =>
    cases t with
    | closer kind s stage => exact resumeCloser_alike hσ kind s stage c
    | finished => exact .none
    | graceCheck w =>
      simp only [resume, hr.count w]
      refine .some ⟨.intro r rows hr hrows, .same _ ?_, .none⟩
      split <;> rfl
    | graceMark w =>
      refine .some ⟨?_, .same _ rfl, .none⟩
      refine ite_rel (fun _ => ?_) fun _ => ?_
      · exact .intro r _ hr (hrows.markWorkloadDisconnected w _)
      · exact .intro r rows hr hrows
    | lookingUp uid =>
      refine .some ⟨.intro r rows hr hrows, .same _ ?_, .none⟩
      cases σ.conns uid <;> rfl
    | acquiring s =>
      refine .some ⟨.intro r rows hr hrows, .same _ ?_, .none⟩
      cases (σ.tokens.acquire s c.now).2 <;> rfl
    | sent l failed =>
      refine .some ⟨.intro r rows hr hrows, .same _ ?_, .none⟩
      cases failed <;> rfl
    | sending | autoPush => exact .some ⟨.intro r rows hr hrows, .same _ rfl, .none⟩
    | arriving | handler => cases hnot

theorem arrive_alike (σ σ' : Shared) (e e' : Event) (hσ : σ.Alike σ') (he : e.Alike e') :
    Option.Rel (fun m m' => m.1.Alike m'.1 ∧ Option.Rel Thread.Alike m.2 m'.2) (arrive σ e)
      (arrive σ' e') := by
  cases he with
  | message s sameConn hmsg => exact .some ⟨hσ, .some (.arriving s sameConn hmsg)⟩
  | same e =>
    obtain ⟨r, rows, hr, hrows⟩ := hσ
    have hσ : σ.Alike { σ with registry := r, rows := rows } := .intro r rows hr hrows
    cases e with
    | connect s now =>
      exact ite_rel (fun _ => .none) fun _ => .some ⟨.intro r rows hr hrows, .none⟩
    | message s msg sameConn => exact .some ⟨hσ, .some (.arriving s sameConn (.refl msg))⟩
    | close | onDisabled => exact ite_rel (fun _ => .some ⟨hσ, .some (.same _ rfl)⟩) fun _ => .none
    | send uid => exact .some ⟨hσ, .some (.same _ rfl)⟩
    | tokens a =>
      refine ite_rel (fun _ => rel_map (tokens_rel _) ?_) fun _ => .none
      rintro m _ rfl
      exact ⟨.intro r rows hr hrows, .none⟩
    | fire w id =>
      refine .some ⟨.intro r rows hr hrows, ?_⟩
      exact ite_rel (fun _ => .some (.same _ rfl)) fun _ => .none
    | janitor now => exact .some ⟨.intro r _ hr (hrows.archiveExpiredWorkloads now), .none⟩
    | stopGrace => exact .some ⟨.intro r rows hr hrows, .none⟩
    | stopTokens =>
      exact ite_rel (fun _ => .some ⟨.intro r rows hr hrows, .none⟩) fun _ => .none

theorem step_alike (p q : State) (a b : Action) (hpq : p.Alike q) (hab : a.Alike b) :
    Option.Rel State.Alike (step p a) (step q b) :=
  Pool.Program.step_rel resume_alike arrive_alike p q a b hpq hab

end Steps

/-- The trusted labels of each stored row. -/
def Workloads.trustedLabels (rows : Workloads) (w : String) : Option Attrs :=
  (rows w).map fun row => Server.trustedLabels row.labels

theorem Workloads.Alike.trustedLabels {rows rows' : Workloads} (h : rows.Alike rows') (w : String) :
    rows.trustedLabels w = rows'.trustedLabels w := by
  have hw := h w
  unfold Workloads.trustedLabels
  generalize rows w = x, rows' w = y at hw
  cases hw with
  | none => rfl
  | some hab => exact congrArg some hab.trustedLabels

theorem Workloads.Alike.isPushTarget {rows rows' : Workloads} (h : rows.Alike rows')
    {groupID : String} {sel : PushGroupSelector} (hgroup : groupID ≠ "") (htypes : sel.types = [])
    (hversions : sel.versions = []) (hcaps : sel.capabilities = []) (w : String) :
    rows.isPushTarget groupID sel w = rows'.isPushTarget groupID sel w := by
  have hw := h w
  unfold Workloads.isPushTarget
  generalize rows w = x, rows' w = y at hw
  cases hw with
  | none => rfl
  | some hab =>
    have harch := hab.field archivedAt fun _ => rfl
    have hmatch := matchesPushSelector_congr htypes hversions hcaps hab.trustedLabels
    simp [hgroup, harch, hmatch]

theorem trusted_selector_noninterference {retention : Time} {rows : Workloads}
    {as bs : List Action} (hshape : List.Forall₂ Action.Alike as bs) :
    (∀ n p, run step (initial retention rows) (as.take n) = some p →
      ∃ q, run step (initial retention rows) (bs.take n) = some q ∧
        (∀ w, p.shared.rows.trustedLabels w = q.shared.rows.trustedLabels w) ∧
        ∀ groupID sel, groupID ≠ "" → sel.types = [] → sel.versions = [] → sel.capabilities = [] →
          ∀ w, p.shared.rows.isPushTarget groupID sel w =
            q.shared.rows.isPushTarget groupID sel w) ∧
    ∀ (rows : Workloads) (sel : PushGroupSelector) (kv : String × String), kv ∈ sel.matchLabels →
      hasPrefix kv.1 trustedSelectorLabelPrefix = true →
        ∀ w, rows.isPushTarget "" sel w = false := by
  constructor
  · intro n p hp
    have hinit : State.Alike (initial retention rows) (initial retention rows) :=
      ⟨.refl _, .nil⟩
    have hrel := run_rel step_alike hinit (List.forall₂_take n hshape)
    rw [hp] at hrel
    generalize run step (initial retention rows) (bs.take n) = y at hrel
    cases hrel with
    | some hpq =>
      have hrows := hpq.shared.rows
      exact ⟨_, rfl, hrows.trustedLabels, fun _ _ hgroup htypes hversions hcaps =>
        hrows.isPushTarget hgroup htypes hversions hcaps⟩
  · intro rows sel kv hmem hpre w
    cases hrow : rows w with
    | none => simp [Workloads.isPushTarget, hrow]
    | some row => simp [Workloads.isPushTarget, hrow, matchesPushSelector_trusted hmem hpre row]

/-- The instance `7` on the host `n1` describes itself with more attributes. -/
def describes (more : List (String × String)) : List Action :=
  let a : Session := ⟨0, "t", none⟩
  [.arrive (.connect a 10),
    .arrive (.message a { hostHandler.msg with
      agentDescription := some ⟨[("host.name", "n1")], more⟩ } true)] ++
    List.replicate 19 (.resume 0 ⟨10, true, true, .delivered⟩)

/-- An agent that claims a trusted label has the trusted labels of one that does not. -/
theorem trusted_selector_noninterference_forged :
    ∃ p q, run step (initial 0 fun _ => some (departedRow none))
        ((describes [("otel.magnify/selector.env", "staging")]).take 21) = some p ∧
      run step (initial 0 fun _ => some (departedRow none)) ((describes []).take 21) = some q ∧
      p.shared.rows.trustedLabels (hash24 "host||n1") =
        q.shared.rows.trustedLabels (hash24 "host||n1") ∧
      q.shared.rows.isPushTarget "g" { matchLabels := [("env", "prod")] } (hash24 "host||n1") =
        true := by
  obtain ⟨p, hp, htarget⟩ : ∃ p, run step (initial 0 fun _ => some (departedRow none))
        ((describes [("otel.magnify/selector.env", "staging")]).take 21) = some p ∧
      p.shared.rows.isPushTarget "g" { matchLabels := [("env", "prod")] } (hash24 "host||n1") =
        true := by
    decide +kernel
  have hshape : List.Forall₂ Action.Alike (describes [("otel.magnify/selector.env", "staging")])
      (describes []) := by
    refine .cons (.arrive (.same _)) (.cons (.arrive (.message _ _ ?_)) ?_)
    · exact .described _ ⟨[("host.name", "n1")], []⟩ rfl (by decide +kernel)
    · exact List.forall₂_same.mpr fun a ha => by
        rw [List.eq_of_mem_replicate ha]
        exact .resume _ _
  obtain ⟨q, hq, hlabels, hsame⟩ := (trusted_selector_noninterference hshape).1 21 p hp
  refine ⟨p, q, hp, hq, hlabels _, ?_⟩
  rw [← hsame "g" { matchLabels := [("env", "prod")] } (by decide) rfl rfl rfl]
  exact htarget

end OtelMagnify.Server
