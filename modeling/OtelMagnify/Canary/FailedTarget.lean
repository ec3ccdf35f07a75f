import OtelMagnify.Canary.Handlers

/-! A failed target blocks promotion. A report stops the canary in one transaction; only the copy
of a GET or a promote that was read before the report can bring it back. -/
namespace OtelMagnify.Canary
open Push (Time Report)
open StepSystem

def hasFailed (reports : List (String × Report)) : Bool := reports.any (·.2 = .failed)

theorem hasFailed_append (l l' : List (String × Report)) :
    hasFailed (l ++ l') = (hasFailed l || hasFailed l') := List.any_append ..

theorem hasFailed_take_mono {l : List (String × Report)} {m n : ℕ} (hmn : m ≤ n)
    (h : hasFailed (l.take m) = true) : hasFailed (l.take n) = true := by
  obtain ⟨r, hr, hf⟩ := List.any_eq_true.mp h
  exact List.any_eq_true.mpr ⟨r, (List.take_subset_take_left l hmn) hr, hf⟩

variable {σ σ' : Shared} {op : Op} {stage stage' : Stage} {c : Choice} {canary : CanaryStatus}

theorem reports_store (σ : Shared) (ok : Bool) (canary : CanaryStatus)
    (reason : Option StopReason) : (σ.store ok canary reason).reports = σ.reports := by
  unfold Shared.store
  split <;> rfl

/-- A copy that `loadCanaryWithHealth` holds: it is not active if a failed report came before it
was read. -/
structure Loaded (σ : Shared) (op : Op) (canary : CanaryStatus) (seen : ℕ) : Prop where
  began : op.began ≤ seen
  bound : seen ≤ (σ.reports canary.id).length
  failed : hasFailed ((σ.reports canary.id).take seen) = true → canary.status.isActive = false

/-- A promote that goes on began when no target had failed. -/
structure Unfailed (σ : Shared) (op : Op) (canary : CanaryStatus) : Prop where
  began : op.began ≤ (σ.reports canary.id).length
  failed : hasFailed ((σ.reports canary.id).take op.began) = false

def Ok (σ : Shared) (t : Thread) : Prop :=
  match t.stage with
  | .reading _ id => t.op.began ≤ (σ.reports id).length
  | .examining canary seen => Loaded σ t.op canary seen
  | .refreshing canary seen _ => Loaded σ t.op canary seen ∧ canary.status ≠ .running
  | .fetching canary | .promoting canary _ => Unfailed σ t.op canary
  | .storing canary _ _ _ => canary.status.isActive = false
  | _ => True

/-- A canary with a failed report is not active, and no promote that began after it has pushed. -/
structure Inv (σ : Shared) : Prop where
  stopped : ∀ id row, σ.canaries.get? id = some row → hasFailed (σ.reports id) = true →
    row.status.isActive = false
  unknown : ∀ id, σ.canaries.get? id = none → σ.reports id = []
  pushes : ∀ m ∈ σ.pushes, m.began ≤ (σ.reports m.canaryID).length ∧
    hasFailed ((σ.reports m.canaryID).take m.began) = false

theorem Loaded.afterLoad {seen : ℕ} (h : Loaded σ op canary seen) :
    Ok σ ⟨op, op.afterLoad canary⟩ := by
  cases op with
  | promote began =>
    simp only [Op.afterLoad]
    split
    · trivial
    next hsucc =>
    split
    · trivial
    split
    · trivial
    refine ⟨h.began.trans h.bound, ?_⟩
    by_contra hfailed
    have hnot := h.failed (hasFailed_take_mono h.began (Bool.not_eq_false _ ▸ hfailed))
    rw [not_not.mp hsucc] at hnot
    cases hnot
  | _ => trivial

theorem Loaded.withHealth {seen : ℕ} (h : Loaded σ op canary seen) (instances : List Instance)
    (alert : Bool) (now : Time) :
    Loaded σ op (canary.withHealth instances alert now).1 seen := by
  refine ⟨h.began, ?_, fun hfailed => ?_⟩
  · rw [CanaryStatus.id_withHealth]
    exact h.bound
  · rw [CanaryStatus.id_withHealth] at hfailed
    by_contra hactive
    rw [Bool.not_eq_false] at hactive
    have hsame := CanaryStatus.status_withHealth_of_isActive _ _ _ _ hactive
    rw [hsame, h.failed hfailed] at hactive
    cases hactive

theorem Inv.store {ok : Bool} {reason : Option StopReason} (hI : Inv σ)
    (h : hasFailed (σ.reports canary.id) = true → canary.status.isActive = false) :
    Inv (σ.store ok canary reason) := by
  unfold Shared.store
  split
  · refine ⟨fun id row hrow hfailed => ?_, fun id hnone => ?_, hI.pushes⟩
    · rw [Canaries.get?_updateCanaryStatus] at hrow
      obtain ⟨old, hold, rfl⟩ := Option.map_eq_some_iff.mp hrow
      split
      · next hsel =>
        have hid : old.id = canary.id := by
          simp only [Bool.and_eq_true, decide_eq_true_eq] at hsel
          exact hsel.1
        have hkey := (KeyedTable.get?_eq_some_iff.mp hold).2
        exact h (by rw [← hid, hkey]; exact hfailed)
      · exact hI.stopped id old hold hfailed
    · rw [Canaries.get?_updateCanaryStatus, Option.map_eq_none_iff] at hnone
      exact hI.unknown id hnone
  · exact hI

theorem Inv.create {rows : Canaries} (hI : Inv σ)
    (h : Canaries.createCanaryStatus σ.canaries canary = some rows) :
    Inv { σ with canaries := rows } := by
  refine ⟨fun id row hrow hfailed => ?_, fun id hnone => ?_, hI.pushes⟩
  · cases hold : σ.canaries.get? id with
    | none =>
      -- the canary is new, so it has received no report
      have hreports : Shared.reports { σ with canaries := rows } id = [] := hI.unknown id hold
      rw [hreports] at hfailed
      cases hfailed
    | some old =>
      cases (KeyedTable.get?_of_insert h hold).symm.trans hrow
      exact hI.stopped id row hold hfailed
  · exact hI.unknown id (KeyedTable.get?_eq_none_of_insert h hnone)

/-- No failed report has come since the canary was read, if the copy that is written back has
succeeded. -/
def isInOrder (σ : Shared) (stage : Stage) (c : Choice) : Bool :=
  match stage with
  | .refreshing canary seen _ =>
    !c.ok || canary.status ≠ .succeeded || !hasFailed ((σ.reports canary.id).drop seen)
  | _ => true

/-- The write-back of a copy that is in order. -/
theorem Inv.refresh {seen : ℕ} {reason : Option StopReason} (hI : Inv σ)
    (hl : Loaded σ op canary seen) (hrun : canary.status ≠ .running)
    (hG : isInOrder σ (.refreshing canary seen reason) c = true) :
    Inv (σ.store c.ok canary reason) := by
  cases hok : c.ok with
  | false => exact hI
  | true =>
    refine hI.store fun hfailed => ?_
    rw [← List.take_append_drop seen (σ.reports canary.id), hasFailed_append,
      Bool.or_eq_true] at hfailed
    rcases hfailed with hbefore | hsince
    · exact hl.failed hbefore
    · simp only [isInOrder, hok, hsince, Bool.not_true, Bool.false_or, Bool.or_false,
        decide_eq_true_eq] at hG
      cases hs : canary.status with
      | running => exact absurd hs hrun
      | succeeded => exact absurd hs hG
      | _ => rfl

theorem advance_reports (h : advance σ op stage c = some (σ', stage')) :
    σ'.reports = σ.reports := by
  cases advance_writes h with
  | refresh | store => exact reports_store ..
  | _ => rfl

/-- Reports are only added. -/
def Grows (σ σ' : Shared) : Prop := ∀ id, σ.reports id <+: σ'.reports id

theorem Grows.take_eq (h : Grows σ σ') {id : String} {n : ℕ} (hn : n ≤ (σ.reports id).length) :
    (σ'.reports id).take n = (σ.reports id).take n := by
  obtain ⟨l, hl⟩ := h id
  rw [← hl, List.take_append_of_le_length hn]

theorem Grows.length_le (h : Grows σ σ') (id : String) :
    (σ.reports id).length ≤ (σ'.reports id).length := (h id).length_le

theorem Ok.grows {t : Thread} (ht : Ok σ t) (h : Grows σ σ') : Ok σ' t := by
  have hloaded : ∀ {canary seen}, Loaded σ t.op canary seen → Loaded σ' t.op canary seen := by
    rintro canary seen ⟨hbegan, hbound, hfailed⟩
    exact ⟨hbegan, hbound.trans (h.length_le _), (h.take_eq hbound).symm ▸ hfailed⟩
  have hunfailed : ∀ {canary}, Unfailed σ t.op canary → Unfailed σ' t.op canary := by
    rintro canary ⟨hbegan, hfailed⟩
    exact ⟨hbegan.trans (h.length_le _), (h.take_eq hbegan).symm ▸ hfailed⟩
  obtain ⟨op, stage⟩ := t
  cases stage with
  | reading w id => exact Nat.le_trans ht (h.length_le id)
  | examining => exact hloaded ht
  | refreshing => exact ⟨hloaded ht.1, ht.2⟩
  | fetching | promoting => exact hunfailed ht
  | storing => exact ht
  | _ => trivial

theorem ok_afterRead {w id : String} (hI : Inv σ) (hbegan : op.began ≤ (σ.reports id).length)
    (h : Canaries.getCanaryStatus σ.canaries w id = some canary) (now : Time) :
    Ok σ ⟨op, op.afterRead canary (σ.reports id).length now⟩ := by
  obtain ⟨row, hrow, -, rfl⟩ := Canaries.getCanaryStatus_eq_some h
  have hid : row.recount.id = id := (KeyedTable.get?_eq_some_iff.mp hrow).2
  have hloaded : Loaded σ op row.recount (σ.reports id).length := by
    refine ⟨hbegan, by rw [hid], fun hfailed => ?_⟩
    rw [hid, List.take_length] at hfailed
    exact hI.stopped id row hrow hfailed
  cases op with
  | abort => exact rfl
  | rollback => trivial
  | _ => exact hloaded

theorem Ok.advance (hI : Inv σ) (ht : Ok σ ⟨op, stage⟩)
    (h : advance σ op stage c = some (σ', stage')) : Ok σ ⟨op, stage'⟩ := by
  cases stage with
  | creating =>
    simp only [Canary.advance] at h
    split at h <;> cases h <;> trivial
  | starting canary rest =>
    cases rest with
    | nil =>
      cases h
      trivial
    | cons uid rest =>
      cases h
      cases c.pushError with
      | none => trivial
      | some e => exact rfl
  | reading w id =>
    cases h
    split
    · split
      · next canary hget => exact ok_afterRead hI ht hget _
      · trivial
    · trivial
  | examining canary seen =>
    cases h
    have hchecked := Loaded.withHealth ht c.instances
      (c.ok && decide (canary.workloadID ∈ σ.alerts)) c.now
    split
    · next hchanged =>
      exact ⟨hchecked, CanaryStatus.status_ne_running_of_changed _ _ _ _ hchanged⟩
    · exact hchecked.afterLoad
  | refreshing canary seen reason =>
    cases h
    exact ht.1.afterLoad
  | fetching canary =>
    cases h
    split
    · exact ht
    · trivial
  | promoting canary rest =>
    cases rest with
    | nil =>
      cases h
      exact rfl
    | cons uid rest =>
      cases h
      cases c.pushError with
      | none => exact ht
      | some e => exact rfl
  | restoring canary =>
    cases h
    split <;> trivial
  | rollingBack canary rest =>
    cases rest with
    | nil =>
      cases h
      exact rfl
    | cons uid rest =>
      cases h
      cases c.pushError with
      | none => trivial
      | some e => exact rfl
  | storing =>
    cases h
    trivial
  | returned => cases h

theorem Inv.advance (hI : Inv σ) (ht : Ok σ ⟨op, stage⟩) (hG : isInOrder σ stage c = true)
    (h : advance σ op stage c = some (σ', stage')) : Inv σ' := by
  cases advance_writes h with
  | nothing => exact hI
  | create canary rows hrows => exact hI.create hrows
  | refresh => exact hI.refresh ht.1 ht.2 hG
  | store => exact hI.store fun _ => ht
  | push canary uid rest =>
    refine ⟨hI.stopped, hI.unknown, fun m hm => ?_⟩
    rcases List.mem_append.mp hm with hm | hm
    · exact hI.pushes m hm
    · rw [List.mem_singleton.mp hm]
      exact ⟨ht.began, ht.failed⟩

/-- A report of a target stops an active canary if it is a failure. -/
theorem Inv.stopped_report {w configID uid id : String} {r : Report} {row : CanaryStatus}
    (hI : Inv σ) (hrow : σ.canaries.get? id = some row) (now : Time)
    (hfailed : hasFailed (if row.isFor w configID uid then σ.reports id ++ [(uid, r)]
      else σ.reports id) = true) :
    (if row.status.isActive && row.isFor w configID uid then row.report uid r now
      else row).status.isActive = false := by
  cases hactive : row.status.isActive with
  | false => exact hactive
  | true =>
    have hquiet : hasFailed (σ.reports id) = false := by
      by_contra hbefore
      rw [hI.stopped id row hrow (Bool.not_eq_false _ ▸ hbefore)] at hactive
      cases hactive
    cases hfor : row.isFor w configID uid with
    | false =>
      rw [hfor, if_neg Bool.false_ne_true, hquiet] at hfailed
      cases hfailed
    | true =>
      rw [hfor, if_pos rfl, hasFailed_append, hquiet, Bool.false_or] at hfailed
      have hr : r = .failed := by simpa [hasFailed] using hfailed
      have htarget : row.hasTarget uid = true := (Bool.and_eq_true_iff.mp hfor).2
      rw [Bool.and_self, if_pos rfl, hr, CanaryStatus.status_report_failed htarget]
      rfl

theorem Inv.report {w configID uid : String} {r : Report} {now : Time} (hI : Inv σ)
    (h : arrive σ (.report w configID uid r now) = some (σ', none)) : Inv σ' ∧ Grows σ σ' := by
  cases h
  have hgrows : ∀ id, σ.reports id <+: (if (σ.canaries.get? id).any (·.isFor w configID uid) = true
      then σ.reports id ++ [(uid, r)] else σ.reports id) := by
    intro id
    split
    · exact List.prefix_append ..
    · exact List.prefix_rfl
  refine ⟨⟨fun id row hrow hfailed => ?_, fun id hnone => ?_, fun m hm => ?_⟩, hgrows⟩
  · rw [Canaries.get?_updateCanaryTargetStatus] at hrow
    obtain ⟨old, hold, rfl⟩ := Option.map_eq_some_iff.mp hrow
    simp only [hold, Option.any_some] at hfailed
    exact hI.stopped_report hold now hfailed
  · rw [Canaries.get?_updateCanaryTargetStatus, Option.map_eq_none_iff] at hnone
    simp only [hnone, Option.any_none, Bool.false_eq_true, if_false]
    exact hI.unknown id hnone
  · obtain ⟨hbegan, hfailed⟩ := hI.pushes m hm
    obtain ⟨l, hl⟩ := hgrows m.canaryID
    simp only [← hl, List.take_append_of_le_length hbegan, List.length_append]
    exact ⟨Nat.le_add_right_of_le hbegan, hfailed⟩

theorem Grows.refl (σ : Shared) : Grows σ σ := fun _ => List.prefix_rfl

theorem Inv.arrive {e : Event} {new : Option Thread} (hI : Inv σ)
    (h : arrive σ e = some (σ', new)) : Inv σ' ∧ Grows σ σ' ∧ ∀ n ∈ new, Ok σ' n := by
  cases e with
  | report w configID uid r now =>
    have hnew : new = none := by
      cases h
      rfl
    subst hnew
    obtain ⟨hI', hgrows⟩ := hI.report h
    exact ⟨hI', hgrows, by simp⟩
  | raiseAlert w | resolveAlert w =>
    cases h
    exact ⟨⟨hI.stopped, hI.unknown, hI.pushes⟩, .refl σ, by simp⟩
  | promote w id =>
    cases h
    refine ⟨hI, .refl σ, ?_⟩
    rintro n ⟨⟩
    exact Nat.le_refl _
  | start id w configHash targets now =>
    cases h
    refine ⟨hI, .refl σ, ?_⟩
    rintro n ⟨⟩
    trivial
  | get w id | abort w id | rollback w id =>
    cases h
    refine ⟨hI, .refl σ, ?_⟩
    rintro n ⟨⟩
    exact Nat.zero_le _

def orderGuards : Pool.Guards Shared Thread Choice Event where
  mover σ t c := isInOrder σ t.stage c = true

theorem grows_of_advance (h : advance σ op stage c = some (σ', stage')) : Grows σ σ' := by
  intro id
  rw [advance_reports h]

def Apart (_ _ : Thread) : Prop := True

theorem program_keeps : Pool.KeepsUnder program orderGuards Inv Ok Apart where
  symm _ _ _ := trivial
  resume σ t c σ' t' new hI ht hG hm := by
    obtain ⟨stage', h, rfl, rfl⟩ := resume_eq_some.mp hm
    exact ⟨hI.advance ht hG h, (Ok.advance hI ht h).grows (grows_of_advance h), by simp⟩
  others σ t c σ' t' new u hI ht hm hu _ _ := by
    obtain ⟨stage', h, rfl, rfl⟩ := resume_eq_some.mp hm
    exact ⟨hu.grows (grows_of_advance h), trivial, by simp⟩
  arrive σ e σ' new hI _ hm := ⟨(hI.arrive hm).1, (hI.arrive hm).2.2⟩
  arriveOthers σ e σ' new u hI hm hu _ := ⟨hu.grows (hI.arrive hm).2.1, fun _ _ => trivial⟩

/-- When a GET or a promote writes back a copy that has succeeded, no failed report of a target
has come since it read the canary. -/
def inOrder (p : State) : Action → Bool
  | .resume i c => p.threads[i]?.all fun t => isInOrder p.shared t.stage c
  | .arrive _ => true

theorem meets_of_inOrder {p : State} {a : Action} (h : inOrder p a = true) (p' : State) :
    orderGuards.Meets p p' a := by
  cases a with
  | resume i c =>
    refine ⟨fun t ht => ?_, fun _ _ => trivial⟩
    simp only [inOrder, ht, Option.all_some] at h
    exact h
  | arrive e => exact ⟨trivial, fun _ _ => trivial⟩

theorem step_holds {p p' : State} {a : Action} (h : p.Holds Inv Ok Apart)
    (ho : inOrder p a = true) (hs : step p a = some p') : p'.Holds Inv Ok Apart :=
  program_keeps.step h (meets_of_inOrder ho p') hs

theorem failed_target_blocks_promotion {canaries : Canaries} {as : List Action} {p : State}
    (hkeep : Meets step (fun p a => inOrder p a = true) (initial canaries) as)
    (hrun : run step (initial canaries) as = some p) :
    (∀ id row uid, p.shared.canaries.get? id = some row →
      (uid, .failed) ∈ p.shared.reports id → row.status ≠ .succeeded) ∧
    ∀ m ∈ p.shared.pushes, ∀ uid,
      (uid, .failed) ∉ (p.shared.reports m.canaryID).take m.began := by
  have hinit : Pool.Holds Inv Ok Apart (initial canaries) := by
    refine ⟨⟨fun id row _ h => ?_, fun _ _ => rfl, by simp [initial]⟩, by simp [initial],
      by simp [initial]⟩
    cases h
  have hp : Pool.Holds Inv Ok Apart p :=
    run_invariant_of_meets (fun _ _ _ hq ho hs => step_holds hq ho hs) hinit hkeep hrun
  constructor
  · intro id row uid hrow hmem hsucc
    have hfailed : hasFailed (p.shared.reports id) = true :=
      List.any_eq_true.mpr ⟨_, hmem, rfl⟩
    have hactive := hp.shared.stopped id row hrow hfailed
    rw [hsucc] at hactive
    cases hactive
  · intro m hm uid hmem
    have hfailed : hasFailed ((p.shared.reports m.canaryID).take m.began) = true :=
      List.any_eq_true.mpr ⟨_, hmem, rfl⟩
    rw [(hp.shared.pushes m hm).2] at hfailed
    cases hfailed

/-- A canary on two of three instances, both of which apply the config. -/
def canaryApplied : List Action :=
  [.arrive (.start "k" "w" "h" [("a", "pod-a"), ("b", "pod-b")] 1),
    .resume 0 {}, .resume 0 {}, .resume 0 {}, .resume 0 {},
    .arrive (.report "w" "h" "a" .applied 2), .arrive (.report "w" "h" "b" .applied 3)]

def healthyInstances : List Instance := [⟨"a", true, 1, true, true⟩, ⟨"b", true, 1, true, true⟩,
  ⟨"c", true, 1, true, true⟩]

/-- Instance `b` fails after all, and a promote begins. -/
def failedThenPromoted : List Action :=
  canaryApplied ++ [.arrive (.report "w" "h" "b" .failed 4), .arrive (.promote "w" "k"),
    .resume 1 {}, .resume 1 { instances := healthyInstances }]

theorem failed_target_blocks_promotion_stopped :
    ∃ p row, run step (initial .empty) failedThenPromoted = some p ∧
      ("b", .failed) ∈ p.shared.reports "k" ∧ p.shared.canaries.get? "k" = some row ∧
      row.status ≠ .succeeded := by
  have hkeep : Meets step (fun p a => inOrder p a = true) (initial .empty) failedThenPromoted := by
    decide +kernel
  obtain ⟨p, hp, hmem, hrow⟩ : ∃ p, run step (initial .empty) failedThenPromoted = some p ∧
      ("b", .failed) ∈ p.shared.reports "k" ∧ (p.shared.canaries.get? "k").isSome = true := by
    decide +kernel
  obtain ⟨row, hrow⟩ := Option.isSome_iff_exists.mp hrow
  exact ⟨p, row, hp, hmem, hrow, (failed_target_blocks_promotion hkeep hp).1 _ _ _ hrow hmem⟩

/-- A GET has read the canary and finds `a` unhealthy when `b` fails; it writes its copy back. The
next report of `a` clears the reason, and a promote that begins now pushes to `c`. -/
def staleWriteBack : List Action :=
  canaryApplied ++ [.arrive (.get "w" "k"), .resume 1 {},
    .resume 1 { instances := [⟨"a", false, 1, true, true⟩, ⟨"b", true, 1, true, true⟩] },
    .arrive (.report "w" "h" "b" .failed 4), .resume 1 {},
    .arrive (.report "w" "h" "a" .applied 5), .arrive (.promote "w" "k"), .resume 2 {},
    .resume 2 { instances := healthyInstances }, .resume 2 { instances := healthyInstances },
    .resume 2 {}]

theorem stale_copy_revives_canary :
    ∃ p row, run step (initial .empty) staleWriteBack = some p ∧
      (p.shared.reports "k").reverse.find? (·.1 = "b") = some ("b", .failed) ∧
      p.shared.canaries.get? "k" = some row ∧ row.status = .succeeded ∧
      ("b", .failed) ∈ (p.shared.reports "k").take 4 ∧ ⟨"k", 4, "c"⟩ ∈ p.shared.pushes := by
  simp only [exists_and_left]
  decide +kernel

end OtelMagnify.Canary
