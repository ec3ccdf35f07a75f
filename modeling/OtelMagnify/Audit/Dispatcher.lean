import OtelMagnify.Lib.Pool
import OtelMagnify.Audit.Outbox

/-! Delivery of the audit outbox (`internal/audit/outbox_dispatcher.go`). Any number of
dispatchers run `dispatchOnce` over one outbox; a step is one statement, one sink call or one
reading of a clock, and a dispatcher that crashes takes no more steps. -/
namespace OtelMagnify.Audit
open Push (Time)
open StepSystem

/-- Durations are in nanoseconds. -/
def second : Time := 1000000000

def auditOutboxLeaseDuration : Time := 30 * second

def auditOutboxSinkTimeout : Time := 10 * second

def auditOutboxMaxBackoff : Time := 60 * second

/-- The loop of `auditOutboxBackoff`, with the rounds that are left. -/
def auditOutboxBackoffLoop : ℕ → Time → Time
  | 0, delay => delay
  | n + 1, delay =>
    if auditOutboxMaxBackoff / 2 ≤ delay then auditOutboxMaxBackoff
    else auditOutboxBackoffLoop n (delay * 2)

def auditOutboxBackoff (attemptCount : ℤ) : Time :=
  if attemptCount ≤ 1 then second else auditOutboxBackoffLoop (attemptCount - 1).toNat second

/-- The category that `dispatchOnce` logs. -/
inductive Category where
  | claimError
  | expiredClaim
  | insufficientLease
  | sinkError
  | rescheduleError
  | staleReschedule
  | ackError
  | staleAck
  deriving DecidableEq, Repr

inductive Thread where
  | claiming (claimToken : String) (startedAt : Time)
  | starting (pending : PendingAuditEvent)
  | sinking (pending : PendingAuditEvent)
  | rescheduling (pending : PendingAuditEvent) (completedAt nextAttemptAt : Time)
      (category : Category)
  | acknowledging (pending : PendingAuditEvent) (completedAt : Time)
  | returned (progress : Bool) (category : Option Category)
  deriving DecidableEq, Repr

structure ClaimOn where
  eventID : String
  claim : Claim
  deriving DecidableEq, Repr

/-- The outbox, with its history: the claims that were made, the claim tokens that were generated,
and the sink calls that returned success, with the event and the claim token. -/
structure Shared where
  outbox : Outbox
  claims : List ClaimOn
  issued : List String
  successes : List (String × String)

/-- What the environment decides in a step: the clock, whether the call succeeds, whether a failed
statement took effect, and which rows are locked. -/
structure Choice where
  now : Time := 0
  ok : Bool := true
  effect : Bool := false
  locked : List String := []
  deriving DecidableEq, Repr

abbrev Moved := Option (Shared × Thread × Option Thread)

def PendingAuditEvent.claimOn (pending : PendingAuditEvent) : ClaimOn :=
  ⟨pending.event.eventID, ⟨pending.claimToken, pending.leaseUntil⟩⟩

def Shared.after (σ σ' : Shared) (c : Choice) : Shared := if c.ok || c.effect then σ' else σ

/-- The end of a claim by a reschedule or an acknowledgement. -/
def Shared.finish (σ : Shared) (c : Choice) (result : Except String (Outbox × Bool))
    (updated stale failed : Thread) : Moved :=
  match result with
  | .error _ => some (σ, failed, none)
  | .ok (outbox, affected) =>
    some (σ.after { σ with outbox := outbox } c,
      if !c.ok then failed else if affected then updated else stale, none)

def resume (σ : Shared) (t : Thread) (c : Choice) : Moved :=
  match t with
  | .claiming claimToken startedAt =>
    match σ.outbox.claimAuditOutboxEvent claimToken startedAt
        (startedAt + auditOutboxLeaseDuration) c.locked with
    | .error _ => some (σ, .returned false (some .claimError), none)
    | .ok (outbox, pending) =>
      some (σ.after { σ with
          outbox := outbox
          claims := σ.claims ++ (pending.map PendingAuditEvent.claimOn).toList } c,
        if !c.ok then .returned false (some .claimError)
        else (pending.map Thread.starting).getD (.returned false none), none)
  | .starting pending =>
    let deliveryStartedAt := c.now
    if pending.leaseUntil ≤ deliveryStartedAt + auditOutboxSinkTimeout then
      if pending.leaseUntil ≤ deliveryStartedAt then
        some (σ, .returned false (some .expiredClaim), none)
      else
        some (σ, .rescheduling pending deliveryStartedAt
          (deliveryStartedAt + auditOutboxBackoff pending.attemptCount) .insufficientLease, none)
    else some (σ, .sinking pending, none)
  | .sinking pending =>
    if c.ok then
      some ({ σ with successes := σ.successes ++ [(pending.event.eventID, pending.claimToken)] },
        .acknowledging pending c.now, none)
    else
      some (σ, .rescheduling pending c.now (c.now + auditOutboxBackoff pending.attemptCount)
        .sinkError, none)
  | .rescheduling pending completedAt nextAttemptAt category =>
    σ.finish c (σ.outbox.rescheduleAuditOutboxEvent pending.event.eventID pending.claimToken
        completedAt nextAttemptAt)
      (.returned true (some category)) (.returned false (some .staleReschedule))
      (.returned false (some .rescheduleError))
  | .acknowledging pending completedAt =>
    σ.finish c (σ.outbox.markAuditOutboxEventDelivered pending.event.eventID pending.claimToken
        completedAt)
      (.returned true none) (.returned false (some .staleAck)) (.returned false (some .ackError))
  | .returned _ _ => none

/-- A dispatcher starts with the time of its clock and a claim token that is new; an event is
inserted. -/
inductive Event where
  | dispatch (claimToken : String) (now : Time)
  | insert (event : AuditEvent)
  deriving DecidableEq, Repr

def arrive (σ : Shared) : Event → Option (Shared × Option Thread)
  | .dispatch claimToken now =>
    if claimToken ∈ σ.issued then none
    else some ({ σ with issued := claimToken :: σ.issued }, some (.claiming claimToken now))
  | .insert event =>
    (σ.outbox.insert (.ofEvent event)).map fun outbox => ({ σ with outbox := outbox }, none)

def program : Pool.Program Shared Thread Choice Event := ⟨resume, arrive⟩

abbrev State := Pool Shared Thread

abbrev Action := Pool.Label Choice Event

def step : State → Action → Option State := program.step

def initial : State := ⟨⟨KeyedTable.empty, [], [], []⟩, []⟩

def Shared.latestClaim (σ : Shared) (eventID : String) : Option Claim :=
  ((σ.claims.filter (·.eventID = eventID)).getLast?).map ClaimOn.claim

/-- The acknowledgement or the reschedule that the next step makes, with the time it gives. -/
def Thread.completes : Thread → Option (PendingAuditEvent × Time)
  | .rescheduling pending completedAt _ _ | .acknowledging pending completedAt =>
    some (pending, completedAt)
  | _ => none

def Outbox.isDelivered (o : Outbox) (eventID : String) : Bool :=
  (o.get? eventID).any (·.deliveredAt.isSome)

/-- The places that a goroutine reaches only in one way. -/
def Thread.isPlain : Thread → Bool
  | .claiming _ _ | .acknowledging _ _ => false
  | _ => true

variable {σ σ' : Shared} {t t' : Thread} {new : Option Thread} {c : Choice}

inductive Effect (σ : Shared) : Thread → Shared → Thread → Prop where
  | quiet (t t' : Thread) (h : t'.isPlain = true) : Effect σ t σ t'
  | succeed (pending : PendingAuditEvent) (completedAt : Time) :
      Effect σ (.sinking pending)
        { σ with successes := σ.successes ++ [(pending.event.eventID, pending.claimToken)] }
        (.acknowledging pending completedAt)
  | claim (claimToken : String) (startedAt leaseUntil : Time) (r : OutboxRow) (t' : Thread)
      (hr : r ∈ σ.outbox.rows) (hdue : r.isDue startedAt = true) (h : t'.isPlain = true) :
      Effect σ (.claiming claimToken startedAt)
        { σ with
          outbox := σ.outbox.update (·.eventID = r.eventID) (·.leased ⟨claimToken, leaseUntil⟩)
            fun q => q.eventID_leased _
          claims := σ.claims ++ [⟨r.eventID, ⟨claimToken, leaseUntil⟩⟩] } t'
  | acknowledge (pending : PendingAuditEvent) (completedAt : Time) (t' : Thread)
      (h : t'.isPlain = true) :
      Effect σ (.acknowledging pending completedAt)
        { σ with
          outbox := σ.outbox.update
            (OutboxRow.isHeld pending.event.eventID pending.claimToken completedAt)
            (OutboxRow.delivered completedAt) (OutboxRow.eventID_delivered completedAt) } t'
  | reschedule (pending : PendingAuditEvent) (completedAt nextAttemptAt : Time)
      (category : Category) (t' : Thread) (h : t'.isPlain = true) :
      Effect σ (.rescheduling pending completedAt nextAttemptAt category)
        { σ with
          outbox := σ.outbox.update
            (OutboxRow.isHeld pending.event.eventID pending.claimToken completedAt)
            (OutboxRow.rescheduled nextAttemptAt)
            (OutboxRow.eventID_rescheduled nextAttemptAt) } t'

theorem Shared.after_cases (σ σ' : Shared) (c : Choice) : σ.after σ' c = σ ∨ σ.after σ' c = σ' := by
  unfold Shared.after
  split
  · exact .inr rfl
  · exact .inl rfl

/-- A statement that ends a claim is rejected, has no effect, or updates the outbox. -/
theorem finish_cases {result : Except String (Outbox × Bool)} {updated stale failed : Thread}
    (hplain : updated.isPlain = true ∧ stale.isPlain = true ∧ failed.isPlain = true)
    (hm : σ.finish c result updated stale failed = some (σ', t', new)) :
    t'.isPlain = true ∧ new = none ∧
      (σ' = σ ∨ ∃ o, result = .ok o ∧ σ' = { σ with outbox := o.1 }) := by
  unfold Shared.finish at hm
  split at hm
  · cases hm
    exact ⟨hplain.2.2, rfl, .inl rfl⟩
  · next o affected =>
    cases hm
    refine ⟨?_, rfl, ?_⟩
    · split_ifs
      · exact hplain.2.2
      · exact hplain.1
      · exact hplain.2.1
    · rcases Shared.after_cases σ { σ with outbox := o } c with h | h
      · exact .inl h
      · exact .inr ⟨_, rfl, h⟩

theorem resume_effect (hm : resume σ t c = some (σ', t', new)) :
    Effect σ t σ' t' ∧ new = none := by
  cases t with
  | claiming claimToken startedAt =>
    simp only [resume] at hm
    split at hm
    · cases hm
      exact ⟨.quiet _ _ rfl, rfl⟩
    next outbox pending hclaim =>
    cases hm
    unfold Outbox.claimAuditOutboxEvent at hclaim
    split at hclaim
    · cases hclaim
    split at hclaim
    · cases hclaim
      have hsame : σ.after { σ with claims := σ.claims ++ [] } c = σ := by
        rw [List.append_nil]
        exact (Shared.after_cases σ σ c).elim id id
      refine ⟨hsame.symm ▸ .quiet _ _ ?_, rfl⟩
      split <;> rfl
    · next r hr =>
      cases hclaim
      obtain ⟨hmem, hdue⟩ := Outbox.candidate_spec hr
      refine ⟨?_, rfl⟩
      rcases Shared.after_cases σ _ c with h | h
      · rw [h]
        refine .quiet _ _ ?_
        split <;> rfl
      · rw [h]
        refine .claim claimToken startedAt _ r _ hmem hdue ?_
        split <;> rfl
  | starting pending =>
    simp only [resume] at hm
    split_ifs at hm <;> cases hm <;> exact ⟨.quiet _ _ rfl, rfl⟩
  | sinking pending =>
    simp only [resume] at hm
    split at hm <;> cases hm
    · exact ⟨.succeed pending c.now, rfl⟩
    · exact ⟨.quiet _ _ rfl, rfl⟩
  | rescheduling pending completedAt nextAttemptAt category =>
    obtain ⟨hplain, rfl, rfl | ⟨o, ho, rfl⟩⟩ := finish_cases ⟨rfl, rfl, rfl⟩ hm
    · exact ⟨.quiet _ _ hplain, rfl⟩
    · unfold Outbox.rescheduleAuditOutboxEvent at ho
      split at ho <;> cases ho
      exact ⟨.reschedule pending completedAt nextAttemptAt category _ hplain, rfl⟩
  | acknowledging pending completedAt =>
    obtain ⟨hplain, rfl, rfl | ⟨o, ho, rfl⟩⟩ := finish_cases ⟨rfl, rfl, rfl⟩ hm
    · exact ⟨.quiet _ _ hplain, rfl⟩
    · unfold Outbox.markAuditOutboxEventDelivered at ho
      split at ho <;> cases ho
      exact ⟨.acknowledge pending completedAt _ hplain, rfl⟩
  | returned progress category => cases hm

/-- A row keeps its event under every step, and a delivered row stays as it is and is not
claimed again. -/
def Kept (σ σ' : Shared) : Prop :=
  ∀ e row, σ.outbox.get? e = some row → ∃ row', σ'.outbox.get? e = some row' ∧
    row'.event = row.event ∧ (row.deliveredAt.isSome = true → row' = row ∧
      σ'.claims.filter (·.eventID = e) = σ.claims.filter (·.eventID = e))

variable {sel : OutboxRow → Bool} {set : OutboxRow → OutboxRow} {r : OutboxRow} {p : State}
  {e : String} {hset : ∀ r, (set r).eventID = r.eventID}

open KeyedTable

/-- An update of undelivered rows that keeps the events. -/
theorem kept_update (hevent : ∀ r, (set r).event = r.event)
    (hsel : ∀ r ∈ σ.outbox.rows, sel r = true → r.deliveredAt = none) (claims : List ClaimOn)
    (hclaims : ∀ e, claims.filter (·.eventID = e) ≠ σ.claims.filter (·.eventID = e) →
      ∀ row, σ.outbox.get? e = some row → row.deliveredAt = none) :
    Kept σ { σ with outbox := σ.outbox.update sel set hset, claims := claims } := by
  intro e row hrow
  have hmem := (get?_eq_some_iff.mp hrow).1
  refine ⟨if sel row then set row else row, ?_, ?_, fun hdone => ⟨?_, ?_⟩⟩
  · simp only [get?_update, hrow, Option.map_some]
  · split
    · exact hevent row
    · rfl
  · split
    · next hs =>
      rw [hsel row hmem hs] at hdone
      cases hdone
    · rfl
  · by_contra hne
    rw [hclaims e hne row hrow] at hdone
    cases hdone

open OutboxRow

theorem OutboxRow.deliveredAt_of_isHeld {eventID claimToken : String} {completedAt : Time}
    (h : r.isHeld eventID claimToken completedAt = true) : r.deliveredAt = none := by
  simp only [isHeld, Bool.and_eq_true, decide_eq_true_eq] at h
  exact h.1.2

theorem OutboxRow.deliveredAt_of_isDue {now : Time} (h : r.isDue now = true) :
    r.deliveredAt = none := by
  simp only [isDue, Bool.and_eq_true, decide_eq_true_eq] at h
  exact h.1.1

theorem Kept.refl (σ : Shared) : Kept σ σ := fun _ row h => ⟨row, h, rfl, fun _ => ⟨rfl, rfl⟩⟩

theorem Effect.kept (h : Effect σ t σ' t') : Kept σ σ' := by
  cases h with
  | quiet => exact .refl σ
  | succeed => exact Kept.refl σ
  | acknowledge pending completedAt | reschedule pending completedAt nextAttemptAt =>
    refine kept_update ?_ ?_ σ.claims ?_
    · exact fun _ => rfl
    · exact fun _ _ => deliveredAt_of_isHeld
    · exact fun _ hne => absurd rfl hne
  | claim claimToken startedAt leaseUntil r t' hr hdue =>
    have hnone := deliveredAt_of_isDue hdue
    refine kept_update (fun q => q.event_leased _) (fun q hq hsel => ?_) _ fun e hne row hrow => ?_
    · rw [σ.outbox.eq_of_key_eq hq hr (of_decide_eq_true hsel)]
      exact hnone
    · have he : r.eventID = e := by
        by_contra hother
        exact hne (by simp [List.filter_append, hother])
      obtain ⟨hmem, hkey⟩ := get?_eq_some_iff.mp hrow
      rw [σ.outbox.eq_of_key_eq hmem hr (hkey.trans he.symm)]
      exact hnone

theorem arrive_kept {e : Event} (hm : arrive σ e = some (σ', new)) : Kept σ σ' := by
  cases e with
  | dispatch claimToken now =>
    simp only [arrive] at hm
    split at hm <;> cases hm
    exact Kept.refl σ
  | insert event =>
    obtain ⟨outbox, hins, hm⟩ := Option.map_eq_some_iff.mp hm
    cases hm
    intro e row hrow
    refine ⟨row, ?_, rfl, fun _ => ⟨rfl, rfl⟩⟩
    obtain ⟨hmem, hkey⟩ := get?_eq_some_iff.mp hrow
    have hne : (ofEvent event).eventID ≠ e := fun he =>
      key_ne_of_insert hins row hmem (hkey.trans he.symm)
    rw [get?_insert hins, if_neg hne, hrow]

theorem step_kept {p' : State} {a : Action} (hs : step p a = some p') :
    Kept p.shared p'.shared := by
  cases a with
  | resume i c =>
    obtain ⟨t, σ', t', new, -, hm, rfl⟩ := Pool.Program.step_resume_eq_some.mp hs
    exact (resume_effect hm).1.kept
  | arrive e =>
    obtain ⟨σ', new, hm, rfl⟩ := Pool.Program.step_arrive_eq_some.mp hs
    exact arrive_kept hm

theorem Kept.trans {σ'' : Shared} (h : Kept σ σ') (h' : Kept σ' σ'') : Kept σ σ'' := by
  intro e row hrow
  obtain ⟨row', hrow', hevent, hdone⟩ := h e row hrow
  obtain ⟨row'', hrow'', hevent', hdone'⟩ := h' e row' hrow'
  refine ⟨row'', hrow'', hevent'.trans hevent, fun hd => ?_⟩
  obtain ⟨rfl, hclaims⟩ := hdone hd
  obtain ⟨rfl, hclaims'⟩ := hdone' hd
  exact ⟨rfl, hclaims'.trans hclaims⟩

theorem run_kept {q : State} {as : List Action} (h : run step p as = some q) :
    Kept p.shared q.shared :=
  run_invariant_of_meets (P := fun q => Kept p.shared q.shared)
    (fun _ _ _ hk _ hs => hk.trans (step_kept hs)) (.refl _) (meets_true step p as) h

/-- The claim of a row is the latest one on its event, and no two claims share a token. -/
structure Inv (σ : Shared) : Prop where
  latest : ∀ e row cl, σ.outbox.get? e = some row → row.claim = some cl → σ.latestClaim e = some cl
  issued : ∀ m ∈ σ.claims, m.claim.token ∈ σ.issued
  nodup : (σ.claims.map fun m => m.claim.token).Nodup

def Ok (σ : Shared) : Thread → Prop
  | .claiming claimToken _ =>
    claimToken ∈ σ.issued ∧ claimToken ∉ σ.claims.map fun m => m.claim.token
  | .acknowledging pending _ => (pending.event.eventID, pending.claimToken) ∈ σ.successes
  | _ => True

def Apart : Thread → Thread → Prop
  | .claiming claimToken _, .claiming claimToken' _ => claimToken ≠ claimToken'
  | _, _ => True

/-- An update that leaves no claim on the rows it selects. -/
theorem Inv.release (h : Inv σ) (hclaim : ∀ r, (set r).claim = none) :
    Inv { σ with outbox := σ.outbox.update sel set hset } := by
  refine ⟨fun e row cl hrow hcl => ?_, h.issued, h.nodup⟩
  rw [get?_update] at hrow
  obtain ⟨old, hold, rfl⟩ := Option.map_eq_some_iff.mp hrow
  split at hcl
  · rw [hclaim] at hcl
    cases hcl
  · exact h.latest e old cl hold hcl

theorem latestClaim_append (σ : Shared) (outbox : Outbox) (m : ClaimOn) (e : String) :
    Shared.latestClaim { σ with outbox := outbox, claims := σ.claims ++ [m] } e =
      if m.eventID = e then some m.claim else σ.latestClaim e := by
  unfold Shared.latestClaim
  by_cases he : m.eventID = e
  · simp [List.filter_append, he]
  · simp [List.filter_append, he]

theorem Inv.claim (h : Inv σ) {claimToken : String} {startedAt : Time}
    (ht : Ok σ (.claiming claimToken startedAt)) (leaseUntil : Time)
    (hr : r ∈ σ.outbox.rows) (hdue : r.isDue startedAt = true) :
    Inv { σ with
      outbox := σ.outbox.update (·.eventID = r.eventID) (·.leased ⟨claimToken, leaseUntil⟩)
        fun q => q.eventID_leased _
      claims := σ.claims ++ [⟨r.eventID, ⟨claimToken, leaseUntil⟩⟩] } := by
  refine ⟨fun e row cl hrow hcl => ?_, fun m hm => ?_, ?_⟩
  · rw [latestClaim_append]
    rw [get?_update] at hrow
    obtain ⟨old, hold, rfl⟩ := Option.map_eq_some_iff.mp hrow
    obtain ⟨hmem, hkey⟩ := get?_eq_some_iff.mp hold
    by_cases he : r.eventID = e
    · have hsame : old = r := σ.outbox.eq_of_key_eq hmem hr (hkey.trans he.symm)
      subst hsame
      rw [if_pos he]
      simpa [leased, deliveredAt_of_isDue hdue] using hcl
    · have hne : ¬ old.eventID = r.eventID := fun h' => he (h'.symm.trans hkey)
      rw [if_neg he]
      simp only [hne, decide_false, Bool.false_eq_true, if_false] at hcl
      exact h.latest e old cl hold hcl
  · rcases List.mem_append.mp hm with hm | hm
    · exact h.issued m hm
    · rw [List.mem_singleton.mp hm]
      exact ht.1
  · rw [List.map_append, List.nodup_append]
    refine ⟨h.nodup, by simp, fun a ha b hb hab => ht.2 ?_⟩
    have hb' : b = claimToken := by simpa using hb
    exact hb' ▸ hab ▸ ha

theorem Effect.inv (h : Effect σ t σ' t') (hσ : Inv σ) (ht : Ok σ t) : Inv σ' := by
  cases h with
  | quiet => exact hσ
  | succeed => exact ⟨hσ.latest, hσ.issued, hσ.nodup⟩
  | claim claimToken startedAt leaseUntil r t' hr hdue => exact hσ.claim ht leaseUntil hr hdue
  | acknowledge | reschedule => exact hσ.release fun _ => rfl

theorem ok_of_isPlain (h : t.isPlain = true) : Ok σ t := by
  cases t <;> trivial

theorem apart_of_isPlain (h : t.isPlain = true) (u : Thread) : Apart t u := by
  cases t <;> trivial

theorem Effect.ok (h : Effect σ t σ' t') : Ok σ' t' := by
  cases h with
  | succeed pending completedAt => exact List.mem_append_right _ (List.mem_singleton_self _)
  | quiet _ _ hplain | claim _ _ _ _ _ _ _ hplain
  | acknowledge _ _ _ hplain | reschedule _ _ _ _ _ hplain => exact ok_of_isPlain hplain

theorem Effect.apart (h : Effect σ t σ' t') (u : Thread) : Apart t' u := by
  cases h with
  | succeed => trivial
  | quiet _ _ hplain | claim _ _ _ _ _ _ _ hplain
  | acknowledge _ _ _ hplain | reschedule _ _ _ _ _ hplain => exact apart_of_isPlain hplain u

theorem Effect.ok_other (h : Effect σ t σ' t') {u : Thread} (hu : Ok σ u) (hne : Apart t u) :
    Ok σ' u := by
  cases h with
  | succeed =>
    cases u with
    | acknowledging pending completedAt => exact List.mem_append_left _ hu
    | _ => exact hu
  | claim claimToken startedAt leaseUntil r =>
    cases u with
    | claiming claimToken' now =>
      refine ⟨hu.1, fun hmem => ?_⟩
      rw [List.map_append, List.mem_append] at hmem
      rcases hmem with hmem | hmem
      · exact hu.2 hmem
      · exact hne (List.mem_singleton.mp hmem).symm
    | _ => exact hu
  | quiet | acknowledge | reschedule => exact hu

theorem program_keeps : Pool.Keeps program Inv Ok Apart where
  symm t u h := by
    cases t <;> cases u <;> first | exact Ne.symm h | trivial
  resume σ t c σ' t' new hσ ht hm := by
    obtain ⟨heff, rfl⟩ := resume_effect hm
    exact ⟨heff.inv hσ ht, heff.ok, by simp⟩
  others σ t c σ' t' new u hσ ht hm hu hne := by
    obtain ⟨heff, rfl⟩ := resume_effect hm
    exact ⟨heff.ok_other hu hne, heff.apart u, by simp⟩
  arrive σ e σ' new hσ hm := by
    cases e with
    | dispatch claimToken now =>
      simp only [program, arrive] at hm
      split at hm
      · cases hm
      next hfresh =>
      cases hm
      refine ⟨⟨hσ.latest, fun m hm => List.mem_cons_of_mem _ (hσ.issued m hm), hσ.nodup⟩, ?_⟩
      rintro n ⟨⟩
      refine ⟨List.mem_cons_self, fun hmem => ?_⟩
      obtain ⟨m, hm, rfl⟩ := List.mem_map.mp hmem
      exact hfresh (hσ.issued m hm)
    | insert event =>
      obtain ⟨outbox, hins, hm⟩ := Option.map_eq_some_iff.mp hm
      cases hm
      refine ⟨⟨fun e row cl hrow hcl => ?_, hσ.issued, hσ.nodup⟩, by simp⟩
      rw [get?_insert hins] at hrow
      split at hrow
      · cases hrow
        cases hcl
      · exact hσ.latest e row cl hrow hcl
  arriveOthers σ e σ' new u hσ hm hu := by
    cases e with
    | dispatch claimToken now =>
      simp only [program, arrive] at hm
      split at hm
      · cases hm
      next hfresh =>
      cases hm
      cases u with
      | claiming claimToken' now' =>
        refine ⟨⟨List.mem_cons_of_mem _ hu.1, hu.2⟩, ?_⟩
        rintro n ⟨⟩
        exact fun he => hfresh (he ▸ hu.1)
      | _ =>
        refine ⟨hu, ?_⟩
        rintro n ⟨⟩
        trivial
    | insert event =>
      obtain ⟨outbox, hins, hm⟩ := Option.map_eq_some_iff.mp hm
      cases hm
      exact ⟨by cases u <;> exact hu, by simp⟩

theorem inv_of_run {as : List Action} (h : run step initial as = some p) :
    Pool.Holds Inv Ok Apart p := by
  refine program_keeps.reachable ⟨as, h⟩ ⟨?_, by simp [initial], by simp [initial]⟩
  exact ⟨by simp [initial, get?, empty], by simp [initial], by simp [initial]⟩

theorem Effect.fenced (h : Effect σ t σ' t') (hσ : Inv σ) {pending : PendingAuditEvent}
    {completedAt : Time} (ht : t.completes = some (pending, completedAt))
    (hne : σ'.outbox.get? e ≠ σ.outbox.get? e) :
    e = pending.event.eventID ∧ ∃ cl, σ.latestClaim e = some cl ∧ cl.token = pending.claimToken ∧
      completedAt < cl.leaseUntil := by
  have hheld : ∃ row, σ.outbox.get? e = some row ∧
      row.isHeld pending.event.eventID pending.claimToken completedAt = true := by
    cases h with
    | quiet => exact absurd rfl hne
    | succeed | claim => cases ht
    | acknowledge | reschedule =>
      cases ht
      dsimp only at hne
      exact exists_of_get?_update_ne hne
  obtain ⟨row, hrow, hheld⟩ := hheld
  simp only [isHeld, Bool.and_eq_true, decide_eq_true_eq] at hheld
  obtain ⟨⟨hid, -⟩, hclaim⟩ := hheld
  obtain ⟨cl, hcl, hq⟩ := (Option.any_eq_true _ _).mp hclaim
  simp only [Bool.and_eq_true, decide_eq_true_eq] at hq
  refine ⟨?_, cl, hσ.latest e row cl hrow hcl, hq.1, hq.2⟩
  rw [← hid]
  exact (get?_eq_some_iff.mp hrow).2.symm

theorem OutboxRow.deliveredAt_leased (r : OutboxRow) (cl : Claim) :
    (r.leased cl).deliveredAt = r.deliveredAt := by
  unfold leased
  split <;> rfl

theorem OutboxRow.deliveredAt_rescheduled (nextAttemptAt : Time) (r : OutboxRow) :
    (r.rescheduled nextAttemptAt).deliveredAt = r.deliveredAt := rfl

theorem isDelivered_update {o : Outbox} (h : ∀ r, (set r).deliveredAt = r.deliveredAt)
    (e : String) : Outbox.isDelivered (o.update sel set hset) e = o.isDelivered e := by
  rw [Outbox.isDelivered, Outbox.isDelivered, get?_update, Option.any_map]
  congr 1
  funext r
  split
  · rw [h]
  · rfl

/-- Only an acknowledgement delivers an event. -/
theorem Effect.delivers (h : Effect σ t σ' t')
    (hbefore : σ.outbox.isDelivered e = false) (hafter : σ'.outbox.isDelivered e = true) :
    ∃ pending completedAt, t = .acknowledging pending completedAt ∧
      pending.event.eventID = e := by
  cases h with
  | quiet | succeed =>
    rw [hbefore] at hafter
    cases hafter
  | claim claimToken startedAt leaseUntil r =>
    rw [isDelivered_update fun q => q.deliveredAt_leased _, hbefore] at hafter
    cases hafter
  | reschedule =>
    rw [isDelivered_update (deliveredAt_rescheduled _), hbefore] at hafter
    cases hafter
  | acknowledge pending completedAt =>
    refine ⟨pending, completedAt, rfl, ?_⟩
    have hne : (σ.outbox.update
        (isHeld pending.event.eventID pending.claimToken completedAt)
        (delivered completedAt) (eventID_delivered completedAt)).get? e ≠
          σ.outbox.get? e := by
      intro hsame
      rw [Outbox.isDelivered, hsame] at hafter
      rw [Outbox.isDelivered, hafter] at hbefore
      cases hbefore
    obtain ⟨row, hrow, hheld⟩ := exists_of_get?_update_ne hne
    simp only [isHeld, Bool.and_eq_true, decide_eq_true_eq] at hheld
    rw [← hheld.1.1]
    exact (get?_eq_some_iff.mp hrow).2

theorem arrive_isDelivered {ev : Event} (hm : arrive σ ev = some (σ', new))
    (hbefore : σ.outbox.isDelivered e = false) : σ'.outbox.isDelivered e = false := by
  cases ev with
  | dispatch claimToken now =>
    simp only [arrive] at hm
    split at hm <;> cases hm
    exact hbefore
  | insert event =>
    obtain ⟨outbox, hins, hm⟩ := Option.map_eq_some_iff.mp hm
    cases hm
    unfold Outbox.isDelivered
    rw [get?_insert hins]
    split
    · rfl
    · exact hbefore

theorem audit_outbox_delivery {as : List Action} {p : State} (hrun : run step initial as = some p) :
    (∀ i c p' t pending completedAt, step p (.resume i c) = some p' → p.threads[i]? = some t →
      t.completes = some (pending, completedAt) →
        ∀ e, p'.shared.outbox.get? e ≠ p.shared.outbox.get? e →
          e = pending.event.eventID ∧ ∃ cl, p.shared.latestClaim e = some cl ∧
            cl.token = pending.claimToken ∧ completedAt < cl.leaseUntil) ∧
    (∀ a p' e, step p a = some p' → p.shared.outbox.isDelivered e = false →
      p'.shared.outbox.isDelivered e = true →
        ∃ i c pending completedAt, a = .resume i c ∧
          p.threads[i]? = some (.acknowledging pending completedAt) ∧
          pending.event.eventID = e ∧ (e, pending.claimToken) ∈ p.shared.successes) ∧
    (∀ bs q e row, run step p bs = some q → p.shared.outbox.get? e = some row →
      row.deliveredAt.isSome = true → q.shared.outbox.get? e = some row ∧
        q.shared.claims.filter (·.eventID = e) = p.shared.claims.filter (·.eventID = e)) ∧
    (∀ bs q e row, run step p bs = some q → p.shared.outbox.get? e = some row →
      ∃ row', q.shared.outbox.get? e = some row' ∧ row'.event = row.event ∧
        (row'.deliveredAt = none → ∃ since, ∀ now, since ≤ now → row'.isDue now = true)) ∧
    (p.shared.claims.map fun m => m.claim.token).Nodup := by
  have hp := inv_of_run hrun
  refine ⟨?_, ?_, ?_, ?_, hp.shared.nodup⟩
  · intro i c p' t pending completedAt hs ht hcomp e hne
    obtain ⟨u, σ', t', new, hu, hm, rfl⟩ := Pool.Program.step_resume_eq_some.mp hs
    rw [ht] at hu
    cases hu
    exact (resume_effect hm).1.fenced hp.shared hcomp hne
  · intro a p' e hs hbefore hafter
    cases a with
    | resume i c =>
      obtain ⟨t, σ', t', new, ht, hm, rfl⟩ := Pool.Program.step_resume_eq_some.mp hs
      obtain ⟨pending, completedAt, rfl, hid⟩ := (resume_effect hm).1.delivers hbefore hafter
      have hok : Ok p.shared (.acknowledging pending completedAt) :=
        hp.thread _ (List.mem_of_getElem? ht)
      exact ⟨i, c, pending, completedAt, rfl, ht, hid, hid ▸ hok⟩
    | arrive ev =>
      obtain ⟨σ', new, hm, rfl⟩ := Pool.Program.step_arrive_eq_some.mp hs
      rw [arrive_isDelivered hm hbefore] at hafter
      cases hafter
  · intro bs q e row hq hrow hdone
    obtain ⟨row', hrow', -, hsame⟩ := run_kept hq e row hrow
    obtain ⟨rfl, hclaims⟩ := hsame hdone
    exact ⟨hrow', hclaims⟩
  · intro bs q e row hq hrow
    obtain ⟨row', hrow', hevent, -⟩ := run_kept hq e row hrow
    exact ⟨row', hrow', hevent, fun hnone => eventually_isDue hnone⟩

def sampleEvent : AuditEvent where
  eventID := "00000000-0000-4000-8000-000000000001"
  occurredAt := 1
  action := "opamp.token.create"
  userID := "u1"
  email := ""
  resource := "opamp_token"
  resourceID := "00000000-0000-4000-8000-000000000002"
  detail := ""

/-- An event is inserted and claimed, and the sink takes it. -/
def sinkRun : List Action :=
  [.arrive (.insert sampleEvent),
    .arrive (.dispatch "00000000-0000-4000-8000-00000000000a" 10),
    .resume 0 {}, .resume 0 { now := 11 }, .resume 0 { now := 12 }]

theorem audit_outbox_delivery_acknowledged :
    ∃ p p', run step initial sinkRun = some p ∧ step p (.resume 0 {}) = some p' ∧
      p.shared.outbox.isDelivered sampleEvent.eventID = false ∧
      p'.shared.outbox.isDelivered sampleEvent.eventID = true ∧
      ∃ token, (sampleEvent.eventID, token) ∈ p.shared.successes := by
  obtain ⟨p, hp, hbefore, p', hp', hafter⟩ : ∃ p, run step initial sinkRun = some p ∧
      p.shared.outbox.isDelivered sampleEvent.eventID = false ∧
        ∃ p', step p (.resume 0 {}) = some p' ∧
          p'.shared.outbox.isDelivered sampleEvent.eventID = true := by
    decide +kernel
  obtain ⟨-, hack, -⟩ := audit_outbox_delivery hp
  obtain ⟨-, -, pending, -, -, -, -, hsuccess⟩ := hack _ p' _ hp' hbefore hafter
  exact ⟨p, p', hp, hp', hbefore, hafter, pending.claimToken, hsuccess⟩

end OtelMagnify.Audit
