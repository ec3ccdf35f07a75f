import OtelMagnify.Lib.KeyedTable
import OtelMagnify.Push.Hydrate
import Mathlib.Data.List.Sort

/-! The `audit_outbox` table and the statements of `internal/store/audit_outbox.go`: events wait
for delivery, a claim leases one of them to a delivery attempt, and the attempt ends by an
acknowledgement or by a new due time. -/
namespace OtelMagnify.Audit
open Push (Time)

structure AuditEvent where
  eventID : String
  occurredAt : Time
  action : String
  userID : String
  email : String
  resource : String
  resourceID : String
  detail : String
  deriving DecidableEq, Repr

/-- `claim_token` and `lease_until`: both are null or neither is. -/
structure Claim where
  token : String
  leaseUntil : Time
  deriving DecidableEq, Repr

/-- A row of `audit_outbox`; a delivered event is not claimed. -/
structure OutboxRow where
  event : AuditEvent
  attemptCount : ℕ
  nextAttemptAt : Time
  claim : Option Claim
  deliveredAt : Option Time
  claim_of_delivered : deliveredAt.isSome = true → claim = none
  deriving DecidableEq, Repr

def OutboxRow.eventID (r : OutboxRow) : String := r.event.eventID

def OutboxRow.ofEvent (event : AuditEvent) : OutboxRow where
  event := event
  attemptCount := 0
  nextAttemptAt := event.occurredAt
  claim := none
  deliveredAt := none
  claim_of_delivered := by simp

abbrev Outbox := KeyedTable OutboxRow.eventID

structure PendingAuditEvent where
  event : AuditEvent
  attemptCount : ℕ
  claimToken : String
  leaseUntil : Time
  deriving DecidableEq, Repr

/-- Whether `uuid.Parse` accepts the text and prints it unchanged. -/
def isCanonicalUUID (value : String) : Bool :=
  value.toList.length = 36 && value.toList.zipIdx.all fun c =>
    if c.2 ∈ [8, 13, 18, 23] then c.1 = '-' else c.1.isDigit || ('a' ≤ c.1 && c.1 ≤ 'f')

/-- `validateUTCTime`; every time is in UTC. -/
def validateUTCTime (name : String) (value : Time) : Except String Unit :=
  if value = 0 then .error (name ++ " must not be zero") else .ok ()

def validateClaim (claimToken : String) (now leaseUntil : Time) : Except String Unit := do
  if isCanonicalUUID claimToken = false then throw "claim token must be a canonical UUID"
  validateUTCTime "now" now
  validateUTCTime "lease_until" leaseUntil
  if leaseUntil ≤ now then throw "lease_until must be after now"

def validateOutboxCompletion (eventID claimToken : String) (completedAt : Time) :
    Except String Unit := do
  if isCanonicalUUID eventID = false then throw "event_id must be a canonical UUID"
  if isCanonicalUUID claimToken = false then throw "claim_token must be a canonical UUID"
  validateUTCTime "completed_at" completedAt

namespace OutboxRow

/-- The `WHERE` of the candidates of a claim. -/
def isDue (r : OutboxRow) (now : Time) : Bool :=
  r.deliveredAt = none && r.nextAttemptAt ≤ now && r.claim.all (·.leaseUntil ≤ now)

/-- `ORDER BY next_attempt_at, occurred_at, event_id` -/
def dueBefore (a b : OutboxRow) : Prop :=
  a.nextAttemptAt < b.nextAttemptAt ∨ a.nextAttemptAt = b.nextAttemptAt ∧
    (a.event.occurredAt < b.event.occurredAt ∨
      a.event.occurredAt = b.event.occurredAt ∧ a.eventID ≤ b.eventID)

instance : DecidableRel dueBefore := fun _ _ => inferInstanceAs (Decidable (_ ∨ _ ∧ (_ ∨ _ ∧ _)))

/-- The `SET` of a claim. -/
def leased (r : OutboxRow) (c : Claim) : OutboxRow :=
  if h : r.deliveredAt = none then
    { r with
      claim := some c, attemptCount := r.attemptCount + 1, claim_of_delivered := by simp [h] }
  else r

/-- The `WHERE` of an acknowledgement and of a reschedule. -/
def isHeld (eventID claimToken : String) (completedAt : Time) (r : OutboxRow) : Bool :=
  r.eventID = eventID && r.deliveredAt = none &&
    r.claim.any fun c => c.token = claimToken && completedAt < c.leaseUntil

def delivered (completedAt : Time) (r : OutboxRow) : OutboxRow :=
  { r with deliveredAt := some completedAt, claim := none, claim_of_delivered := by simp }

def rescheduled (nextAttemptAt : Time) (r : OutboxRow) : OutboxRow :=
  { r with nextAttemptAt := nextAttemptAt, claim := none, claim_of_delivered := by simp }

@[simp] theorem eventID_leased (r : OutboxRow) (c : Claim) : (r.leased c).eventID = r.eventID := by
  unfold leased
  split <;> rfl

@[simp] theorem eventID_delivered (completedAt : Time) (r : OutboxRow) :
    (r.delivered completedAt).eventID = r.eventID := rfl

@[simp] theorem eventID_rescheduled (nextAttemptAt : Time) (r : OutboxRow) :
    (r.rescheduled nextAttemptAt).eventID = r.eventID := rfl

theorem event_leased (r : OutboxRow) (c : Claim) : (r.leased c).event = r.event := by
  unfold leased
  split <;> rfl

/-- An undelivered event is due at every late enough time. -/
theorem eventually_isDue {r : OutboxRow} (h : r.deliveredAt = none) :
    ∃ since, ∀ now, since ≤ now → r.isDue now = true := by
  cases hc : r.claim with
  | none => exact ⟨r.nextAttemptAt, fun now hnow => by simp [isDue, h, hc, hnow]⟩
  | some c =>
    refine ⟨max r.nextAttemptAt c.leaseUntil, fun now hnow => ?_⟩
    have hnext : r.nextAttemptAt ≤ now := le_trans (le_max_left _ _) hnow
    have hlease : c.leaseUntil ≤ now := le_trans (le_max_right _ _) hnow
    simp [isDue, h, hc, hnext, hlease]

end OutboxRow

namespace Outbox

/-- The candidate of a claim. Rows that other transactions have locked are skipped. -/
def candidate (o : Outbox) (now : Time) (locked : List String) : Option OutboxRow :=
  ((o.rows.filter fun r => r.isDue now && r.eventID ∉ locked).insertionSort
    OutboxRow.dueBefore).head?

def claimAuditOutboxEvent (o : Outbox) (claimToken : String) (now leaseUntil : Time)
    (locked : List String) : Except String (Outbox × Option PendingAuditEvent) :=
  match validateClaim claimToken now leaseUntil with
  | .error e => .error ("claim audit outbox event: " ++ e)
  | .ok () =>
    match o.candidate now locked with
    | none => .ok (o, none)
    | some r =>
      .ok (o.update (·.eventID = r.eventID) (·.leased ⟨claimToken, leaseUntil⟩)
          fun q => q.eventID_leased _,
        some
          { event := r.event
            attemptCount := r.attemptCount + 1
            claimToken := claimToken
            leaseUntil := leaseUntil })

/-- The update that ends the claim, and whether it affects a row. -/
def complete (o : Outbox) (eventID claimToken : String) (completedAt : Time)
    (set : OutboxRow → OutboxRow) (hset : ∀ r, (set r).eventID = r.eventID) : Outbox × Bool :=
  (o.update (OutboxRow.isHeld eventID claimToken completedAt) set hset,
    o.rows.any (OutboxRow.isHeld eventID claimToken completedAt))

def markAuditOutboxEventDelivered (o : Outbox) (eventID claimToken : String)
    (completedAt : Time) : Except String (Outbox × Bool) :=
  match validateOutboxCompletion eventID claimToken completedAt with
  | .error e => .error ("mark audit outbox event delivered: " ++ e)
  | .ok () =>
    .ok (o.complete eventID claimToken completedAt (OutboxRow.delivered completedAt)
      (OutboxRow.eventID_delivered completedAt))

def validateReschedule (eventID claimToken : String) (completedAt nextAttemptAt : Time) :
    Except String Unit := do
  validateOutboxCompletion eventID claimToken completedAt
  validateUTCTime "next_attempt_at" nextAttemptAt
  if nextAttemptAt < completedAt then throw "next_attempt_at must not precede completed_at"

def rescheduleAuditOutboxEvent (o : Outbox) (eventID claimToken : String)
    (completedAt nextAttemptAt : Time) : Except String (Outbox × Bool) :=
  match validateReschedule eventID claimToken completedAt nextAttemptAt with
  | .error e => .error ("reschedule audit outbox event: " ++ e)
  | .ok () =>
    .ok (o.complete eventID claimToken completedAt (OutboxRow.rescheduled nextAttemptAt)
      (OutboxRow.eventID_rescheduled nextAttemptAt))

theorem candidate_spec {o : Outbox} {now : Time} {locked : List String} {r : OutboxRow}
    (h : o.candidate now locked = some r) : r ∈ o.rows ∧ r.isDue now = true := by
  have hmem := List.mem_of_mem_head? (Option.mem_def.mpr h)
  rw [List.mem_insertionSort, List.mem_filter, Bool.and_eq_true] at hmem
  exact ⟨hmem.1, hmem.2.1⟩

end Outbox

end OtelMagnify.Audit
