import OtelMagnify.Audit.Dispatcher
import Mathlib.Algebra.Order.Ring.Int

/-! How long a failed delivery waits: `auditOutboxBackoff` doubles a second up to a minute. -/
namespace OtelMagnify.Audit
open Push (Time)
open StepSystem

/-- An `int` or a `time.Duration`, both of 64 bits; `none` is an overflow. -/
def int64? (x : ℤ) : Option ℤ := if -2 ^ 63 ≤ x ∧ x < 2 ^ 63 then some x else none

/-- The loop of `auditOutboxBackoff` with its counter, every result checked for an overflow. -/
def auditOutboxBackoffLoop? : ℕ → ℤ → Time → Option Time
  | 0, _, delay => some delay
  | n + 1, attempt, delay =>
    if auditOutboxMaxBackoff / 2 ≤ delay then some auditOutboxMaxBackoff
    else do
      let delay ← int64? (delay * 2)
      let attempt ← int64? (attempt + 1)
      auditOutboxBackoffLoop? n attempt delay

def auditOutboxBackoff? (attemptCount : ℤ) : Option Time :=
  if attemptCount ≤ 1 then some second
  else auditOutboxBackoffLoop? (attemptCount - 1).toNat 1 second

theorem half_le_iff {d : ℤ} : auditOutboxMaxBackoff / 2 ≤ d * second ↔ 30 ≤ d := by
  change (30000000000 : ℤ) ≤ d * 1000000000 ↔ 30 ≤ d
  omega

theorem auditOutboxBackoffLoop_eq (n : ℕ) {d : ℤ} (hpos : 1 ≤ d) (hmax : d ≤ 60) :
    auditOutboxBackoffLoop n (d * second) = min (d * 2 ^ n) 60 * second := by
  induction n generalizing d with
  | zero => rw [pow_zero, mul_one, min_eq_left hmax, auditOutboxBackoffLoop]
  | succ n ih =>
    rw [auditOutboxBackoffLoop]
    simp only [half_le_iff]
    split
    · next hhalf =>
      have hpow : (1 : ℤ) ≤ 2 ^ n := one_le_pow₀ (by decide)
      have hbig : 60 ≤ d * 2 ^ (n + 1) :=
        calc
          60 ≤ d * 2 := by omega
          _ ≤ d * 2 * 2 ^ n := le_mul_of_one_le_right (by omega) hpow
          _ = d * 2 ^ (n + 1) := by rw [pow_succ', mul_assoc]
      rw [min_eq_right hbig]
      rfl
    · rw [mul_right_comm, ih (by omega) (by omega), pow_succ', mul_assoc]

/-- The counter stays below the seconds of the delay, so neither of them can overflow. -/
theorem auditOutboxBackoffLoop?_eq (n : ℕ) {attempt d : ℤ} (hpos : 1 ≤ attempt)
    (hle : attempt ≤ d) (hmax : d ≤ 60) :
    auditOutboxBackoffLoop? n attempt (d * second) =
      some (auditOutboxBackoffLoop n (d * second)) := by
  induction n generalizing attempt d with
  | zero => rfl
  | succ n ih =>
    rw [auditOutboxBackoffLoop?, auditOutboxBackoffLoop]
    simp only [half_le_iff]
    split
    · rfl
    · have hdelay : int64? (d * second * 2) = some (d * 2 * second) := by
        rw [mul_right_comm]
        refine if_pos ?_
        change -2 ^ 63 ≤ d * 2 * 1000000000 ∧ d * 2 * 1000000000 < 2 ^ 63
        omega
      have hattempt : int64? (attempt + 1) = some (attempt + 1) := if_pos (by omega)
      rw [hdelay, hattempt, mul_right_comm d second]
      exact ih (by omega) (by omega) (by omega)

theorem auditOutboxBackoff_eq (n : ℤ) :
    auditOutboxBackoff n = min (2 ^ (max n 1 - 1).toNat) 60 * second := by
  unfold auditOutboxBackoff
  split
  · next hle =>
    rw [max_eq_right hle]
    rfl
  · next hlt =>
    rw [max_eq_left (not_le.mp hlt).le]
    simpa using auditOutboxBackoffLoop_eq (n - 1).toNat (le_refl 1) (by decide)

theorem auditOutboxBackoff_bounds (n : ℤ) :
    0 < auditOutboxBackoff n ∧ auditOutboxBackoff n ≤ auditOutboxMaxBackoff := by
  have hpow : (1 : ℤ) ≤ 2 ^ (max n 1 - 1).toNat := one_le_pow₀ (by decide)
  rw [auditOutboxBackoff_eq]
  change 0 < min _ 60 * (1000000000 : ℤ) ∧ min _ 60 * (1000000000 : ℤ) ≤ 60 * 1000000000
  omega

/-- A reschedule is due after its completion, within the longest wait. -/
def Thread.Waits : Thread → Prop
  | .rescheduling _ completedAt nextAttemptAt _ =>
    completedAt < nextAttemptAt ∧ nextAttemptAt ≤ completedAt + auditOutboxMaxBackoff
  | _ => True

theorem waits_backoff (pending : PendingAuditEvent) (now : Time) (n : ℤ) (category : Category) :
    (Thread.rescheduling pending now (now + auditOutboxBackoff n) category).Waits := by
  obtain ⟨hpos, hmax⟩ := auditOutboxBackoff_bounds n
  exact ⟨lt_add_of_pos_right now hpos, Int.add_le_add_left hmax now⟩

variable {σ σ' : Shared} {t t' : Thread} {new : Option Thread} {c : Choice}

theorem resume_waits (hm : resume σ t c = some (σ', t', new)) : t'.Waits := by
  cases t with
  | claiming claimToken startedAt =>
    simp only [resume] at hm
    split at hm <;> cases hm
    · trivial
    · next pending _ =>
      split
      · trivial
      · cases pending <;> trivial
  | starting pending =>
    simp only [resume] at hm
    split_ifs at hm <;> cases hm
    · trivial
    · exact waits_backoff ..
    · trivial
  | sinking pending =>
    simp only [resume] at hm
    split at hm <;> cases hm
    · trivial
    · exact waits_backoff ..
  | rescheduling | acknowledging =>
    simp only [resume, Shared.finish] at hm
    split at hm <;> cases hm
    · trivial
    · split_ifs <;> trivial
  | returned => cases hm

theorem program_waits :
    Pool.Keeps program (fun _ => True) (fun _ t => t.Waits) fun _ _ => True where
  symm _ _ _ := trivial
  resume s t a s' t' new _ _ hm := by
    obtain ⟨-, rfl⟩ := resume_effect hm
    exact ⟨trivial, resume_waits hm, fun n hn => nomatch hn⟩
  others s t a s' t' new u _ _ hm hu _ := ⟨hu, trivial, fun _ _ => trivial⟩
  arrive s e s' new _ hm := by
    refine ⟨trivial, fun n hn => ?_⟩
    cases e with
    | dispatch claimToken now =>
      simp only [program, arrive] at hm
      split at hm <;> cases hm
      cases hn
      trivial
    | insert event =>
      obtain ⟨outbox, -, hm⟩ := Option.map_eq_some_iff.mp hm
      cases hm
      cases hn
  arriveOthers s e s' new u _ hm hu := ⟨hu, fun _ _ => trivial⟩

theorem Effect.nextAttemptAt {pending : PendingAuditEvent} {completedAt next : Time}
    {category : Category} (h : Effect σ (.rescheduling pending completedAt next category) σ' t')
    {e : String} {row : OutboxRow} (hrow : σ'.outbox.get? e = some row)
    (hne : σ.outbox.get? e ≠ some row) : row.nextAttemptAt = next := by
  cases h with
  | quiet => exact absurd hrow hne
  | reschedule =>
    rw [KeyedTable.get?_update] at hrow
    obtain ⟨old, hold, hset⟩ := Option.map_eq_some_iff.mp hrow
    split at hset
    · rw [← hset]
      rfl
    · exact absurd (hset ▸ hold) hne

/-- The sink refuses the event at its first attempt. -/
def refusedRun : List Action := sinkRun.dropLast ++ [.resume 0 { now := 12, ok := false }]

def refusedEvent : PendingAuditEvent where
  event := sampleEvent
  attemptCount := 1
  claimToken := "00000000-0000-4000-8000-00000000000a"
  leaseUntil := 10 + auditOutboxLeaseDuration

end OtelMagnify.Audit
