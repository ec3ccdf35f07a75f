import OtelMagnify.Audit.TokenStore

/-! Tokens and their audit events agree in every reachable state of the database. The abstract
side is a database that changes by whole mutations only: a token is created with its event, is
revoked with its event, or is marked as used. Every committed transaction is one of them. -/
namespace OtelMagnify.TokenStore
open Push (Time)
open Audit ReadCommitted StepSystem

structure Database where
  tokens : String → Option TokenRow
  events : String → Option OutboxRow

namespace Database

def IsEvent (db : Database) (e action id : String) : Prop :=
  ∃ r, db.events e = some r ∧ r.event.action = action ∧ r.event.resourceID = id

def Records (db : Database) (event : AuditEvent) : Prop :=
  ∃ row, db.tokens event.resourceID = some row ∧
    (event.action = "opamp.token.create" ∧ event.occurredAt = row.createdAt ∧
        event.userID = row.createdBy ∨
      event.action = "opamp.token.revoke" ∧
        row.revocation = some (event.occurredAt, event.userID))

/-- Every token has its events, and every event its mutation. -/
structure Consistent (db : Database) : Prop where
  created : ∀ id row, db.tokens id = some row → ∃! e, db.IsEvent e "opamp.token.create" id
  revoked : ∀ id row, db.tokens id = some row → row.revocation.isSome = true →
    ∃! e, db.IsEvent e "opamp.token.revoke" id
  recorded : ∀ e r, db.events e = some r → db.Records r.event

def withEvent (db : Database) (event : AuditEvent) : Database :=
  { db with events := Function.update db.events event.eventID (some (.ofEvent event)) }

def withToken (db : Database) (id : String) (row : TokenRow) : Database :=
  { db with tokens := Function.update db.tokens id (some row) }

inductive Mutation (db : Database) : Database → Prop where
  | create (id : String) (row : TokenRow) (event : AuditEvent) (hid : db.tokens id = none)
      (hfresh : db.events event.eventID = none) (hrow : row.revocation = none)
      (haction : event.action = "opamp.token.create") (hresource : event.resourceID = id)
      (htime : event.occurredAt = row.createdAt) (huser : event.userID = row.createdBy) :
      Mutation db ((db.withToken id row).withEvent event)
  | revoke (id : String) (row revoked : TokenRow) (event : AuditEvent)
      (hid : db.tokens id = some row) (hactive : row.revocation = none)
      (hfresh : db.events event.eventID = none)
      (hrow : revoked.toColumns = row.toColumns.revoke event.occurredAt event.userID)
      (haction : event.action = "opamp.token.revoke") (hresource : event.resourceID = id) :
      Mutation db ((db.withToken id revoked).withEvent event)
  | use (id : String) (row used : TokenRow) (lastUsedAt : Option Time)
      (hid : db.tokens id = some row) (hrow : used.toColumns = row.toColumns.use lastUsedAt) :
      Mutation db (db.withToken id used)

variable {db db' : Database} {action id : String} {event : AuditEvent} {row : TokenRow}

theorem isEvent_withEvent (hfresh : db.events event.eventID = none) {e : String} :
    (db.withEvent event).IsEvent e action id ↔
      db.IsEvent e action id ∨ e = event.eventID ∧ event.action = action ∧
        event.resourceID = id := by
  unfold IsEvent withEvent
  by_cases he : e = event.eventID
  · subst he
    simp [hfresh, OutboxRow.ofEvent]
  · simp [he]

/-- The first event of its action and token. -/
theorem existsUnique_withEvent (hfresh : db.events event.eventID = none)
    (haction : event.action = action) (hid : event.resourceID = id)
    (hnone : ∀ e, ¬ db.IsEvent e action id) : ∃! e, (db.withEvent event).IsEvent e action id := by
  refine ⟨event.eventID, (isEvent_withEvent hfresh).mpr (.inr ⟨rfl, haction, hid⟩), ?_⟩
  intro e he
  rcases (isEvent_withEvent hfresh).mp he with he | ⟨rfl, -, -⟩
  · exact absurd he (hnone e)
  · rfl

theorem existsUnique_withEvent_of_ne (hfresh : db.events event.eventID = none)
    (hne : event.action = action → event.resourceID ≠ id)
    (h : ∃! e, db.IsEvent e action id) : ∃! e, (db.withEvent event).IsEvent e action id := by
  have hiff : ∀ e, (db.withEvent event).IsEvent e action id ↔ db.IsEvent e action id := by
    intro e
    rw [isEvent_withEvent hfresh]
    exact or_iff_left fun hnew => hne hnew.2.1 hnew.2.2
  simpa only [hiff] using h

/-- What no mutation changes about a token: who created it and when, and a revocation. -/
structure Evolves (row row' : TokenRow) : Prop where
  createdAt : row'.createdAt = row.createdAt
  createdBy : row'.createdBy = row.createdBy
  revocation : row.revocation.isSome = true → row'.revocation = row.revocation

theorem Evolves.refl (row : TokenRow) : Evolves row row := ⟨rfl, rfl, fun _ => rfl⟩

theorem Evolves.trans {a b c : TokenRow} (h : Evolves a b) (h' : Evolves b c) : Evolves a c where
  createdAt := h'.createdAt.trans h.createdAt
  createdBy := h'.createdBy.trans h.createdBy
  revocation hs := (h'.revocation (by rw [h.revocation hs]; exact hs)).trans (h.revocation hs)

def Extends (db db' : Database) : Prop :=
  ∀ id row, db.tokens id = some row → ∃ row', db'.tokens id = some row' ∧ Evolves row row'

theorem Extends.refl (db : Database) : Extends db db := fun _ row h => ⟨row, h, .refl row⟩

theorem Extends.trans {db'' : Database} (h : Extends db db') (h' : Extends db' db'') :
    Extends db db'' := by
  intro id row hrow
  obtain ⟨row', hrow', hev⟩ := h id row hrow
  obtain ⟨row'', hrow'', hev'⟩ := h' id row' hrow'
  exact ⟨row'', hrow'', hev.trans hev'⟩

theorem extends_withToken
    (h : ∀ old, db.tokens id = some old → Evolves old row) : Extends db (db.withToken id row) := by
  intro id' old hold
  by_cases hid : id' = id
  · subst hid
    exact ⟨row, Function.update_self .., h old hold⟩
  · exact ⟨old, (Function.update_of_ne hid ..).trans hold, .refl old⟩

theorem Mutation.extends (h : Mutation db db') : Extends db db' := by
  cases h with
  | create id row event hid =>
    have hext : Extends db (db.withToken id row) :=
      extends_withToken fun old hold => by
        rw [hid] at hold
        cases hold
    exact hext
  | revoke id row revoked event hid hactive hfresh hrow =>
    have hext : Extends db (db.withToken id revoked) :=
      extends_withToken fun old hold => by
        rw [hid] at hold
        cases hold
        refine ⟨by rw [hrow]; rfl, by rw [hrow]; rfl, fun hs => ?_⟩
        rw [hactive] at hs
        cases hs
    exact hext
  | use id row used lastUsedAt hid hrow =>
    exact extends_withToken fun old hold => by
      rw [hid] at hold
      cases hold
      exact ⟨by rw [hrow]; rfl, by rw [hrow]; rfl, fun _ => by rw [hrow]; rfl⟩

theorem Records.of_extends (h : db.Records event) (hext : Extends db db') : db'.Records event := by
  obtain ⟨row, hrow, hcase⟩ := h
  obtain ⟨row', hrow', hev⟩ := hext _ row hrow
  refine ⟨row', hrow', hcase.imp ?_ ?_⟩
  · rintro ⟨haction, htime, huser⟩
    exact ⟨haction, htime.trans hev.createdAt.symm, huser.trans hev.createdBy.symm⟩
  · rintro ⟨haction, hrev⟩
    exact ⟨haction, (hev.revocation (by rw [hrev]; rfl)).trans hrev⟩

def IsRevoked (db : Database) (id : String) : Prop :=
  ∃ row, db.tokens id = some row ∧ row.revocation.isSome = true

def IsUsable (db : Database) (id : String) (now : Time) : Prop :=
  ∃ row, db.tokens id = some row ∧ row.revocation = none ∧ ∀ e ∈ row.expiresAt, now < e

theorem IsRevoked.of_extends (h : db.IsRevoked id) (hext : Extends db db') : db'.IsRevoked id := by
  obtain ⟨row, hrow, hrev⟩ := h
  obtain ⟨row', hrow', hev⟩ := hext id row hrow
  exact ⟨row', hrow', by rw [hev.revocation hrev]; exact hrev⟩

/-- There is no event about a token that does not exist. -/
theorem Consistent.not_isEvent_of_none (h : db.Consistent)
    (hid : db.tokens id = none) (e action : String) : ¬ db.IsEvent e action id := by
  rintro ⟨r, hr, -, rfl⟩
  obtain ⟨row, hrow, -⟩ := h.recorded e r hr
  rw [hid] at hrow
  cases hrow

theorem Consistent.not_isEvent_of_active (h : db.Consistent)
    (hid : db.tokens id = some row) (hactive : row.revocation = none) (e : String) :
    ¬ db.IsEvent e "opamp.token.revoke" id := by
  rintro ⟨r, hr, haction, rfl⟩
  obtain ⟨row', hrow', ⟨hcreate, -⟩ | ⟨-, hrev⟩⟩ := h.recorded e r hr
  · rw [haction] at hcreate
    exact absurd hcreate (by decide)
  · rw [hid] at hrow'
    cases hrow'
    rw [hactive] at hrev
    cases hrev

theorem recorded_withEvent (h : ∀ e r, db.events e = some r →
    db.Records r.event) (hext : Extends db db') (hevents : db'.events = db.events)
    (hnew : db'.Records event) (e : String) (r : OutboxRow)
    (hr : (db'.withEvent event).events e = some r) : (db'.withEvent event).Records r.event := by
  by_cases he : e = event.eventID
  · subst he
    have hself : (db'.withEvent event).events event.eventID = some (.ofEvent event) :=
      Function.update_self ..
    rw [hself] at hr
    cases hr
    exact hnew
  · have hold : (db'.withEvent event).events e = db'.events e := Function.update_of_ne he ..
    rw [hold, hevents] at hr
    exact (h e r hr).of_extends hext

/-- The tokens and events after a mutation that brings an event. -/
theorem consistent_withEvent (hdb : db.Consistent) (hext : Extends db (db.withToken id row))
    (hfresh : db.events event.eventID = none) (hresource : event.resourceID = id)
    (hnone : ∀ e, ¬ db.IsEvent e event.action id)
    (hnew : (db.withToken id row).Records event)
    (hcreated : event.action ≠ "opamp.token.create" → ∃! e, db.IsEvent e "opamp.token.create" id)
    (hrevoked : event.action ≠ "opamp.token.revoke" → row.revocation = none) :
    ((db.withToken id row).withEvent event).Consistent := by
  have hfresh' : (db.withToken id row).events event.eventID = none := hfresh
  have hself : ((db.withToken id row).withEvent event).tokens id = some row :=
    Function.update_self ..
  have hold : ∀ id' row', id' ≠ id →
      ((db.withToken id row).withEvent event).tokens id' = some row' →
        db.tokens id' = some row' := fun id' row' hne h' =>
    (Function.update_of_ne hne ..).symm.trans h'
  -- the token itself has the new event, every other token the events it had
  refine ⟨fun id' row' hrow' => ?_, fun id' row' hrow' hrev => ?_,
    recorded_withEvent hdb.recorded hext rfl hnew⟩
  · by_cases hne : id' = id
    · rw [hne]
      by_cases haction : event.action = "opamp.token.create"
      · exact existsUnique_withEvent hfresh' haction hresource fun e => haction ▸ hnone e
      · exact existsUnique_withEvent_of_ne hfresh' (fun h => absurd h haction) (hcreated haction)
    · exact existsUnique_withEvent_of_ne hfresh' (fun _ => hresource ▸ Ne.symm hne)
        (hdb.created id' row' (hold id' row' hne hrow'))
  · by_cases hne : id' = id
    · rw [hne, hself] at hrow'
      cases hrow'
      rw [hne]
      by_cases haction : event.action = "opamp.token.revoke"
      · exact existsUnique_withEvent hfresh' haction hresource fun e => haction ▸ hnone e
      · rw [hrevoked haction] at hrev
        cases hrev
    · exact existsUnique_withEvent_of_ne hfresh' (fun _ => hresource ▸ Ne.symm hne)
        (hdb.revoked id' row' (hold id' row' hne hrow') hrev)

theorem Mutation.consistent (h : Mutation db db') (hdb : db.Consistent) : db'.Consistent := by
  have hext := h.extends
  cases h with
  | create id row event hid hfresh hrow haction hresource htime huser =>
    refine consistent_withEvent hdb hext hfresh hresource
      (fun e => hdb.not_isEvent_of_none hid e _) ?_ (fun h => absurd haction h) fun _ => hrow
    exact ⟨row, hresource ▸ Function.update_self .., .inl ⟨haction, htime, huser⟩⟩
  | revoke id row revoked event hid hactive hfresh hrow haction hresource =>
    refine consistent_withEvent hdb hext hfresh hresource
      (fun e => haction ▸ hdb.not_isEvent_of_active hid hactive e) ?_
      (fun _ => hdb.created id row hid) fun h => absurd haction h
    exact ⟨revoked, hresource ▸ Function.update_self .., .inr ⟨haction, by rw [hrow]; rfl⟩⟩
  | use id row used lastUsedAt hid hrow =>
    have hback : ∀ id' row', (db.withToken id used).tokens id' = some row' →
        ∃ row₀, db.tokens id' = some row₀ ∧ row'.revocation = row₀.revocation := by
      intro id' row' h'
      by_cases hne : id' = id
      · subst hne
        have hself : (db.withToken id' used).tokens id' = some used := Function.update_self ..
        rw [hself] at h'
        cases h'
        exact ⟨row, hid, by rw [hrow]; rfl⟩
      · exact ⟨row', (Function.update_of_ne hne ..).symm.trans h', rfl⟩
    refine ⟨fun id' row' hrow' => ?_, fun id' row' hrow' hrev => ?_, fun e r hr => ?_⟩
    · obtain ⟨row₀, hrow₀, -⟩ := hback id' row' hrow'
      exact hdb.created id' row₀ hrow₀
    · obtain ⟨row₀, hrow₀, hsame⟩ := hback id' row' hrow'
      exact hdb.revoked id' row₀ hrow₀ (hsame ▸ hrev)
    · exact (hdb.recorded e r hr).of_extends hext

end Database

end OtelMagnify.TokenStore
