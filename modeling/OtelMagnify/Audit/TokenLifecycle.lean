import OtelMagnify.Audit.Atomicity
import OtelMagnify.Lib.Checks

/-! The calls of the token store refine whole mutations. A call that has written stands under the
locks of its rows; what it has staged is what it commits, and nobody else changes those rows
before. -/
namespace OtelMagnify.TokenStore
open Push (Time)
open Audit Checks ReadCommitted StepSystem

def Shared.database (σ : Shared) : Database := ⟨σ.tokens.row, σ.outbox.row⟩

structure Draft where
  token : Option (String × Option TokenRow × Option TokenRow) := none
  event : Option (String × Option OutboxRow × Option OutboxRow) := none

def stagedEvent (event : AuditEvent) : Option (String × Option OutboxRow × Option OutboxRow) :=
  some (event.eventID, none, some (.ofEvent event))

namespace Thread

def tx : Thread → Option ℕ
  | create tx _ _ | revoke tx _ _ | markUsed tx _ _ _ => some tx
  | _ => none

def draft : Thread → Draft
  | create _ a (.insertEvent row) => { token := some (a.id, none, some row) }
  | create _ a (.committing row) =>
    { token := some (a.id, none, some row), event := stagedEvent a.event }
  | revoke _ a (.updating row) => { token := some (a.id, some row, some row) }
  | revoke _ a (.insertEvent row revoked) => { token := some (a.id, some row, some revoked) }
  | revoke _ a (.committing row revoked) =>
    { token := some (a.id, some row, some revoked), event := stagedEvent a.event }
  | markUsed _ id _ (.updating row) => { token := some (id, some row, some row) }
  | markUsed _ id _ (.committing row used) => { token := some (id, some row, some used) }
  | _ => {}

def Legit : Thread → Prop
  | create _ a stage =>
    (a.event.action = "opamp.token.create" ∧ a.event.resourceID = a.id ∧
      a.event.occurredAt = a.token.createdAt ∧ a.event.userID = a.token.createdBy) ∧
    match stage with
    | .insertEvent row | .committing row => row.toColumns = a.columns
    | _ => True
  | revoke _ a stage =>
    (a.event.action = "opamp.token.revoke" ∧ a.event.resourceID = a.id ∧
      a.event.occurredAt = a.now ∧ a.event.userID = a.revokedBy) ∧
    match stage with
    | .updating row => row.revocation = none
    | .insertEvent row revoked | .committing row revoked =>
      row.revocation = none ∧ revoked.toColumns = row.toColumns.revoke a.now a.revokedBy
    | _ => True
  | markUsed _ _ now stage =>
    match stage with
    | .updating row => row.isUsable now = true
    | .committing row used =>
      row.isUsable now = true ∧ ∃ lastUsedAt, used.toColumns = row.toColumns.use lastUsedAt
    | _ => True
  | _ => True

/-- The token whose revocation the call has reported as a change. -/
def change : Thread → Option String
  | returned (.revoked id _ true) => some id
  | _ => none

def commits : Thread → Bool
  | create _ _ (.committing _) | revoke _ _ (.committing _ _) => true
  | markUsed _ _ _ (.committing _ _) => true
  | _ => false

end Thread

variable {σ σ' : Shared} {t t' : Thread} {new : Option Thread} {c : Choice} {tx : ℕ}

structure Stands (σ : Shared) (tx : ℕ) (t : Thread) : Prop where
  lt : tx < σ.nextTx
  token : σ.tokens.Staged tx t.draft.token
  event : σ.outbox.Staged tx t.draft.event
  legit : t.Legit

structure Ok (σ : Shared) (t : Thread) : Prop where
  stands : ∀ tx, t.tx = some tx → Stands σ tx t
  revoked : ∀ id, t.change = some id → σ.database.IsRevoked id

/-- Two calls have different transactions and do not report the same change. -/
structure Apart (t u : Thread) : Prop where
  tx : ∀ tx, t.tx = some tx → u.tx ≠ some tx
  change : ∀ id, t.change = some id → u.change ≠ some id

/-- The commit of a call is a whole mutation of the committed rows. -/
theorem Stands.mutation (h : Stands σ tx t) (hc : t.commits = true) :
    σ.database.Mutation (σ.commit tx).database := by
  have hrows : (σ.commit tx).database =
      ⟨Table.apply σ.tokens.row t.draft.token, Table.apply σ.outbox.row t.draft.event⟩ := by
    unfold Shared.database Shared.commit
    rw [h.token.row_commit, h.event.row_commit]
  rw [hrows]
  have htoken := h.token
  have hevent := h.event
  cases t with
  | create tx' a stage =>
    cases stage with
    | committing row =>
      obtain ⟨⟨haction, hresource, htime, huser⟩, hrow⟩ := h.legit
      cases htoken with
      | some hid =>
        cases hevent with
        | some hfresh =>
          exact .create a.id row a.event hid hfresh (by rw [hrow]; rfl) haction hresource
            (by rw [hrow]; exact htime) (by rw [hrow]; exact huser)
    | _ => cases hc
  | revoke tx' a stage =>
    cases stage with
    | committing row revoked =>
      obtain ⟨⟨haction, hresource, htime, huser⟩, hactive, hrow⟩ := h.legit
      cases htoken with
      | some hid =>
        cases hevent with
        | some hfresh =>
          refine .revoke a.id row revoked a.event hid hactive hfresh ?_ haction hresource
          rw [hrow, htime, huser]
    | _ => cases hc
  | markUsed tx' id now stage =>
    cases stage with
    | committing row used =>
      obtain ⟨-, lastUsedAt, hrow⟩ := h.legit
      cases htoken with
      | some hid => exact .use id row used lastUsedAt hid hrow
    | _ => cases hc
  | _ => cases hc

inductive Effect (σ : Shared) (t : Thread) : Shared → Thread → Prop where
  | quiet (t' : Thread) (h : t'.tx = none) (hchange : t'.change = none) : Effect σ t σ t'
  | advance (t' : Thread) (tx : ℕ) (htx : t.tx = some tx) (htx' : t'.tx = some tx)
      (hdraft : t'.draft = t.draft) (hlegit : t.Legit → t'.Legit) : Effect σ t σ t'
  | abort (tx : ℕ) (htx : t.tx = some tx) (outcome : Outcome)
      (hchange : (Thread.returned outcome).change = none) :
      Effect σ t (σ.abort tx) (.returned outcome)
  | lock (tx : ℕ) (t' : Thread) (k : String) (v : Option TokenRow) (htx : t.tx = some tx)
      (htx' : t'.tx = some tx) (hfree : σ.tokens.isBlocked tx k = false)
      (hdraft : t.draft = {}) (hdraft' : t'.draft = { token := some (k, σ.tokens.row k, v) })
      (hlegit : t.Legit → t'.Legit) :
      Effect σ t { σ with tokens := σ.tokens.put tx k v } t'
  | update (tx : ℕ) (t' : Thread) (k : String) (old v v' : Option TokenRow)
      (htx : t.tx = some tx) (htx' : t'.tx = some tx)
      (hdraft : t.draft = { token := some (k, old, v) })
      (hdraft' : t'.draft = { token := some (k, old, v') }) (hlegit : t.Legit → t'.Legit) :
      Effect σ t { σ with tokens := σ.tokens.put tx k v' } t'
  | insertEvent (tx : ℕ) (t' : Thread) (event : AuditEvent) (htx : t.tx = some tx)
      (htx' : t'.tx = some tx) (hfree : σ.outbox.isBlocked tx event.eventID = false)
      (hnone : σ.outbox.row event.eventID = none) (hdraft : t.draft.event = none)
      (hdraft' : t'.draft = { t.draft with event := stagedEvent event })
      (hlegit : t.Legit → t'.Legit) :
      Effect σ t { σ with outbox := σ.outbox.put tx event.eventID (some (.ofEvent event)) } t'
  | commit (tx : ℕ) (htx : t.tx = some tx) (hc : t.commits = true) (outcome : Outcome)
      (hchange : ∀ id, (Thread.returned outcome).change = some id →
        ∃ a row revoked, t = .revoke tx a (.committing row revoked) ∧ a.id = id) :
      Effect σ t (σ.commit tx) (.returned outcome)

variable {failed : Moved} {m : Shared × Thread × Option Thread} {ok : Bool} {id text : String}
  {a : RevokeCall} {now : Time} {p p' : State}

theorem insertInto_cases {ρ : Type} {table : Table String ρ} {key : String} {row : Option ρ}
    {inserted : Table String ρ → ρ → Moved}
    (h : Shared.insertInto table tx key row ok failed inserted = some m) :
    failed = some m ∨ ∃ r, row = some r ∧ table.row key = none ∧
      table.isBlocked tx key = false ∧ inserted (table.put tx key (some r)) r = some m := by
  unfold Shared.insertInto at h
  split at h
  · exact .inl h
  next hrow =>
  split at h
  · cases h
  next hfree =>
  split at h
  · next r =>
    split at h
    · exact .inr ⟨r, rfl, Option.not_isSome_iff_eq_none.mp hrow, by simpa using hfree, h⟩
    · exact .inl h
  · exact .inl h

theorem lockToken_cases {where_ : TokenRow → Bool}
    {missing : Moved} {locked : Shared → TokenRow → Moved}
    (h : σ.lockToken tx id where_ ok failed missing locked = some m) :
    failed = some m ∨ missing = some m ∨ ∃ row, σ.tokens.row id = some row ∧
      where_ row = true ∧ σ.tokens.isBlocked tx id = false ∧
      locked { σ with tokens := σ.tokens.put tx id (some row) } row = some m := by
  unfold Shared.lockToken at h
  split at h
  · split at h
    · exact .inr (.inl h)
    · exact .inl h
  next row hrow =>
  split at h
  · split at h
    · exact .inr (.inl h)
    · exact .inl h
  next hwhere =>
  split at h
  · cases h
  next hfree =>
  split at h
  · exact .inr (.inr ⟨row, hrow, by simpa using hwhere, by simpa using hfree, h⟩)
  · exact .inl h

theorem updateToken_cases {columns : Columns} {updated : Shared → TokenRow → Moved}
    (h : σ.updateToken tx id columns ok failed updated = some m) :
    failed = some m ∨ ∃ row : TokenRow, row.toColumns = columns ∧
      updated { σ with tokens := σ.tokens.put tx id (some row) } row = some m := by
  unfold Shared.updateToken at h
  split at h
  · next row hrow =>
    split at h
    · exact .inr ⟨row, Columns.toColumns_of_toRow hrow, h⟩
    · exact .inl h
  · exact .inl h

theorem begin_effect {next : Thread}
    (hm : σ.begin_ next c text = some (σ', t', new)) (htx : t.tx = some tx)
    (htx' : next.tx = some tx) (hdraft : next.draft = t.draft) (hlegit : t.Legit → next.Legit) :
    Effect σ t σ' t' ∧ new = none := by
  cases hm
  split
  · exact ⟨.advance next tx htx htx' hdraft hlegit, rfl⟩
  · exact ⟨.quiet _ rfl rfl, rfl⟩

theorem fail_effect (hm : σ.fail tx text = some (σ', t', new))
    (htx : t.tx = some tx) : Effect σ t σ' t' ∧ new = none := by
  cases hm
  exact ⟨.abort tx htx _ rfl, rfl⟩

theorem finish_effect {outcome : Outcome}
    (hm : σ.finish tx c outcome text = some (σ', t', new)) (htx : t.tx = some tx)
    (hc : t.commits = true)
    (hchange : ∀ id, (Thread.returned outcome).change = some id →
      ∃ a row revoked, t = .revoke tx a (.committing row revoked) ∧ a.id = id) :
    Effect σ t σ' t' ∧ new = none := by
  have hfailed : ∀ id, (Thread.returned (.failed text)).change = some id →
      ∃ a row revoked, t = .revoke tx a (.committing row revoked) ∧ a.id = id := by
    rintro id ⟨⟩
  unfold Shared.finish at hm
  split at hm
  · cases hm
    exact ⟨.commit tx htx hc _ hchange, rfl⟩
  · cases hm
    split
    · exact ⟨.commit tx htx hc _ hfailed, rfl⟩
    · exact ⟨.abort tx htx _ rfl, rfl⟩

theorem resumeCreate_effect {a : CreateCall} {stage : CreateStage}
    (hm : resumeCreate σ tx a stage c = some (σ', t', new)) :
    Effect σ (.create tx a stage) σ' t' ∧ new = none := by
  cases stage <;> simp only [resumeCreate] at hm
  case beginning => exact begin_effect hm rfl rfl rfl id
  case insertToken =>
    rcases insertInto_cases hm with hm | ⟨row, hrow, hnone, hfree, hm⟩
    · exact fail_effect hm rfl
    · cases hm
      refine ⟨.lock tx _ a.id (some row) rfl rfl hfree rfl (by rw [hnone]; rfl) fun h => ?_, rfl⟩
      exact ⟨h.1, Columns.toColumns_of_toRow hrow⟩
  case insertEvent row =>
    rcases insertInto_cases hm with hm | ⟨_, hev, hnone, hfree, hm⟩
    · exact fail_effect hm rfl
    · cases hev
      cases hm
      exact ⟨.insertEvent tx _ a.event rfl rfl hfree hnone rfl rfl id, rfl⟩
  case committing row =>
    refine finish_effect hm rfl rfl ?_
    rintro id ⟨⟩

theorem resumeRevoke_effect {stage : RevokeStage}
    (hm : resumeRevoke σ tx a stage c = some (σ', t', new)) :
    Effect σ (.revoke tx a stage) σ' t' ∧ new = none := by
  cases stage <;> simp only [resumeRevoke] at hm
  case beginning => exact begin_effect hm rfl rfl rfl id
  case locking =>
    rcases lockToken_cases hm with hm | hm | ⟨row, hrow, -, hfree, hm⟩
    · exact fail_effect hm rfl
    · exact fail_effect hm rfl
    · split at hm
      · cases hm
        have habort : Shared.abort { σ with tokens := σ.tokens.put tx a.id (some row) } tx =
            σ.abort tx := by
          simp only [Shared.abort, Table.abort_put hfree]
        rw [habort]
        exact ⟨.abort tx rfl _ rfl, rfl⟩
      · next hrev =>
        cases hm
        refine ⟨.lock tx _ a.id (some row) rfl rfl hfree rfl (by rw [hrow]; rfl) fun h => ?_, rfl⟩
        exact ⟨h.1, Option.not_isSome_iff_eq_none.mp hrev⟩
  case updating row =>
    rcases updateToken_cases hm with hm | ⟨revoked, hrevoked, hm⟩
    · exact fail_effect hm rfl
    · cases hm
      refine ⟨.update tx _ a.id (some row) (some row) (some revoked) rfl rfl rfl rfl ?_, rfl⟩
      exact fun h => ⟨h.1, h.2, hrevoked⟩
  case insertEvent row revoked =>
    rcases insertInto_cases hm with hm | ⟨_, hev, hnone, hfree, hm⟩
    · exact fail_effect hm rfl
    · cases hev
      cases hm
      exact ⟨.insertEvent tx _ a.event rfl rfl hfree hnone rfl rfl id, rfl⟩
  case committing row revoked =>
    refine finish_effect hm rfl rfl ?_
    rintro id ⟨⟩
    exact ⟨a, row, revoked, rfl, rfl⟩

theorem resumeMarkUsed_effect {stage : UseStage}
    (hm : resumeMarkUsed σ tx id now stage c = some (σ', t', new)) :
    Effect σ (.markUsed tx id now stage) σ' t' ∧ new = none := by
  cases stage <;> simp only [resumeMarkUsed] at hm
  case beginning => exact begin_effect hm rfl rfl rfl fun _ => trivial
  case locking =>
    rcases lockToken_cases hm with hm | hm | ⟨row, hrow, hwhere, hfree, hm⟩
    · exact fail_effect hm rfl
    · exact fail_effect hm rfl
    · split at hm
      · cases hm
        exact ⟨.lock tx _ id (some row) rfl rfl hfree rfl (by rw [hrow]; rfl) fun _ => hwhere, rfl⟩
      · cases hm
        exact ⟨.lock tx _ id (some row) rfl rfl hfree rfl (by rw [hrow]; rfl)
          fun _ => ⟨hwhere, row.lastUsedAt, rfl⟩, rfl⟩
  case updating row =>
    rcases updateToken_cases hm with hm | ⟨used, hused, hm⟩
    · exact fail_effect hm rfl
    · cases hm
      refine ⟨.update tx _ id (some row) (some row) (some used) rfl rfl rfl rfl ?_, rfl⟩
      exact fun h => ⟨h, some now, hused⟩
  case committing row used =>
    refine finish_effect hm rfl rfl ?_
    rintro id ⟨⟩

theorem change_validateOpAMPToken (row : Option TokenRow) (id : String)
    (presentedHash : List UInt8) (now : Time) :
    (Thread.returned (validateOpAMPToken row id presentedHash now)).change = none := by
  unfold validateOpAMPToken
  cases row with
  | none => rfl
  | some r =>
    dsimp only
    split
    · rfl
    · split <;> rfl

theorem resume_effect (hm : resume σ t c = some (σ', t', new)) :
    Effect σ t σ' t' ∧ new = none := by
  cases t with
  | create tx a stage => exact resumeCreate_effect hm
  | revoke tx a stage => exact resumeRevoke_effect hm
  | markUsed tx id now stage => exact resumeMarkUsed_effect hm
  | validate id presentedHash now =>
    cases hm
    refine ⟨.quiet _ rfl ?_, rfl⟩
    split
    · exact change_validateOpAMPToken ..
    · rfl
  | returned outcome => cases hm

theorem tx_of_change (h : t.change = some id) : t.tx = none := by
  cases t with
  | returned => rfl
  | _ => cases h

namespace Effect

theorem nextTx_eq (h : Effect σ t σ' t') : σ'.nextTx = σ.nextTx := by
  cases h <;> rfl

theorem tx_of_some (h : Effect σ t σ' t') (htx : t'.tx = some tx) : t.tx = some tx := by
  cases h with
  | quiet _ h => rw [h] at htx; cases htx
  | abort | commit => cases htx
  | advance _ _ htx₀ htx' | lock _ _ _ _ htx₀ htx'
  | update _ _ _ _ _ _ htx₀ htx' | insertEvent _ _ _ htx₀ htx' => rw [htx₀, ← htx', htx]

theorem spares (h : Effect σ t σ' t') (hok : Ok σ t) {tx' : ℕ} (hne : t.tx ≠ some tx') :
    σ.tokens.Spares σ'.tokens tx' ∧ σ.outbox.Spares σ'.outbox tx' := by
  have hne' : ∀ tx, t.tx = some tx → tx ≠ tx' := by
    rintro tx htx rfl
    exact hne htx
  cases h with
  | quiet | advance => exact ⟨.refl _ _, .refl _ _⟩
  | abort tx htx => exact ⟨Table.abort_spares (hne' tx htx) _, Table.abort_spares (hne' tx htx) _⟩
  | lock tx _ k v htx _ hfree => exact ⟨Table.put_spares (hne' tx htx) hfree v, .refl _ _⟩
  | update tx _ k old v v' htx _ hdraft =>
    have htoken := (hok.stands tx htx).token
    rw [hdraft] at htoken
    cases htoken with
    | some _ hself _ => exact ⟨Table.put_spares (hne' tx htx) hself.isBlocked v', .refl _ _⟩
  | insertEvent tx _ event htx _ hfree =>
    exact ⟨.refl _ _, Table.put_spares (hne' tx htx) hfree _⟩
  | commit tx htx =>
    exact ⟨Table.commit_spares (hne' tx htx) _, Table.commit_spares (hne' tx htx) _⟩

theorem stands (h : Effect σ t σ' t') (hok : Ok σ t) (tx : ℕ) (htx : t'.tx = some tx) :
    Stands σ' tx t' := by
  obtain ⟨hlt, htoken, hevent, hl⟩ := hok.stands tx (h.tx_of_some htx)
  cases h with
  | quiet _ h => rw [h] at htx; cases htx
  | abort | commit => cases htx
  | advance _ _ _ _ hdraft hlegit => exact ⟨hlt, hdraft ▸ htoken, hdraft ▸ hevent, hlegit hl⟩
  | lock _ _ k v _ htx' _ hdraft hdraft' hlegit =>
    cases htx.symm.trans htx'
    rw [hdraft] at htoken hevent
    refine ⟨hlt, ?_, ?_, hlegit hl⟩ <;> rw [hdraft']
    · exact htoken.put k v
    · exact hevent
  | update _ _ k old v v' _ htx' hdraft hdraft' hlegit =>
    cases htx.symm.trans htx'
    rw [hdraft] at htoken hevent
    refine ⟨hlt, ?_, ?_, hlegit hl⟩ <;> rw [hdraft']
    · exact htoken.reput v'
    · exact hevent
  | insertEvent _ _ event _ htx' _ hnone hdraft hdraft' hlegit =>
    cases htx.symm.trans htx'
    rw [hdraft] at hevent
    refine ⟨hlt, ?_, ?_, hlegit hl⟩ <;> rw [hdraft']
    · exact htoken
    · have hput := hevent.put event.eventID (some (.ofEvent event))
      rw [hnone] at hput
      exact hput

theorem database (h : Effect σ t σ' t') (hok : Ok σ t) :
    σ'.database = σ.database ∨ σ.database.Mutation σ'.database := by
  cases h with
  | commit tx htx hc => exact .inr ((hok.stands tx htx).mutation hc)
  | _ => exact .inl rfl

theorem extends_ (h : Effect σ t σ' t') (hok : Ok σ t) : σ.database.Extends σ'.database := by
  rcases h.database hok with heq | hm
  · rw [heq]
    exact .refl _
  · exact hm.extends

end Effect

theorem Stands.revocation {row revoked : TokenRow}
    (h : Stands σ tx (.revoke tx a (.committing row revoked))) :
    ¬ σ.database.IsRevoked a.id ∧ (σ.commit tx).database.IsRevoked a.id := by
  have hcommit : (σ.commit tx).tokens.row = _ := h.token.row_commit
  have htoken := h.token
  obtain ⟨-, hactive, hrow⟩ := h.legit
  cases htoken with
  | some hid =>
    constructor
    · rintro ⟨row', hrow', hrev⟩
      cases hid.symm.trans hrow'
      rw [hactive] at hrev
      cases hrev
    · refine ⟨revoked, ?_, by rw [hrow]; rfl⟩
      change (σ.commit tx).tokens.row a.id = some revoked
      rw [hcommit]
      exact Function.update_self ..

theorem Effect.change (h : Effect σ t σ' t') (hok : Ok σ t)
    (hid : t'.change = some id) : ¬ σ.database.IsRevoked id ∧ σ'.database.IsRevoked id := by
  have hreturned : t'.tx = none := tx_of_change hid
  cases h with
  | quiet _ _ hchange | abort _ _ _ hchange =>
    rw [hchange] at hid
    cases hid
  | commit tx htx _ _ hchange =>
    obtain ⟨a, row, revoked, rfl, rfl⟩ := hchange id hid
    exact (hok.stands tx htx).revocation
  | advance _ _ _ htx' | lock _ _ _ _ _ htx'
  | update _ _ _ _ _ _ _ htx' | insertEvent _ _ _ _ htx' => cases hreturned.symm.trans htx'

/-- The committed rows agree, and no future transaction holds a lock. -/
structure Inv (σ : Shared) : Prop where
  consistent : σ.database.Consistent
  fresh : ∀ tx, σ.nextTx ≤ tx → σ.tokens.Staged tx none ∧ σ.outbox.Staged tx none

theorem Effect.inv (h : Effect σ t σ' t') (hok : Ok σ t) (hI : Inv σ) : Inv σ' := by
  refine ⟨?_, fun tx' htx' => ?_⟩
  · rcases h.database hok with heq | hm
    · rw [heq]
      exact hI.consistent
    · exact hm.consistent hI.consistent
  · rw [h.nextTx_eq] at htx'
    have hne : t.tx ≠ some tx' := fun htx => absurd (hok.stands tx' htx).lt (by omega)
    obtain ⟨htokens, houtbox⟩ := h.spares hok hne
    exact ⟨(hI.fresh tx' htx').1.spared htokens, (hI.fresh tx' htx').2.spared houtbox⟩

/-- A step keeps what another call relies on. -/
theorem Effect.others {u : Thread} (h : Effect σ t σ' t') (hok : Ok σ t) (hu : Ok σ u)
    (happ : Apart t u) : Ok σ' u ∧ Apart t' u := by
  refine ⟨⟨fun tx htx => ?_, fun id hid => (hu.revoked id hid).of_extends (h.extends_ hok)⟩,
    fun tx htx => happ.tx tx (h.tx_of_some htx), fun id hid hid' => ?_⟩
  · obtain ⟨hlt, htoken, hevent, hlegit⟩ := hu.stands tx htx
    obtain ⟨htokens, houtbox⟩ := h.spares hok fun ht => happ.tx tx ht htx
    exact ⟨h.nextTx_eq ▸ hlt, htoken.spared htokens, hevent.spared houtbox, hlegit⟩
  · -- the other call has reported the change, so the token was revoked before
    exact (h.change hok hid).1 (hu.revoked id hid')

theorem ok_of_validateTokenAuditEvent {event : AuditEvent} {action actor : String}
    {occurredAt : Time} (h : validateTokenAuditEvent event action id actor occurredAt = .ok ()) :
    event.action = action ∧ event.resourceID = id ∧ event.occurredAt = occurredAt ∧
      event.userID = actor := by
  obtain ⟨-, h⟩ := check_eq_ok.mp h
  obtain ⟨_, -, h⟩ := bind_eq_ok.mp h
  obtain ⟨htime, h⟩ := check_eq_ok.mp h
  obtain ⟨haction, h⟩ := check_eq_ok.mp h
  obtain ⟨-, h⟩ := check_eq_ok.mp h
  obtain ⟨hresource, h⟩ := check_eq_ok.mp h
  obtain ⟨-, h⟩ := check_eq_ok.mp h
  obtain ⟨huser, -⟩ := check_eq_ok.mp h
  exact ⟨not_not.mp haction, not_not.mp hresource, not_not.mp htime,
    not_not.mp fun hne => huser (.inr hne)⟩

theorem CreateCall.legit {a : CreateCall} (h : a.validate = .ok ()) (tx : ℕ) :
    (Thread.create tx a .beginning).Legit := by
  obtain ⟨-, h⟩ := check_eq_ok.mp h
  obtain ⟨_, -, h⟩ := bind_eq_ok.mp h
  obtain ⟨_, h, -⟩ := bind_eq_ok.mp h
  exact ⟨ok_of_validateTokenAuditEvent (mapError_eq_ok h), trivial⟩

theorem RevokeCall.legit (h : a.validate = .ok ()) (tx : ℕ) :
    (Thread.revoke tx a .beginning).Legit := by
  obtain ⟨_, -, h⟩ := bind_eq_ok.mp h
  exact ⟨ok_of_validateTokenAuditEvent (mapError_eq_ok h), trivial⟩

inductive Arrival (σ : Shared) : Shared → Thread → Prop where
  | quiet (t : Thread) (htx : t.tx = none) (hchange : t.change = none) : Arrival σ σ t
  | start (t : Thread) (htx : t.tx = some σ.nextTx) (hdraft : t.draft = {}) (hlegit : t.Legit) :
      Arrival σ { σ with nextTx := σ.nextTx + 1 } t

theorem arrive_arrival {r : Request} (hm : arrive σ r = some (σ', new)) :
    ∃ t, new = some t ∧ Arrival σ σ' t := by
  cases r with
  | create a =>
    simp only [arrive] at hm
    split at hm <;> cases hm
    · exact ⟨_, rfl, .quiet _ rfl rfl⟩
    · next hv => exact ⟨_, rfl, .start _ rfl rfl (CreateCall.legit hv _)⟩
  | revoke a =>
    simp only [arrive] at hm
    split at hm
    · cases hm
      exact ⟨_, rfl, .quiet _ rfl rfl⟩
    · split at hm <;> cases hm
      · exact ⟨_, rfl, .quiet _ rfl rfl⟩
      · next hv => exact ⟨_, rfl, .start _ rfl rfl (RevokeCall.legit hv _)⟩
  | validate id presentedHash now =>
    simp only [arrive] at hm
    split at hm <;> cases hm
    · exact ⟨_, rfl, .quiet _ rfl rfl⟩
    · exact ⟨_, rfl, .quiet _ rfl rfl⟩
  | markUsed id now =>
    simp only [arrive] at hm
    split at hm <;> cases hm
    · exact ⟨_, rfl, .quiet _ rfl rfl⟩
    · exact ⟨_, rfl, .start _ rfl rfl trivial⟩

theorem Arrival.inv (h : Arrival σ σ' t) (hI : Inv σ) : Inv σ' ∧ Ok σ' t := by
  cases h with
  | quiet _ htx hchange =>
    refine ⟨hI, fun tx h => ?_, fun id h => ?_⟩
    · cases htx.symm.trans h
    · cases hchange.symm.trans h
  | start _ htx hdraft hlegit =>
    refine ⟨⟨hI.consistent, fun tx htx' => hI.fresh tx (Nat.le_of_succ_le htx')⟩,
      fun tx h => ?_, fun id h => ?_⟩
    · cases htx.symm.trans h
      obtain ⟨htokens, houtbox⟩ := hI.fresh σ.nextTx le_rfl
      exact ⟨Nat.lt_succ_self _, hdraft ▸ htokens, hdraft ▸ houtbox, hlegit⟩
    · cases htx.symm.trans (tx_of_change h)

theorem Arrival.others {u : Thread} (h : Arrival σ σ' t) (hu : Ok σ u) : Ok σ' u ∧ Apart t u := by
  cases h with
  | quiet _ htx hchange =>
    refine ⟨hu, fun tx h => ?_, fun id h => ?_⟩
    · cases htx.symm.trans h
    · cases hchange.symm.trans h
  | start _ htx =>
    refine ⟨⟨fun tx h => ?_, hu.revoked⟩, fun tx h h' => ?_, fun id h => ?_⟩
    · obtain ⟨hlt, htoken, hevent, hlegit⟩ := hu.stands tx h
      exact ⟨Nat.lt_succ_of_lt hlt, htoken, hevent, hlegit⟩
    · cases htx.symm.trans h
      exact absurd (hu.stands _ h').lt (lt_irrefl _)
    · cases htx.symm.trans (tx_of_change h)

theorem program_keeps : Pool.Keeps program Inv Ok Apart where
  symm t u h := ⟨fun tx hu ht => h.tx tx ht hu, fun id hu ht => h.change id ht hu⟩
  resume s t a s' t' new hI ht hm := by
    obtain ⟨he, rfl⟩ := resume_effect hm
    refine ⟨he.inv ht hI, ⟨he.stands ht, fun id hid => (he.change ht hid).2⟩, ?_⟩
    rintro n ⟨⟩
  others s t a s' t' new u hI ht hm hu happ := by
    obtain ⟨he, rfl⟩ := resume_effect hm
    obtain ⟨hok, hap⟩ := he.others ht hu happ
    refine ⟨hok, hap, ?_⟩
    rintro n ⟨⟩
  arrive s e s' new hI hm := by
    obtain ⟨t, rfl, ha⟩ := arrive_arrival hm
    refine ⟨(ha.inv hI).1, ?_⟩
    rintro n ⟨⟩
    exact (ha.inv hI).2
  arriveOthers s e s' new u hI hm hu := by
    obtain ⟨t, rfl, ha⟩ := arrive_arrival hm
    refine ⟨(ha.others hu).1, ?_⟩
    rintro n ⟨⟩
    exact (ha.others hu).2

abbrev Holds (p : State) : Prop := p.Holds Inv Ok Apart

theorem holds_initial : Holds initial where
  shared := by
    refine ⟨⟨fun id row h => ?_, fun id row h => ?_, fun e r h => ?_⟩,
      fun tx _ => ⟨.none fun k v h => ?_, .none fun k v h => ?_⟩⟩
    all_goals cases h
  thread := by
    rintro t ⟨⟩
  apart := .nil

theorem step_holds {a : Action} (h : Holds p) (hs : step p a = some p') :
    Holds p' := program_keeps.step h hs

theorem step_extends {a : Action} (h : Holds p) (hs : step p a = some p') :
    p.shared.database.Extends p'.shared.database := by
  cases a with
  | resume i c =>
    obtain ⟨t, s, t', new, ht, hm, rfl⟩ := Pool.Program.step_resume_eq_some.mp hs
    exact (resume_effect hm).1.extends_ (h.thread t (List.mem_of_getElem? ht))
  | arrive e =>
    obtain ⟨s, new, hm, rfl⟩ := Pool.Program.step_arrive_eq_some.mp hs
    obtain ⟨t, -, ha⟩ := arrive_arrival hm
    cases ha <;> exact .refl _

theorem run_extends {as : List Action} (h : Holds p)
    (hr : run step p as = some p') : p.shared.database.Extends p'.shared.database := by
  induction as generalizing p with
  | nil =>
    cases hr
    exact .refl _
  | cons a as ih =>
    obtain ⟨q, hq, hr⟩ := run_cons_eq_some.mp hr
    exact (step_extends h hq).trans (ih (step_holds h hq) hr)

theorem isUsable_of_row {row : TokenRow}
    (hrow : σ.tokens.row id = some row) (h : row.isUsable now = true) :
    σ.database.IsUsable id now := by
  rw [TokenRow.isUsable, Bool.and_eq_true, Option.isNone_iff_eq_none, Option.all_eq_true] at h
  exact ⟨row, hrow, h.1, fun e he => of_decide_eq_true (h.2 e he)⟩

theorem isUsable_of_valid {id' : String} {presentedHash : List UInt8} {expiresAt : Option Time}
    (h : validateOpAMPToken (σ.tokens.row id) id presentedHash now = .valid id' expiresAt) :
    σ.database.IsUsable id now := by
  unfold validateOpAMPToken at h
  cases hrow : σ.tokens.row id with
  | none =>
    rw [hrow] at h
    cases h
  | some r =>
    simp only [hrow] at h
    split at h
    · cases h
    split at h
    · cases h
    next hno =>
    refine ⟨r, hrow, ?_, fun e he => not_le.mp fun hle => ?_⟩
    · exact Option.not_isSome_iff_eq_none.mp fun hrev => hno (.inr (.inl hrev))
    · exact hno (.inr (.inr ((Option.any_eq_true _ _).mpr ⟨e, he, decide_eq_true hle⟩)))

theorem isUsable_of_used {stage : UseStage} (hok : Ok σ (.markUsed tx id now stage))
    (hm : resumeMarkUsed σ tx id now stage c = some (σ', .returned .used, new)) :
    σ.database.IsUsable id now := by
  cases stage <;> simp only [resumeMarkUsed] at hm
  case beginning =>
    simp only [Shared.begin_] at hm
    split at hm <;> cases hm
  case locking =>
    rcases lockToken_cases hm with hm | hm | ⟨row, -, -, -, hm⟩
    · cases hm
    · cases hm
    · split at hm <;> cases hm
  case updating row =>
    rcases updateToken_cases hm with hm | ⟨used, -, hm⟩ <;> cases hm
  case committing row used =>
    obtain ⟨-, htoken, -, husable, -⟩ := hok.stands tx rfl
    cases htoken with
    | some hrow => exact isUsable_of_row hrow husable

/-- In every reachable state each token has exactly one create event, exactly one revoke event if
it is revoked and none otherwise, and every event has its mutation; revocations stay; at most one
call reports the revocation of a token as a change; and a call that accepts a token finds it
active and not expired. -/
theorem token_audit_atomicity {as : List Action} {p : State} (h : run step initial as = some p) :
    (∀ id row, p.shared.database.tokens id = some row →
      (∃! e, p.shared.database.IsEvent e "opamp.token.create" id) ∧
      (row.revocation.isSome = true → ∃! e, p.shared.database.IsEvent e "opamp.token.revoke" id) ∧
      (row.revocation = none → ∀ e, ¬ p.shared.database.IsEvent e "opamp.token.revoke" id)) ∧
    (∀ e r, p.shared.database.events e = some r → p.shared.database.Records r.event) ∧
    (∀ as' p', run step p as' = some p' → ∀ id row, p.shared.database.tokens id = some row →
      row.revocation.isSome = true →
        ∃ row', p'.shared.database.tokens id = some row' ∧ row'.revocation = row.revocation) ∧
    (∀ (i j : ℕ) id token token',
      p.threads[i]? = some (.returned (.revoked id token true)) →
      p.threads[j]? = some (.returned (.revoked id token' true)) → i = j) ∧
    (∀ i c p' id presentedHash now id' expiresAt,
      p.threads[i]? = some (.validate id presentedHash now) → step p (.resume i c) = some p' →
      p'.threads[i]? = some (.returned (.valid id' expiresAt)) →
        p.shared.database.IsUsable id now) ∧
    (∀ i c p' tx id now stage,
      p.threads[i]? = some (.markUsed tx id now stage) → step p (.resume i c) = some p' →
      p'.threads[i]? = some (.returned .used) → p.shared.database.IsUsable id now) := by
  have hp : Holds p := program_keeps.reachable ⟨as, h⟩ holds_initial
  have hdb := hp.shared.consistent
  refine ⟨fun id row hrow => ⟨hdb.created id row hrow, hdb.revoked id row hrow,
    hdb.not_isEvent_of_active hrow⟩, hdb.recorded, ?_, ?_, ?_, ?_⟩
  · intro as' p' hr id row hrow hrev
    obtain ⟨row', hrow', hev⟩ := run_extends hp hr id row hrow
    exact ⟨row', hrow', hev.revocation hrev⟩
  · intro i j id token token' hi hj
    by_contra hne
    exact (hp.apart_of_ne program_keeps.symm (Ne.symm hne) hi hj).change id rfl rfl
  · intro i c p' id presentedHash now id' expiresAt hi hs hi'
    obtain ⟨new, hm⟩ := Pool.Program.resume_of_step hi hs hi'
    simp only [program, resume, Option.some.injEq, Prod.mk.injEq, Thread.returned.injEq] at hm
    obtain ⟨-, hout, -⟩ := hm
    split at hout
    · exact isUsable_of_valid hout
    · cases hout
  · intro i c p' tx id now stage hi hs hi'
    obtain ⟨new, hm⟩ := Pool.Program.resume_of_step hi hs hi'
    exact isUsable_of_used (hp.thread _ (List.mem_of_getElem? hi)) hm

def tokenID : String := "00000000-0000-4000-8000-000000000002"

def createCall : CreateCall where
  id := tokenID
  token :=
    { name := "edge", description := "", team := "", environment := "", createdAt := 1,
      createdBy := "u1", expiresAt := some 100, lastUsedAt := none, revokedAt := none,
      revokedBy := "" }
  secretHash := List.replicate 32 7
  event :=
    { eventID := "00000000-0000-4000-8000-00000000000a", occurredAt := 1,
      action := "opamp.token.create", userID := "u1", email := "", resource := "opamp_token",
      resourceID := tokenID, detail := "" }

def revokeCall : RevokeCall where
  id := tokenID
  revokedBy := "u2"
  now := 5
  event :=
    { eventID := "00000000-0000-4000-8000-00000000000b", occurredAt := 5,
      action := "opamp.token.revoke", userID := "u2", email := "", resource := "opamp_token",
      resourceID := tokenID, detail := "" }

/-- A token is created; a use of it holds the lock while a revocation waits, and commits; then the
token is revoked. -/
def lifecycle : List Action :=
  [.arrive (.create createCall), .resume 0 {}, .resume 0 {}, .resume 0 {}, .resume 0 {},
    .arrive (.revoke revokeCall), .arrive (.markUsed tokenID 4), .resume 1 {}, .resume 2 {},
    .resume 2 {}, .resume 2 {}, .resume 2 {}, .resume 1 {}, .resume 1 {}, .resume 1 {},
    .resume 1 {}]

theorem token_audit_atomicity_revoked :
    ∃ p row, run step initial lifecycle = some p ∧
      p.shared.database.tokens tokenID = some row ∧ row.lastUsedAt = some 4 ∧
      row.revocation = some (5, "u2") ∧
      (∃! e, p.shared.database.IsEvent e "opamp.token.create" tokenID) ∧
      ∃! e, p.shared.database.IsEvent e "opamp.token.revoke" tokenID := by
  obtain ⟨p, hp, row, hrow, hused, hrev⟩ : ∃ p, run step initial lifecycle = some p ∧
      ∃ row, p.shared.database.tokens tokenID = some row ∧ row.lastUsedAt = some 4 ∧
        row.revocation = some (5, "u2") := by
    decide +kernel
  obtain ⟨hevents, -⟩ := token_audit_atomicity hp
  obtain ⟨hcreate, hrevoke, -⟩ := hevents tokenID row hrow
  exact ⟨p, row, hp, hrow, hused, hrev, hcreate, hrevoke (by rw [hrev]; rfl)⟩

theorem step_mutates {a : Action} (h : Holds p) (hs : step p a = some p') :
    p'.shared.database = p.shared.database ∨ p.shared.database.Mutation p'.shared.database ∧
      ∃ i c t, a = .resume i c ∧ p.threads[i]? = some t ∧ t.commits = true := by
  cases a with
  | resume i c =>
    obtain ⟨t, s, t', new, ht, hm, rfl⟩ := Pool.Program.step_resume_eq_some.mp hs
    have hok := h.thread t (List.mem_of_getElem? ht)
    cases (resume_effect hm).1 with
    | commit tx htx hc => exact .inr ⟨(hok.stands tx htx).mutation hc, i, c, t, rfl, ht, hc⟩
    | _ => exact .inl rfl
  | arrive e =>
    obtain ⟨s, new, hm, rfl⟩ := Pool.Program.step_arrive_eq_some.mp hs
    obtain ⟨t, -, ha⟩ := arrive_arrival hm
    cases ha <;> exact .inl rfl

/-- The statements of the calls refine whole mutations: from any state on, the committed rows go
through a sequence of them, each made by the commit of one call; and the row that a call has read
under its lock is the committed one until then. -/
theorem token_calls_serializable {as bs : List Action} {p q : State}
    (hp : run step initial as = some p) (hq : run step p bs = some q) :
    Relation.ReflTransGen Database.Mutation p.shared.database q.shared.database ∧
    (∀ a q', step q a = some q' → q'.shared.database ≠ q.shared.database →
      q.shared.database.Mutation q'.shared.database ∧
        ∃ i c t, a = .resume i c ∧ q.threads[i]? = some t ∧ t.commits = true) ∧
    ∀ t ∈ q.threads, ∀ id old new, t.draft.token = some (id, old, new) →
      q.shared.database.tokens id = old := by
  have hholds : Holds p := program_keeps.reachable ⟨as, hp⟩ holds_initial
  clear hp
  induction bs generalizing p with
  | cons a bs ih =>
    obtain ⟨p', hp', hq⟩ := run_cons_eq_some.mp hq
    obtain ⟨hmutations, hrest⟩ := ih hq (step_holds hholds hp')
    refine ⟨?_, hrest⟩
    rcases step_mutates hholds hp' with heq | ⟨hm, -⟩
    · exact heq ▸ hmutations
    · exact hmutations.head hm
  | nil =>
    cases hq
    refine ⟨.refl, fun a q' hs hne => (step_mutates hholds hs).resolve_left hne, ?_⟩
    intro t ht id old new hdraft
    cases htx : t.tx with
    | none => cases t <;> first | cases hdraft | cases htx
    | some tx =>
      have hstaged := ((hholds.thread t ht).stands tx htx).token
      rw [hdraft] at hstaged
      cases hstaged with
      | some hrow => exact hrow

theorem token_calls_serializable_lifecycle :
    ∃ p q, run step initial (lifecycle.take 7) = some p ∧
      run step p (lifecycle.drop 7) = some q ∧
      Relation.ReflTransGen Database.Mutation p.shared.database q.shared.database := by
  obtain ⟨p, hp, q, hq, -⟩ : ∃ p, run step initial (lifecycle.take 7) = some p ∧
      ∃ q, run step p (lifecycle.drop 7) = some q ∧ True := by decide +kernel
  exact ⟨p, q, hp, hq, (token_calls_serializable hp hq).1⟩

end OtelMagnify.TokenStore
