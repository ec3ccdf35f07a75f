import OtelMagnify.Audit.Outbox
import OtelMagnify.Lib.Pool
import OtelMagnify.Lib.ReadCommitted

/-! Managed OpAMP tokens and their audit events (`internal/store/opamp_tokens.go`). Creating and
revoking a token inserts its audit event in the same transaction; the tables are read and locked
under READ COMMITTED, one step for each statement, and any statement may fail. -/
namespace OtelMagnify.TokenStore
open Push (Time trimSpace)
open Audit ReadCommitted

/-- `models.OpAMPToken` without the id and the derived status. -/
structure OpAMPToken where
  name : String
  description : String
  team : String
  environment : String
  createdAt : Time
  createdBy : String
  expiresAt : Option Time
  lastUsedAt : Option Time
  revokedAt : Option Time
  revokedBy : String
  deriving DecidableEq, Repr

/-- The columns of `opamp_tokens`; the id is the key. `revoked_at` and `revoked_by` are both null
or neither is. -/
structure Columns where
  name : String
  description : String
  team : String
  environment : String
  secretHash : List UInt8
  createdAt : Time
  createdBy : String
  expiresAt : Option Time
  lastUsedAt : Option Time
  revocation : Option (Time × String)
  deriving DecidableEq, Repr

/-- SQL's `trim` removes blanks only. -/
def trim (s : String) : List Char :=
  ((s.toList.dropWhile (· = ' ')).reverse.dropWhile (· = ' ')).reverse

/-- The `CHECK` constraints. -/
def Columns.isAllowed (t : Columns) : Bool :=
  1 ≤ (trim t.name).length && (trim t.name).length ≤ 128 && t.description.length ≤ 512 &&
    t.team.length ≤ 128 && t.environment.length ≤ 128 && t.secretHash.length = 32 &&
    trim t.createdBy ≠ [] && t.expiresAt.all (t.createdAt < ·) &&
    t.lastUsedAt.all (t.createdAt ≤ ·) &&
    t.revocation.all fun r => t.createdAt ≤ r.1 && trim r.2 ≠ []

structure TokenRow extends Columns where
  allowed : toColumns.isAllowed = true
  deriving DecidableEq, Repr

/-- A row with these columns, unless a `CHECK` rejects them. -/
def Columns.toRow (t : Columns) : Option TokenRow :=
  if h : t.isAllowed = true then some ⟨t, h⟩ else none

theorem Columns.toColumns_of_toRow {t : Columns} {row : TokenRow} (h : t.toRow = some row) :
    row.toColumns = t := by
  unfold toRow at h
  split at h <;> cases h
  rfl

/-- The name, the value and the byte limit of the fields that `validateTokenAuditEvent` checks. -/
def auditEventFields (event : AuditEvent) : List (String × String × ℕ) :=
  [("event_id", event.eventID, 128), ("action", event.action, 128),
    ("user_id", event.userID, 256), ("email", event.email, 320),
    ("resource", event.resource, 128), ("resource_id", event.resourceID, 256),
    ("detail", event.detail, 4096)]

def validateField (field : String × String × ℕ) : Except String Unit := do
  if field.2.1.toList.any fun c => c = '\r' || c = '\n' then
    throw (field.1 ++ " must not contain newlines")
  if field.2.2 < field.2.1.utf8ByteSize then
    throw (field.1 ++ " exceeds " ++ toString field.2.2 ++ " bytes")

def validateTokenAuditEvent (event : AuditEvent) (action tokenID actor : String)
    (occurredAt : Time) : Except String Unit := do
  if isCanonicalUUID event.eventID = false then throw "event_id must be a canonical UUID"
  validateUTCTime "occurred_at" event.occurredAt
  if event.occurredAt ≠ occurredAt then throw "occurred_at must match the token mutation time"
  if event.action ≠ action then throw ("action must be \"" ++ action ++ "\"")
  if event.resource ≠ "opamp_token" then throw "resource must be \"opamp_token\""
  if event.resourceID ≠ tokenID then throw "resource_id must match the token ID"
  if isCanonicalUUID event.resourceID = false then throw "resource_id must be a canonical UUID"
  if trimSpace actor = "" ∨ event.userID ≠ actor then
    throw "user_id must match the token mutation actor"
  if event.detail ≠ "" then throw "detail must be empty for token audit events"
  (auditEventFields event).forM validateField

structure CreateCall where
  id : String
  token : OpAMPToken
  secretHash : List UInt8
  event : AuditEvent
  deriving DecidableEq, Repr

structure RevokeCall where
  id : String
  revokedBy : String
  now : Time
  event : AuditEvent
  deriving DecidableEq, Repr

def CreateCall.validate (a : CreateCall) : Except String Unit := do
  if isCanonicalUUID a.id = false then throw "token ID must be a canonical UUID"
  validateUTCTime "created_at" a.token.createdAt
  (validateTokenAuditEvent a.event "opamp.token.create" a.id a.token.createdBy
    a.token.createdAt).mapError ("invalid audit event: " ++ ·)
  match a.token.expiresAt with
  | some expiresAt => validateUTCTime "expires_at" expiresAt
  | none => pure ()
  if a.token.lastUsedAt ≠ none ∨ a.token.revokedAt ≠ none ∨ a.token.revokedBy ≠ "" then
    throw "new token must not contain usage or revocation state"

def RevokeCall.validate (a : RevokeCall) : Except String Unit := do
  validateUTCTime "revoked_at" a.now
  (validateTokenAuditEvent a.event "opamp.token.revoke" a.id a.revokedBy a.now).mapError
    ("invalid audit event: " ++ ·)

def CreateCall.columns (a : CreateCall) : Columns where
  name := a.token.name
  description := a.token.description
  team := a.token.team
  environment := a.token.environment
  secretHash := a.secretHash
  createdAt := a.token.createdAt
  createdBy := a.token.createdBy
  expiresAt := a.token.expiresAt
  lastUsedAt := none
  revocation := none

/-- `SET revoked_at = $1, revoked_by = $2` -/
def Columns.revoke (t : Columns) (revokedAt : Time) (revokedBy : String) : Columns :=
  { t with revocation := some (revokedAt, revokedBy) }

/-- `SET last_used_at = $1` -/
def Columns.use (t : Columns) (lastUsedAt : Option Time) : Columns :=
  { t with lastUsedAt := lastUsedAt }

def opAMPTokenActivityWindow : Time := 30000000000

def dummyOpAMPTokenDigest : List UInt8 :=
  [0x9f, 0xd4, 0x17, 0xe6, 0x4e, 0x98, 0xa8, 0xce, 0x90, 0x2d, 0x43, 0x60, 0x78, 0x25, 0xf1, 0xe7,
    0x3a, 0x22, 0xb4, 0x1b, 0xa5, 0x12, 0xeb, 0x2c, 0x81, 0x21, 0xee, 0x47, 0x69, 0x2a, 0x34, 0xf8]

inductive CreateStage where
  | beginning
  | insertToken
  | insertEvent (row : TokenRow)
  | committing (row : TokenRow)
  deriving DecidableEq, Repr

/-- The later stages carry the row that was read under the lock. -/
inductive RevokeStage where
  | beginning
  | locking
  | updating (row : TokenRow)
  | insertEvent (row revoked : TokenRow)
  | committing (row revoked : TokenRow)
  deriving DecidableEq, Repr

inductive UseStage where
  | beginning
  | locking
  | updating (row : TokenRow)
  | committing (row used : TokenRow)
  deriving DecidableEq, Repr

/-- What a call returns. The text of an error that the store causes is followed by the store's
own. -/
inductive Outcome where
  | failed (text : String)
  | created
  | revoked (id : String) (token : Columns) (changed : Bool)
  | valid (id : String) (expiresAt : Option Time)
  | used
  deriving DecidableEq, Repr

inductive Thread where
  | create (tx : ℕ) (a : CreateCall) (stage : CreateStage)
  | revoke (tx : ℕ) (a : RevokeCall) (stage : RevokeStage)
  | validate (id : String) (presentedHash : List UInt8) (now : Time)
  | markUsed (tx : ℕ) (id : String) (now : Time) (stage : UseStage)
  | returned (outcome : Outcome)
  deriving DecidableEq, Repr

structure Shared where
  tokens : Table String TokenRow
  outbox : Table String OutboxRow
  nextTx : ℕ

/-- What the environment decides: whether the statement succeeds, and whether a failed commit took
effect. -/
structure Choice where
  ok : Bool := true
  committed : Bool := false
  deriving DecidableEq, Repr

abbrev Moved := Option (Shared × Thread × Option Thread)

namespace Shared

def abort (σ : Shared) (tx : ℕ) : Shared :=
  { σ with tokens := σ.tokens.abort tx, outbox := σ.outbox.abort tx }

def commit (σ : Shared) (tx : ℕ) : Shared :=
  { σ with tokens := σ.tokens.commit tx, outbox := σ.outbox.commit tx }

/-- `BeginTx` -/
def begin_ (σ : Shared) (next : Thread) (c : Choice) (text : String) : Moved :=
  some (σ, if c.ok then next else .returned (.failed text), none)

def fail (σ : Shared) (tx : ℕ) (text : String) : Moved :=
  some (σ.abort tx, .returned (.failed text), none)

def finish (σ : Shared) (tx : ℕ) (c : Choice) (outcome : Outcome) (text : String) : Moved :=
  if c.ok then some (σ.commit tx, .returned outcome, none)
  else some (if c.committed then σ.commit tx else σ.abort tx, .returned (.failed text), none)

/-- An `INSERT` of a row: it fails on a committed row with the key, and waits for another
transaction that is inserting one. -/
def insertInto {ρ : Type} (t : Table String ρ) (tx : ℕ) (key : String) (row : Option ρ)
    (ok : Bool) (failed : Moved) (inserted : Table String ρ → ρ → Moved) : Moved :=
  if (t.row key).isSome then failed
  else if t.isBlocked tx key then none
  else
    match row with
    | some r => if ok then inserted (t.put tx key (some r)) r else failed
    | none => failed

/-- A `SELECT ... FOR UPDATE`: it waits for the lock of the row that it sees. -/
def lockToken (σ : Shared) (tx : ℕ) (id : String) (where_ : TokenRow → Bool) (ok : Bool)
    (failed missing : Moved) (locked : Shared → TokenRow → Moved) : Moved :=
  match σ.tokens.row id with
  | none => if ok then missing else failed
  | some row =>
    if !where_ row then if ok then missing else failed
    else if σ.tokens.isBlocked tx id then none
    else if ok then locked { σ with tokens := σ.tokens.put tx id (some row) } row
    else failed

/-- An `UPDATE` of a row that the transaction has locked. -/
def updateToken (σ : Shared) (tx : ℕ) (id : String) (columns : Columns) (ok : Bool)
    (failed : Moved) (updated : Shared → TokenRow → Moved) : Moved :=
  match columns.toRow with
  | some row =>
    if ok then updated { σ with tokens := σ.tokens.put tx id (some row) } row else failed
  | none => failed

end Shared

def resumeCreate (σ : Shared) (tx : ℕ) (a : CreateCall) (stage : CreateStage) (c : Choice) :
    Moved :=
  match stage with
  | .beginning => σ.begin_ (.create tx a .insertToken) c "create OpAMP token: begin: "
  | .insertToken =>
    Shared.insertInto σ.tokens tx a.id a.columns.toRow c.ok
      (σ.fail tx "create OpAMP token: insert token: ")
      fun tokens row => some ({ σ with tokens := tokens }, .create tx a (.insertEvent row), none)
  | .insertEvent row =>
    Shared.insertInto σ.outbox tx a.event.eventID (some (.ofEvent a.event)) c.ok
      (σ.fail tx "create OpAMP token: insert audit outbox event: ")
      fun outbox _ => some ({ σ with outbox := outbox }, .create tx a (.committing row), none)
  | .committing _ =>
    σ.finish tx c .created "create OpAMP token: commit: transaction commit outcome unknown: "

def resumeRevoke (σ : Shared) (tx : ℕ) (a : RevokeCall) (stage : RevokeStage) (c : Choice) :
    Moved :=
  match stage with
  | .beginning => σ.begin_ (.revoke tx a .locking) c "revoke OpAMP token: begin: "
  | .locking =>
    σ.lockToken tx a.id (fun _ => true) c.ok (σ.fail tx "revoke OpAMP token: lock token: ")
      (σ.fail tx "OpAMP token not found") fun σ' row =>
        if row.revocation.isSome then
          some (σ'.abort tx, .returned (.revoked a.id row.toColumns false), none)
        else some (σ', .revoke tx a (.updating row), none)
  | .updating row =>
    σ.updateToken tx a.id (row.toColumns.revoke a.now a.revokedBy) c.ok
      (σ.fail tx "revoke OpAMP token: update token: ")
      fun σ' revoked => some (σ', .revoke tx a (.insertEvent row revoked), none)
  | .insertEvent row revoked =>
    Shared.insertInto σ.outbox tx a.event.eventID (some (.ofEvent a.event)) c.ok
      (σ.fail tx "revoke OpAMP token: insert audit outbox event: ")
      fun outbox _ =>
        some ({ σ with outbox := outbox }, .revoke tx a (.committing row revoked), none)
  | .committing _ revoked =>
    σ.finish tx c (.revoked a.id revoked.toColumns true)
      "revoke OpAMP token: commit: transaction commit outcome unknown: "

/-- `ValidateOpAMPToken` after its check of the id. -/
def validateOpAMPToken (row : Option TokenRow) (id : String) (presentedHash : List UInt8)
    (now : Time) : Outcome :=
  let comparisonDigest := (row.map fun r => r.secretHash).getD dummyOpAMPTokenDigest
  match row with
  | some r =>
    if r.secretHash.length ≠ dummyOpAMPTokenDigest.length then
      .failed "validate OpAMP token: stored digest has invalid length"
    else if presentedHash ≠ comparisonDigest ∨ r.revocation.isSome = true ∨
        r.expiresAt.any (· ≤ now) = true then .failed "invalid OpAMP token"
    else .valid id r.expiresAt
  | none => .failed "invalid OpAMP token"

/-- `revoked_at IS NULL AND (expires_at IS NULL OR expires_at > $2)` -/
def TokenRow.isUsable (now : Time) (row : TokenRow) : Bool :=
  row.revocation.isNone && row.expiresAt.all (now < ·)

/-- `MarkOpAMPTokenUsed` after its check of the id. -/
def resumeMarkUsed (σ : Shared) (tx : ℕ) (id : String) (now : Time) (stage : UseStage)
    (c : Choice) : Moved :=
  match stage with
  | .beginning => σ.begin_ (.markUsed tx id now .locking) c "mark OpAMP token used: begin: "
  | .locking =>
    σ.lockToken tx id (TokenRow.isUsable now) c.ok (σ.fail tx "mark OpAMP token used: lock token: ")
      (σ.fail tx "invalid OpAMP token") fun σ' row =>
        if row.lastUsedAt.all (· ≤ now - opAMPTokenActivityWindow) then
          some (σ', .markUsed tx id now (.updating row), none)
        else some (σ', .markUsed tx id now (.committing row row), none)
  | .updating row =>
    σ.updateToken tx id (row.toColumns.use (some now)) c.ok
      (σ.fail tx "mark OpAMP token used: update activity: ")
      fun σ' used => some (σ', .markUsed tx id now (.committing row used), none)
  | .committing _ _ => σ.finish tx c .used "mark OpAMP token used: commit: "

def resume (σ : Shared) (t : Thread) (c : Choice) : Moved :=
  match t with
  | .create tx a stage => resumeCreate σ tx a stage c
  | .revoke tx a stage => resumeRevoke σ tx a stage c
  | .validate id presentedHash now =>
    some (σ, .returned (if c.ok then validateOpAMPToken (σ.tokens.row id) id presentedHash now
      else .failed "validate OpAMP token: "), none)
  | .markUsed tx id now stage => resumeMarkUsed σ tx id now stage c
  | .returned _ => none

inductive Request where
  | create (a : CreateCall)
  | revoke (a : RevokeCall)
  | validate (id : String) (presentedHash : List UInt8) (now : Time)
  | markUsed (id : String) (now : Time)
  deriving DecidableEq, Repr

/-- The call makes its checks and goes on to its transaction, or returns at once. -/
def arrive (σ : Shared) (r : Request) : Option (Shared × Option Thread) :=
  let start (t : Thread) : Option (Shared × Option Thread) :=
    some ({ σ with nextTx := σ.nextTx + 1 }, some t)
  let reject (text : String) : Option (Shared × Option Thread) :=
    some (σ, some (.returned (.failed text)))
  match r with
  | .create a =>
    match a.validate with
    | .error e => reject ("create OpAMP token: " ++ e)
    | .ok () => start (.create σ.nextTx a .beginning)
  | .revoke a =>
    if isCanonicalUUID a.id = false then reject "OpAMP token not found"
    else
      match a.validate with
      | .error e => reject ("revoke OpAMP token: " ++ e)
      | .ok () => start (.revoke σ.nextTx a .beginning)
  | .validate id presentedHash now =>
    if isCanonicalUUID id = false then reject "invalid OpAMP token"
    else some (σ, some (.validate id presentedHash now))
  | .markUsed id now =>
    if isCanonicalUUID id = false then reject "invalid OpAMP token"
    else start (.markUsed σ.nextTx id now .beginning)

def program : Pool.Program Shared Thread Choice Request := ⟨resume, arrive⟩

abbrev State := Pool Shared Thread

abbrev Action := Pool.Label Choice Request

def step : State → Action → Option State := program.step

def initial : State := ⟨⟨.ofRows fun _ => none, .ofRows fun _ => none, 0⟩, []⟩

end OtelMagnify.TokenStore
