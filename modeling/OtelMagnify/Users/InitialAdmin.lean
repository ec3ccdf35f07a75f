import OtelMagnify.Lib.GoText
import OtelMagnify.Lib.LockTable
import OtelMagnify.Lib.Pool

/-! Creating users and the first administrator (`internal/store/users.go`). Calls run concurrently
against one database, one step for each statement, and any statement may fail. A plain insert holds
a `ROW EXCLUSIVE` lock on the table until its transaction ends, `CreateInitialAdmin` a
`SHARE ROW EXCLUSIVE` one. -/
namespace OtelMagnify.Users

structure User where
  id : String
  email : String
  passwordHash : String
  tenantID : Option String
  deriving DecidableEq, Repr

/-- A row of `groups`, without the columns that are not read here. -/
structure Group where
  id : String
  name : String
  deriving DecidableEq, Repr

inductive Mode where
  | rowExclusive | shareRowExclusive
  deriving DecidableEq, Repr

/-- Inserts do not wait for each other. -/
def Mode.conflicts : Mode → Mode → Bool
  | .rowExclusive, .rowExclusive => false
  | _, _ => true

/-- The committed rows, and what the transactions hold that have not ended. -/
structure State where
  users : List User := []
  groups : List Group
  userGroups : List (String × String) := []
  lock : LockTable Mode.conflicts := {}
  pending : List (ℕ × User) := []
  transactions : ℕ := 0

namespace State

/-- An `INSERT` into `users`. A row that is there is a violation of a unique constraint, one that
another transaction has inserted is waited for. -/
def insert (s : State) (tx : ℕ) (u : User) : Option State :=
  if (s.pending.map (·.2) ++ s.users).any fun x => x.id = u.id || x.email = u.email then none
  else some { s with pending := (tx, u) :: s.pending }

def rollback (s : State) (tx : ℕ) : State :=
  { s with lock := s.lock.release tx, pending := s.pending.filter (·.1 ≠ tx) }

def commit (s : State) (tx : ℕ) (u : User) (memberships : List (String × String)) : State :=
  { s.rollback tx with
    users := s.users ++ [u]
    userGroups := s.userGroups ++ memberships }

def isAdministrator (s : State) (id : String) : Bool :=
  s.groups.any fun g => g.name = "administrator" && s.userGroups.contains (id, g.id)

end State

inductive CreateUserPhase where
  | insert
  | commit
  | returned (err : Option String)
  deriving DecidableEq, Repr

inductive InitialAdminPhase where
  | begin
  | lockUsers
  | findEmail
  | checkMembership (existingID : String)
  | countUsers
  | loadGroup
  | insertUser (groupID : String)
  | attachGroup (groupID : String)
  | commit (groupID : String)
  | returned (created : Bool) (err : Option String)
  deriving DecidableEq, Repr

inductive Thread where
  | createUser (tx : ℕ) (user : User) (phase : CreateUserPhase)
  | createInitialAdmin (tx : ℕ) (user : User) (phase : InitialAdminPhase)
  deriving DecidableEq, Repr

def Thread.tx : Thread → ℕ
  | .createUser tx _ _ | .createInitialAdmin tx _ _ => tx

/-- How a statement ends. The answer to a commit may be lost after it has taken effect. -/
inductive Outcome where
  | ok
  | fails (err : String)
  | unacknowledged (err : String)
  deriving DecidableEq, Repr

/-- `CreateUser`: one statement in a transaction of its own. -/
def createUser (s : State) (tx : ℕ) (user : User) :
    CreateUserPhase → Outcome → Option (State × CreateUserPhase)
  | .insert, .ok => do
    let lock ← s.lock.acquire tx .rowExclusive
    let s ← { s with lock }.insert tx user
    return (s, .commit)
  | .insert, .fails err => some (s.rollback tx, .returned (some err))
  | .commit, .ok => some (s.commit tx user [], .returned none)
  | .commit, .fails err => some (s.rollback tx, .returned (some err))
  | .commit, .unacknowledged err => some (s.commit tx user [], .returned (some err))
  | _, _ => none

def InitialAdminPhase.context : InitialAdminPhase → String
  | .begin => "begin"
  | .lockUsers => "lock users"
  | .findEmail => "find existing email"
  | .checkMembership _ => "check administrator membership"
  | .countUsers => "count users"
  | .loadGroup => "load administrator group"
  | .insertUser _ => "insert user"
  | .attachGroup _ => "attach administrator group"
  | .commit _ => "commit"
  | .returned _ _ => ""

section CreateInitialAdmin

-- `isPrint` is the table `strconv.IsPrint`
variable (isPrint : Char → Bool)

/-- The deferred rollback and the result of `CreateInitialAdmin`. -/
def giveUp (s : State) (tx : ℕ) (err : Option String) : Option (State × InitialAdminPhase) :=
  some (s.rollback tx, .returned false (err.map ("create initial admin: " ++ ·)))

def createInitialAdmin (s : State) (tx : ℕ) (user : User) :
    InitialAdminPhase → Outcome → Option (State × InitialAdminPhase)
  | .begin, .ok => some (s, .lockUsers)
  | .lockUsers, .ok => do
    let lock ← s.lock.acquire tx .shareRowExclusive
    return ({ s with lock }, .findEmail)
  | .findEmail, .ok =>
    match s.users.find? (·.email = user.email) with
    | some existing => some (s, .checkMembership existing.id)
    | none => some (s, .countUsers)
  | .checkMembership existingID, .ok =>
    if s.isAdministrator existingID then giveUp s tx none
    else giveUp s tx (some ("user " ++ GoText.quote isPrint user.email ++
      " already exists without administrator membership"))
  | .countUsers, .ok =>
    if s.users.length ≠ 0 then giveUp s tx (some "database already contains a user")
    else some (s, .loadGroup)
  | .loadGroup, .ok =>
    match s.groups.find? (·.name = "administrator") with
    | none => giveUp s tx (some "administrator group is missing: sql: no rows in result set")
    | some g => some (s, .insertUser g.id)
  | .insertUser groupID, .ok => (s.insert tx user).map (·, .attachGroup groupID)
  | .attachGroup groupID, .ok =>
    if s.userGroups.contains (user.id, groupID) then none else some (s, .commit groupID)
  | .commit groupID, .ok => some (s.commit tx user [(user.id, groupID)], .returned true none)
  | .commit groupID, .unacknowledged err =>
    some (s.commit tx user [(user.id, groupID)],
      .returned false (some ("create initial admin: commit: " ++ err)))
  | .returned _ _, _ | _, .unacknowledged _ => none
  | phase, .fails err => giveUp s tx (some (phase.context ++ ": " ++ err))

end CreateInitialAdmin

inductive Call where
  | createUser (user : User)
  | createInitialAdmin (user : User)
  deriving DecidableEq, Repr

def Call.start (tx : ℕ) : Call → Thread
  | .createUser user => .createUser tx user .insert
  | .createInitialAdmin user => .createInitialAdmin tx user .begin

def calls (isPrint : Char → Bool) : Pool.Program State Thread Outcome Call where
  resume s t o :=
    match t with
    | .createUser tx user phase =>
      (createUser s tx user phase o).map fun r => (r.1, .createUser tx user r.2, none)
    | .createInitialAdmin tx user phase =>
      (createInitialAdmin isPrint s tx user phase o).map fun r =>
        (r.1, .createInitialAdmin tx user r.2, none)
  arrive s call :=
    some ({ s with transactions := s.transactions + 1 }, some (call.start s.transactions))

end OtelMagnify.Users
