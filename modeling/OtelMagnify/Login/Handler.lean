import Mathlib.Logic.Function.Basic
import OtelMagnify.Lib.FixedWindow
import OtelMagnify.Lib.Pool

/-! The login handler and its rate limiter. Requests run concurrently; the calls of the limiter
are critical sections, and between them lie the lookup of the user, the password check and the
audit event, each with an outcome of its own. -/
namespace OtelMagnify.Login

abbrev Time := ℕ

def loginRateLimitMaxFailures : ℕ := 5

/-- `time.Minute` -/
def loginRateLimitWindow : Time := 60000000000

/-- `loginFailureWindow`: a count and the time of the first failure. -/
abbrev LoginFailureWindow := FixedWindow.Window

abbrev Failures := String → Option LoginFailureWindow

def allow (l : Failures) (now : Time) (key : String) : Bool × Failures :=
  if key = "" then (true, l)
  else
    match l key with
    | none => (true, l)
    | some window =>
      if loginRateLimitWindow < now - window.first then (true, Function.update l key none)
      else (window.count < loginRateLimitMaxFailures, l)

def recordFailure (l : Failures) (now : Time) (key : String) : Failures :=
  if key = "" then l
  else
    match l key with
    | none => Function.update l key (some { count := 1, first := now })
    | some window =>
      if loginRateLimitWindow < now - window.first then
        Function.update l key (some { count := 1, first := now })
      else Function.update l key (some { window with count := window.count + 1 })

def reset (l : Failures) (key : String) : Failures :=
  if key = "" then l else Function.update l key none

structure LoginRequest where
  email : String
  password : String
  deriving DecidableEq, Repr

structure User where
  id : String
  email : String
  passwordHash : String
  deriving DecidableEq, Repr

/-- Where the handler ends, by what it responds. -/
inductive Response where
  | tooManyRequests | auditUnavailable | invalidCredentials | groupsFailed | tokenFailed | token
  deriving DecidableEq, Repr

/-- What `handleLogin` does next for a request that it has read. -/
inductive Phase where
  | lookup
  | compare (user : User)
  | audit
  | record
  | reset (user : User)
  | issue (user : User)
  | responded (response : Response)
  deriving DecidableEq, Repr

structure Thread where
  key : String
  request : LoginRequest
  phase : Phase
  deriving DecidableEq, Repr

/-- What happened for a key: a failed password check, or the start of a window by
`recordFailure`. -/
structure Event where
  key : String
  time : Time
  what : FixedWindow.Happening
  deriving DecidableEq, Repr

structure State where
  now : Time := 0
  failures : Failures := fun _ => none
  /-- Everything that happened, the latest first; the program does not read it. -/
  log : List Event := []

def State.window? (s : State) (key : String) : Option LoginFailureWindow :=
  (s.failures key).filter fun w => s.now - w.first ≤ loginRateLimitWindow

def State.count (s : State) (key : String) : ℕ := ((s.window? key).map (·.count)).getD 0

def State.fail (s : State) (key : String) : State :=
  { s with log := ⟨key, s.now, .failed (s.window? key).isSome⟩ :: s.log }

def State.recordFailure (s : State) (key : String) : State :=
  { s with
    failures := Login.recordFailure s.failures s.now key
    log := if key = "" ∨ (s.window? key).isSome then s.log else ⟨key, s.now, .opened⟩ :: s.log }

inductive Move where
  | getUserByEmail (user : Option User)
  | compareHashAndPassword
  | emitFailure (ok : Bool)
  | recordFailure
  | reset
  /-- `GetUserGroups`, `GenerateToken` and the audit event of a login. -/
  | issue (groups token audit : Bool)
  deriving DecidableEq, Repr

/-- What the environment does: it sends a request, which is none when `decodeJSONBody` rejects its
body, and time passes. -/
inductive Arrival where
  | request (key : String) (body : Option LoginRequest)
  | tick (d : Time)
  deriving DecidableEq, Repr

section Program

-- `bcrypt` is `bcrypt.CompareHashAndPassword`
variable (bcrypt : String → String → Bool)

def resume (s : State) (t : Thread) (m : Move) : Option (State × Thread × Option Thread) :=
  let go (s : State) (phase : Phase) := some (s, { t with phase }, none)
  match t.phase, m with
  | .lookup, .getUserByEmail (some user) => go s (.compare user)
  | .lookup, .getUserByEmail none => go (s.fail t.key) .audit
  | .compare user, .compareHashAndPassword =>
    if bcrypt user.passwordHash t.request.password then go s (.reset user)
    else go (s.fail t.key) .audit
  | .audit, .emitFailure true => go s .record
  | .audit, .emitFailure false => go s (.responded .auditUnavailable)
  | .record, .recordFailure => go (s.recordFailure t.key) (.responded .invalidCredentials)
  | .reset user, .reset => go { s with failures := Login.reset s.failures t.key } (.issue user)
  | .issue _, .issue groups token audit =>
    go s (.responded (if ¬groups then .groupsFailed else if ¬token then .tokenFailed
      else if ¬audit then .auditUnavailable else .token))
  | _, _ => none

def arrive (s : State) : Arrival → Option (State × Option Thread)
  | .request key body =>
    match body with
    | none => some (s, none)
    | some request =>
      if request.email = "" ∨ request.password = "" then some (s, none)
      else
        let (allowed, failures) := allow s.failures s.now key
        let phase := if allowed then .lookup else .responded .tooManyRequests
        some ({ s with failures }, some { key, request, phase })
  | .tick d => some ({ s with now := s.now + d }, none)

def handleLogin : Pool.Program State Thread Move Arrival where
  resume := resume bcrypt
  arrive := arrive

end Program

end OtelMagnify.Login
