import TdsSession.Bearer.Cache
import TdsSession.Login.Response
import TdsSession.Login.World
import TdsSession.Time.Budget

/-!
# Runs of a login

The state of one login while it runs: what it has tried, what it has learned,
and how much time it has left. It takes what it starts from out of the
connection it belongs to and the group whose connections share their tokens,
and what it leaves there is read off its last state.
-/

namespace TdsSession

/-- How far a login has come. -/
inductive LoginPhase
  | resolvingIdentity
  | connecting
  | handshakeNegotiation
  | loggingIn
  | awaitingFeatureAcks
  | open
  | routed
  /-- The last attempt failed, and may be repeated. -/
  | failedTransient
  | failedFatal
deriving DecidableEq, Repr

/-- Whether a token has been got in this login, and whether the time was extended because of it, which
happens once at most. -/
inductive TokenRetry
  | notStarted
  | hasToken
  | retrying
deriving DecidableEq, Repr

/-- What another token changes: only the first counts. -/
def TokenRetry.withToken : TokenRetry → TokenRetry
  | .notStarted => .hasToken
  | retry => retry

/-- What came of one attempt. -/
structure AttemptRecord where
  target : Target
  succeeded : Bool
  routedTo : Option Target
  error : Option ErrorKind
deriving DecidableEq, Repr

/-- What connections share. A group of its own serves one connection; that of a pool also remembers
which host of a pair answered last. -/
structure Group where
  pooled : Bool := false
  cache : TokenCache := []
  preferPartner : Bool := false
deriving DecidableEq, Repr

/-- The group after a login that succeeded, on the partner or not. -/
def Group.afterLogin (g : Group) (onPartner : Bool) : Group :=
  if g.pooled then { g with preferPartner := onPartner } else g

/-- What a successful login gives. -/
structure Established where
  transport : Transport
  target : Target
  capabilities : Capabilities
  state : SessionState
  packetSize : Nat
  partner : Option String
  userInstance : Option String
  /-- The host is the failover partner. -/
  onPartner : Bool := false
  events : List EnvChange

/-- The state of a login. -/
structure LoginRun (σ : Type) where
  world : World σ
  group : Group
  /-- The connection cannot be used any more. -/
  doomed : Bool := false
  budget : Budget
  phase : LoginPhase := .resolvingIdentity
  /-- How many redirects have been followed. -/
  redirects : Nat := 0
  tokenRetry : TokenRetry := .notStarted
  /-- The failover partner that a server has named last. -/
  partner : Option String := none
  /-- The attempts, last one first. -/
  attempts : List AttemptRecord := []
  /-- The state each attempt starts from, with the aliases looked up so far. -/
  base : SessionState := .new

/-- The login with its time budget started anew; the connection gets another chance. -/
def LoginRun.restarted (run : LoginRun σ) : LoginRun σ :=
  { run with
    budget := run.budget.restart run.world.now
    doomed := false
    tokenRetry := .retrying
    world := run.world.record .restarted }

/-- The login once a token has been got for a connection. -/
def LoginRun.withToken (run : LoginRun σ) (number : Nat) : LoginRun σ :=
  { run with
    world := run.world.record (.tokenObtained number)
    tokenRetry := run.tokenRetry.withToken }

/-- A step of a login. -/
abbrev LoginM (σ : Type) := ExceptT Stop (StateM (LoginRun σ))

namespace LoginM

/-- An operation in the world of the login. -/
def inWorld (m : WorldM σ α) : LoginM σ α := fun run =>
  match m run.world with
  | (r, world) => (r, { run with world })

/-- Fails with an error. -/
def fail (e : Error) : LoginM σ α := throw (.failed e)

def ofExcept : Except Error α → LoginM σ α
  | .ok a => pure a
  | .error e => fail e

/-- The result of time arithmetic. -/
def ofClock : Except Overflow α → LoginM σ α
  | .ok a => pure a
  | .error _ => throw .overflow

/-- What an operation gives, or its failure; it stops for other reasons. -/
def attempted (m : LoginM σ α) : LoginM σ (Except Error α) :=
  tryCatch (Except.ok <$> m) fun
    | .failed e => pure (.error e)
    | s => throw s

def enter (phase : LoginPhase) : LoginM σ Unit := modify fun run => { run with phase }

/-- Asks the time budget. -/
def askBudget (question : Budget → Moment → Except Overflow α) : LoginM σ α := do
  let run ← get
  ofClock (question run.budget run.world.now)

/-- The target that a data source stands for, with its alias looked up. -/
def resolve (c : Config) (source : DataSource) : LoginM σ Target := do
  let run ← get
  let (target, aliases) ← ofExcept (Target.resolve c true run.base.aliases source)
  set { run with base := { run.base with aliases } }
  return target

end LoginM

end TdsSession
