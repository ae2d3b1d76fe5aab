import TdsSession.Connection.Session
import TdsSession.Login.Login

/-!
# Connections

A connection owns one session. When the session breaks, the connection can
recover it: it logs in anew and carries the state of the session over. Until
that has succeeded the old session stays in place. Recovering and closing
need the connection for themselves and take its lock.
-/

namespace TdsSession

/-- A connection; `group` is what it shares with others. -/
structure Connection where
  config : Config
  shared : Shared
  session : Session
  group : Group
  /-- The attempts of the last login, oldest first. -/
  attempts : List AttemptRecord

/-- The connection and the world around it. -/
structure ConnectionRun (σ : Type) where
  world : World σ
  connection : Connection

/-- An operation on a connection. -/
abbrev ConnectionM (σ : Type) := ExceptT Stop (StateM (ConnectionRun σ))

/-- Logs in for the first time. The connection exists only if that succeeds. -/
def Connection.connect (server : Server σ) (attempts : Nat) (c : Config) (group : Group) (w : World σ) :
    Except Stop Connection × LoginRun σ :=
  let (result, run) := login server attempts { config := c, group } w
  let connection (e : Established) : Connection :=
    { config := c
      shared := { doomed := run.doomed }
      session := .ofLogin { e with state := e.state.rebase } c.mars
      group := run.group
      attempts := run.attempts.reverse }
  (result.map connection, run)

namespace ConnectionM

/-- An operation in the world of the connection. -/
def inWorld (m : WorldM σ α) : ConnectionM σ α := fun run =>
  match m run.world with
  | (r, world) => (r, { run with world })

def fail (e : Error) : ConnectionM σ α := throw (.failed e)

/-- What an operation gives, or its failure; it stops for other reasons. -/
def attempted (m : ConnectionM σ α) : ConnectionM σ (Except Error α) :=
  tryCatch (Except.ok <$> m) fun
    | .failed e => pure (.error e)
    | s => throw s

/-- Changes what the connection and its session share. -/
def share (f : Shared → Shared) : ConnectionM σ Unit :=
  modify fun run =>
    { run with connection := { run.connection with shared := f run.connection.shared } }

/-- Gives the lock back. -/
def unlock : ConnectionM σ Unit := share fun s => { s with lock := .freed }

/-- Takes the lock, which is bound to no thread; nobody gives it back while the connection waits. -/
def takeLock : ConnectionM σ Unit := do
  if (← get).connection.shared.lock.held then inWorld (WorldM.wait none none)
  share fun s => { s with lock := s.lock.taken }

/-- An operation under the lock, which is given back however the operation ends. -/
def underLock (m : ConnectionM σ α) : ConnectionM σ α := do
  takeLock
  let a ← tryCatch m fun s => do
    unlock
    throw s
  unlock
  return a

/-- Logs in to carry a session over. -/
def relogin (server : Server σ) (attempts : Nat) (previous : SessionState) : ConnectionM σ Established :=
  fun run =>
    let c := run.connection
    let (result, login) := login server attempts
      { config := c.config, previous := some previous, group := c.group, doomed := c.shared.doomed }
      run.world
    (result,
      { world := login.world
        connection :=
          { c with
            shared := { c.shared with doomed := login.doomed }
            group := login.group
            attempts := login.attempts.reverse } })

/-- Puts a session that has been carried over in the place of the broken one. -/
def resume (e : Established) : ConnectionM σ Unit := do
  let c := (← get).connection
  let session := Session.ofLogin { e with state := e.state.endRecovery } c.config.mars
  modify fun run => { run with connection := { run.connection with session } }
  inWorld (WorldM.discard c.session.transport none)
  share fun s => { s with doomed := false }

/-- Another login may succeed where this one failed. -/
def mayPass (e : Error) : Bool := e.isTransient || e.kind == .timeoutExpired

/-- Logs in until that succeeds, with a pause between two logins. -/
def relogins (server : Server σ) (attempts : Nat) (previous : SessionState) :
    (left : Nat) → ConnectionM σ Unit
  | 0 => fail .sessionNotRecoverable
  | left + 1 => do
    match ← attempted (relogin server attempts previous) with
    | .ok e => resume e
    | .error e =>
      if left = 0 || !mayPass e then fail e
      inWorld (WorldM.sleep (← get).connection.config.retry.recoveryPause)
      relogins server attempts previous left

/-- Recovers a broken session. -/
def recover (server : Server σ) (attempts : Nat) : ConnectionM σ Unit := do
  let c := (← get).connection
  if c.shared.closed then fail .connectionClosed
  if c.config.retry.recoveries = 0 || !c.session.state.isRecoverable then fail .sessionNotRecoverable
  underLock (relogins server attempts c.session.state c.config.retry.recoveries)

/-- Closes the transport for good. -/
def closeTransport : ConnectionM σ Unit := do
  share fun s => { s with closed := true }
  inWorld (WorldM.disconnect (← get).connection.session.transport none)

/-- Closes the connection on a thread. Where the thread holds the right to close, the lock is its own
already and stays with it. -/
def close (thread : Thread) : ConnectionM σ Unit := do
  if (← get).connection.shared.lock.ownsForClose thread then closeTransport
  else
    underLock do
      share fun s => { s with lock := s.lock.claimClose thread }
      closeTransport

end ConnectionM

end TdsSession
