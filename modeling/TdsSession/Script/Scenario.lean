import TdsSession.Connection.Connection
import TdsSession.Script.Journal
import TdsSession.Script.Server
import TdsSession.Session.Action

/-!
# Scenarios

A client with any number of connections, each under a name, that takes one
step after the other against a scripted server. Besides connections there are
sessions that stand alone, with or without the connection they belonged to.
The client has one permit: while it holds the lock of one of them, taking
another lock gives the first one back. Each step gives a reply. A step that
does not end within the patience of the client is given up, and no other
follows.
-/

namespace TdsSession

/-- What a name stands for. -/
inductive Slot
  | connection (c : Connection)
  /-- A session that stands alone; `owner` is there until it is dropped. -/
  | session (s : Session) (owner : Option Shared)

namespace Slot

def toSession : Slot → Session
  | .connection c => c.session
  | .session s _ => s

def owner : Slot → Option Shared
  | .connection c => some c.shared
  | .session _ owner => owner

/-- The slot with another session. -/
def withSession (slot : Slot) (s : Session) : Slot :=
  match slot with
  | .connection c => .connection { c with session := s }
  | .session _ owner => .session s owner

/-- The slot with what is shared changed. -/
def share (slot : Slot) (f : Shared → Shared) : Slot :=
  match slot with
  | .connection c => .connection { c with shared := f c.shared }
  | .session s owner => .session s (owner.map f)

end Slot

/-- What a client may do, most of it under the name of a connection or a session. -/
inductive ClientStep
  | connect (c : Config)
  /-- Logs in a number of times, to carry a session over if there is one. -/
  | login (c : Config) (times : Nat) (previous : Option SessionState)
  | recover
  | close
  /-- Drops the connection of a session that stands alone. -/
  | dropOwner
  /-- Takes the lock of the connection, and the right to close it if `close`. -/
  | hold (close : Bool)
  /-- Gives back the lock that the client holds, under whatever name. -/
  | unhold
  | doom
  | clearDoomed
  /-- From here on transports report something else, where it is given. -/
  | report (dead pending : Option Bool)
  | disconnect
  | read
  | sendToken (token : Bytes)
  | beginResultSet
  | endResultSet
  | validate
  | takeEvents
  | act (a : SessionAction)
  | snapshot
  | sleep (span : Span)
  | recordLogin (onPartner : Bool)

/-- One of several logins. -/
structure LoginReply where
  phase : LoginPhase
  redirects : Nat
  attempts : List AttemptRecord
  doomed : Bool
  /-- The session, whether it was opened on the partner, and what keeps it from a request. -/
  result : Except Error (Session × Bool × Option Error)

/-- What a client is told. -/
inductive Reply
  | nothing
  | noSlot
  /-- The step was given up. -/
  | hang
  | flag (yes : Bool)
  | failed (e : Error)
  /-- A connection, and what keeps its session from a request. -/
  | connected (c : Connection) (obstacle : Option Error)
  | logins (all : List LoginReply)
  | recovered (result : Except Error Unit) (c : Connection) (obstacle : Option Error)
  | closed (result : Except Error Unit) (shared : Shared) (owned : Bool)
  | record (r : Option Record)
  | events (all : List EnvChange)
  | acted (result : Except ProtocolError (Option Bytes)) (state : SessionState)
  | snapshot (state : SessionState)

/-- The reply after a step, and when it came. -/
structure StepReport where
  time : Moment
  reply : Reply
  pool : Option Group

/-- A client and the world around it. -/
structure Scenario where
  server : Server LoginScript
  world : World LoginScript
  /-- How long the client waits for one step. -/
  patience : Span
  /-- How many attempts one login may make. -/
  attempts : Nat
  /-- The group of all connections, if they share one. -/
  pool : Option Group := none
  slots : Table String Slot := []
  /-- The name under which the client holds a lock. -/
  held : Option String := none
  wire : WireReport := {}

/-- A step of a client. -/
abbrev ScenarioM := ExceptT Stop (StateM Scenario)

namespace Scenario

/-- The thread on which all steps are taken. -/
def thread : Thread := "main"

/-- What keeps a session from a request. -/
def obstacle? (s : Scenario) (slot : Slot) : Option Error := slot.toSession.obstacle? slot.owner s.wire

end Scenario

namespace ScenarioM

def inWorld (m : WorldM LoginScript α) : ScenarioM α := fun s =>
  match m s.world with
  | (r, world) => (r, { s with world })

/-- What an operation gives, or its failure; it stops for other reasons. -/
def attempted (m : ScenarioM α) : ScenarioM (Except Error α) :=
  tryCatch (Except.ok <$> m) fun
    | .failed e => pure (.error e)
    | s => throw s

/-- Puts what has become of something back under its name. -/
def put (name : String) (slot : Slot) : ScenarioM Unit :=
  modify fun s => { s with slots := Table.set s.slots name slot }

/-- Lets go of what stands under a name. A lock that is held there goes with it, and nobody can wait
for it any more. -/
def clear (name : String) : ScenarioM Unit :=
  modify fun s =>
    { s with slots := Table.erase s.slots name, held := s.held.filter (· ≠ name) }

/-- Puts something new under a name. -/
def enter (name : String) (slot : Slot) : ScenarioM Unit := do
  clear name
  put name slot

/-- The group for a connection that has none of its own yet. -/
def group : ScenarioM Group := return (← get).pool.getD {}

/-- Keeps what a login has left in the group. -/
def keepGroup (g : Group) : ScenarioM Unit :=
  modify fun s => { s with pool := s.pool.map fun _ => g }

/-- Connects; a name that stands for something else does so until this has succeeded. -/
def connect (name : String) (c : Config) : ScenarioM Reply := do
  let s ← get
  let (result, run) := Connection.connect s.server s.attempts c (← group) s.world
  set { s with world := run.world }
  keepGroup run.group
  let connection ← MonadExcept.ofExcept result
  enter name (.connection connection)
  return .connected connection (s.obstacle? (.connection connection))

/-- Logs in a number of times, each time for another connection; all of them share `g` unless there
is a pool. -/
def logins (name : String) (c : Config) (previous : Option SessionState) :
    (times : Nat) → Group → ScenarioM (List LoginReply)
  | 0, _ => return []
  | times + 1, g => do
    let s ← get
    let (result, run) := login s.server s.attempts { config := c, previous, group := g } s.world
    set { s with world := run.world }
    keepGroup run.group
    let owner : Shared := { doomed := run.doomed }
    let result ← match result with
      | .ok e =>
        let slot := Slot.session (.ofLogin e c.mars) (some owner)
        enter name slot
        pure (.ok (slot.toSession, e.onPartner, s.obstacle? slot))
      | .error (.failed e) => pure (.error e)
      | .error stop => throw stop
    let reply : LoginReply :=
      { phase := run.phase, redirects := run.redirects, attempts := run.attempts.reverse,
        doomed := run.doomed, result }
    return reply :: (← logins name c previous times run.group)

/-- An operation on a connection; its changes are kept however it ends. -/
def onConnection (name : String) (c : Connection) (m : ConnectionM LoginScript α) :
    ScenarioM (Except Error α × Connection) := do
  let s ← get
  let (result, run) := m { world := s.world, connection := { c with group := s.pool.getD c.group } }
  set { s with world := run.world }
  keepGroup run.connection.group
  put name (.connection run.connection)
  match result with
  | .ok a => return (.ok a, run.connection)
  | .error (.failed e) => return (.error e, run.connection)
  | .error stop => throw stop

/-- A step of a connection. -/
def connectionStep (name : String) (c : Connection) : ClientStep → ScenarioM Reply
  | .recover => do
    let s ← get
    let (result, c) ← onConnection name c (ConnectionM.recover s.server s.attempts)
    return .recovered result c (s.obstacle? (.connection c))
  | .close => do
    let (result, c) ← onConnection name c (ConnectionM.close Scenario.thread)
    clear name
    return .closed result c.shared (c.shared.lock.ownsForClose Scenario.thread)
  | _ => return .noSlot

/-- Gives back the lock that the client holds, if it holds one. -/
def unhold : ScenarioM Unit := do
  let s ← get
  if let some name := s.held then
    if let some slot := Table.find? s.slots name then
      put name (slot.share fun shared => { shared with lock := .freed })
  modify fun s => { s with held := none }

/-- Takes the lock of a connection; the lock held until then is given back once that has succeeded. -/
def hold (name : String) (slot : Slot) (owner : Shared) (close : Bool) : ScenarioM Reply := do
  if owner.lock.held then inWorld (WorldM.wait none none)
  unhold
  let lock := if close then owner.lock.taken.claimClose Scenario.thread else owner.lock.taken
  put name (slot.share fun shared => { shared with lock })
  modify fun s => { s with held := some name }
  return .flag lock.held

/-- A step that needs the connection a session belongs to. -/
def ownerStep (name : String) (slot : Slot) (owner : Shared) : ClientStep → ScenarioM Reply
  | .hold close => hold name slot owner close
  | .doom => do
    put name (slot.share fun shared => { shared with doomed := true })
    return .flag true
  | .clearDoomed => do
    put name (slot.share fun shared => { shared with doomed := false })
    return .flag false
  | step =>
    match slot with
    | .connection c => connectionStep name c step
    | .session .. => return .noSlot

/-- A step of a session, in a connection or alone. -/
def sessionStep (name : String) (slot : Slot) (step : ClientStep) : ScenarioM Reply := do
  let session := slot.toSession
  let keep (s : Session) : ScenarioM Reply := do
    put name (slot.withSession s)
    return .nothing
  match step with
  | .disconnect => do
    if session.transport.line.disconnect.delivered then
      let _ ← keep { session with transport := session.transport.closed }
    inWorld (WorldM.disconnect session.transport none)
    return .nothing
  | .read => do
    let (record, transport) ← inWorld (WorldM.readRecord session.transport none)
    let _ ← keep { session with transport }
    return .record record
  | .sendToken token => do
    inWorld (WorldM.sendToken session.transport token none)
    return .nothing
  | .beginResultSet => keep session.beginResultSet
  | .endResultSet => keep session.endResultSet
  | .validate =>
    match (← get).obstacle? slot with
    | some e => return .failed e
    | none => return .nothing
  | .takeEvents => do
    let (events, session) := session.takeEvents
    let _ ← keep session
    return .events events
  | .act a => do
    let (state, result) := session.state.act a
    let _ ← keep { session with state }
    return .acted result state
  | .snapshot => return .snapshot session.state
  | .dropOwner => do
    if let .session s _ := slot then put name (.session s none)
    return .nothing
  | step =>
    match slot.owner with
    | some owner => ownerStep name slot owner step
    | none => return .noSlot

/-- One step under a name. -/
def step (name : String) : ClientStep → ScenarioM Reply
  | .connect c => connect name c
  | .login c times previous => do
    return .logins (← logins name c previous times (← group))
  | .report dead pending => do
    modify fun s => { s with wire := ⟨dead.getD s.wire.dead, pending.getD s.wire.pending⟩ }
    return .nothing
  | .sleep span => do
    inWorld (WorldM.wait (some span) none)
    return .nothing
  | .recordLogin onPartner => do
    modify fun s => { s with pool := s.pool.map (·.afterLogin onPartner) }
    return .nothing
  | .unhold => do
    unhold
    return .nothing
  | other => do
    match Table.find? (← get).slots name with
    | some slot => sessionStep name slot other
    | none => return .noSlot

end ScenarioM

namespace Scenario

/-- One step with the client's patience: the scenario afterwards, the reply, and whether another step
may follow. -/
def step (s : Scenario) (name : String) (step : ClientStep) :
    Except Overflow (Scenario × StepReport × Bool) :=
  let limit := s.world.now + s.patience
  let (result, s) := ScenarioM.step name step { s with world := { s.world with patience := some limit } }
  let report (reply : Reply) (goesOn : Bool) : Except Overflow (Scenario × StepReport × Bool) :=
    .ok (s, { time := s.world.now, reply, pool := s.pool }, goesOn)
  match result with
  | .ok reply => report reply true
  | .error (.failed e) => report (.failed e) true
  | .error .overflow => .error .overflow
  | .error _ => report .hang false

/-- Takes steps, one after the other. -/
def run (s : Scenario) : List (String × ClientStep) → Except Overflow (List StepReport × Scenario)
  | [] => .ok ([], s)
  | (name, step) :: rest => do
    let (s, report, goesOn) ← s.step name step
    if goesOn then
      let (reports, s) ← s.run rest
      return (report :: reports, s)
    return ([report], s)

/-- What the server got to see. -/
def journal (s : Scenario) : Journal := .ofTrace s.world.trace

end Scenario

end TdsSession
