import TdsSession.Login.Transport

/-!
# The world around a login

A login reaches out to servers and to providers of tokens, and it takes time.
All this is in one value, the world: the clock, what the clock on the wall
shows meanwhile, the state of whatever answers connection attempts, the
providers with the answers they have left, and the trace of what has been done
so far, newest first. An operation in the world gives a value or stops, and in
either case leaves the world as it is then.
-/

namespace TdsSession

/-- How a login ends. -/
inductive LoginOutcome
  | succeeded (onPartner : Bool)
  | failed (e : Error)
deriving DecidableEq, Repr

/-- What happens while a client logs in. Whatever passes over a transport carries the number of its
connection, and a call whether it got through. -/
inductive Event
  | began
  | ended (outcome : LoginOutcome)
  | connected (number : Nat) (target : Target) (timeout : Option Span)
  | handshake (number : Nat) (request : HandshakeRequest) (delivered : Bool)
  | acknowledged (number : Nat) (ack : HandshakeAnswer)
  | login (number : Nat) (request : LoginRequest) (delivered : Bool)
  | received (number : Nat) (record : Record)
  /-- The whole response to a login has been read. -/
  | answered (number : Nat)
  /-- A provider has been asked for a token. -/
  | asked (request : TokenRequest)
  /-- A token has been got, from a provider or from the cache. -/
  | tokenObtained (number : Nat)
  | token (number : Nat) (token : Bytes) (delivered : Bool)
  | disconnected (number : Nat) (delivered : Bool)
  /-- A sleep begins. -/
  | slept (span : Span)
  /-- The time budget of a login has been started anew. -/
  | restarted
deriving DecidableEq, Repr

/-- Whatever answers attempts to connect: by its state, the number of the connection, its target and
the time for the attempt, it gives an answer and its next state. -/
structure Server (σ : Type) where
  connect : σ → Nat → Target → Option Span → Delayed (Except Error Line) × σ

/-- The world around a login. -/
structure World (σ : Type) where
  now : Moment := 0
  /-- Until when the caller waits for what it has begun, if not for ever. -/
  patience : Option Moment := none
  /-- What the clock on the wall shows at each moment. -/
  wall : Moment → WallTime := fun _ => 0
  server : σ
  /-- How many connections have been tried. -/
  connects : Nat := 0
  providers : ProviderRegistry := []
  trace : List (Moment × Event) := []

/-- Why an operation stopped without a value. -/
inductive Stop
  | failed (e : Error)
  /-- The time for the attempt is up. -/
  | cut
  /-- The caller lost its patience. -/
  | abandoned
  /-- The clock cannot show the time. -/
  | overflow
  /-- Too many attempts. -/
  | exhausted
deriving DecidableEq, Repr

/-- An operation in the world. -/
abbrev WorldM (σ : Type) := ExceptT Stop (StateM (World σ))

namespace World

/-- What the clock on the wall shows now. -/
def wallTime (w : World σ) : WallTime := w.wall w.now

/-- The world after an event. -/
def record (w : World σ) (e : Event) : World σ := { w with trace := (w.now, e) :: w.trace }

/-- The trace, oldest event first. -/
def history (w : World σ) : List (Moment × Event) := w.trace.reverse

end World

namespace WorldM

/-- Notes an event. -/
def note (e : Event) : WorldM σ Unit := modify fun w => w.record e

/-- The value of a result, or a failure. -/
def ofExcept (r : Except Error α) : WorldM σ α :=
  match r with
  | .ok a => pure a
  | .error e => throw (.failed e)

/-- What it means that a wait was cut off at `now`: the time for the attempt is up if `deadline` has
come, and otherwise the caller has lost its patience. -/
def cutReason (deadline : Option Moment) (now : Moment) : Stop :=
  if deadline.any (· ≤ now) then .cut else .abandoned

/-- Waits for what is ready after a delay, no longer than until `deadline`. -/
def wait (delay : Option Span) (deadline : Option Moment) : WorldM σ Unit := do
  let w ← get
  match waitFrom w.now delay (earlier deadline w.patience) with
  | .ready t => set { w with now := t }
  | .cut t => do
    set { w with now := t }
    throw (cutReason deadline t)
  | .forever => throw .abandoned

/-- Sleeps; only the caller's patience ends it early. -/
def sleep (span : Span) : WorldM σ Unit := do
  note (.slept span)
  wait (some span) none

/-- Makes a call that is noted as `event` says, and waits for its answer. -/
def call (t : Transport) (answer : Call α) (event : (delivered : Bool) → Event)
    (deadline : Option Moment) : WorldM σ α := do
  let answer := t.answered answer
  note (event answer.delivered)
  wait answer.delay deadline
  ofExcept answer.value

/-- Opens a transport to a target. -/
def connect (server : Server σ) (target : Target) (timeout : Option Span)
    (deadline : Option Moment) : WorldM σ Transport := do
  let w ← get
  let number := w.connects + 1
  let (answer, next) := server.connect w.server number target timeout
  set { w.record (.connected number target timeout) with server := next, connects := number }
  wait answer.delay deadline
  let line ← ofExcept answer.value
  return { number, line }

def handshake (t : Transport) (request : HandshakeRequest) (deadline : Option Moment) :
    WorldM σ HandshakeAnswer := do
  let ack ← call t (t.line.handshake request) (.handshake t.number request) deadline
  note (.acknowledged t.number ack)
  return ack

def sendLogin (t : Transport) (request : LoginRequest) (deadline : Option Moment) : WorldM σ Unit :=
  call t (t.line.login request) (.login t.number request) deadline

def sendToken (t : Transport) (token : Bytes) (deadline : Option Moment) : WorldM σ Unit :=
  call t (t.line.token token) (.token t.number token) deadline

/-- Closes a transport. -/
def disconnect (t : Transport) (deadline : Option Moment) : WorldM σ Unit :=
  if t.isOpen || !t.line.disconnect.delivered then
    call t t.line.disconnect (.disconnected t.number) deadline
  else pure ()

/-- Closes a transport that is not needed any more, whatever comes of it. -/
def discard (t : Transport) (deadline : Option Moment) : WorldM σ Unit :=
  tryCatch (disconnect t deadline) fun
    | .failed _ => pure ()
    | s => throw s

/-- The next record, or nothing at the end of the stream; with the transport that is left. -/
def readRecord (t : Transport) (deadline : Option Moment) : WorldM σ (Option Record × Transport) := do
  if !t.isOpen then throw (.failed Transport.closedError)
  match t.line.records with
  | d :: rest =>
    wait d.delay deadline
    note (.received t.number d.value)
    return (some d.value, { t with line := { t.line with records := rest } })
  | [] =>
    wait t.line.ending.delay deadline
    ofExcept t.line.ending.value
    return (none, t)

end WorldM

end TdsSession
