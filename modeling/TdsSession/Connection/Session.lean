import TdsSession.Access.Lock
import TdsSession.Login.Run

/-!
# Open sessions

A session is an open transport with all that its login has settled. It
belongs to a connection, which may be gone before it, and it takes a new
request only if nothing stands in the way.
-/

namespace TdsSession

/-- What a connection and its session share. -/
structure Shared where
  lock : AccessLock := {}
  /-- The connection cannot be used any more. -/
  doomed : Bool := false
  closed : Bool := false
deriving DecidableEq, Repr

/-- What transports report about themselves. -/
structure WireReport where
  /-- The other end is gone. -/
  dead : Bool := false
  /-- There is unread data. -/
  pending : Bool := false
deriving DecidableEq, Repr

/-- An open session. -/
structure Session where
  transport : Transport
  target : Target
  capabilities : Capabilities
  state : SessionState
  packetSize : Nat
  mars : Bool
  partner : Option String
  userInstance : Option String
  /-- How many result sets are open. -/
  liveSets : Nat := 0
  /-- The changes that concern transactions and have not been taken yet. -/
  events : List EnvChange

namespace Session

/-- The session that a login has opened. -/
def ofLogin (e : Established) (mars : Bool) : Session where
  transport := e.transport
  target := e.target
  capabilities := e.capabilities
  state := e.state
  packetSize := e.packetSize
  mars
  partner := e.partner
  userInstance := e.userInstance
  events := e.events

/-- Why a new request cannot be sent, if it cannot. `owner` is the connection, unless it is gone. -/
def obstacle? (s : Session) (owner : Option Shared) (wire : WireReport) : Option Error :=
  match owner with
  | none => some .connectionClosed
  | some owner =>
    if owner.closed || !s.transport.isOpen || wire.dead then some .connectionClosed
    else if owner.doomed then some (.notReady "connection is broken")
    else if 0 < s.liveSets ∧ !s.mars then some (.notReady "another result set is still open")
    else if wire.pending then some (.notReady "unread data is pending")
    else none

/-- A result set has begun. -/
def beginResultSet (s : Session) : Session := { s with liveSets := s.liveSets + 1 }

/-- A result set has ended. -/
def endResultSet (s : Session) : Session := { s with liveSets := s.liveSets - 1 }

/-- Takes the changes that concern transactions. -/
def takeEvents (s : Session) : List EnvChange × Session := (s.events, { s with events := [] })

end Session

end TdsSession
