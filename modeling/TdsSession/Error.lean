import TdsSession.Access.Lock
import TdsSession.Bearer.Error
import TdsSession.Wire.Error
import TdsSession.Wire.Message

/-!
# Errors of connections

Why a connection could not be made or used, and the classes of errors that
decide what happens next: whether a login is tried again, and whether the
connection can still be used.
-/

namespace TdsSession

/-- Why a connection could not be made or used. -/
inductive Error
  | protocol (e : ProtocolError)
  | authentication (e : AuthError)
  | server (number : Int32) (severity state : UInt8) (text : String) (server : Option String)
  | io (reason : String)
  /-- One attempt took too long. -/
  | connectTimeout (host : String)
  /-- The whole login took too long. -/
  | timeoutExpired
  /-- The whole login took too long; its last attempt failed with `last`. -/
  | timeoutExpiredAfter (last : Error)
  | routingLimitExceeded (max : Nat)
  | invalidPartnerConfiguration (reason : String)
  | sessionNotRecoverable
  | loginIncomplete (step : String)
  | notReady (reason : String)
  | connectionClosed
  | config (reason : String)
  | lock (e : LockError)
deriving DecidableEq, Repr

/-- The classes of errors. -/
inductive ErrorKind
  | protocolViolation
  | invalidVersion
  | authenticationFailure
  | transientServerError
  | serverError
  | transport
  | routingLimitExceeded
  | invalidRoutingInfo
  | timeoutExpired
  | tokenAcquisitionThrottled
  | invalidPartnerConfiguration
  | sessionNotRecoverable
  | configuration
  | unavailable
  | lock
deriving DecidableEq, Repr

namespace Error

/-- Errors of the server that may be gone at the next attempt: the database is not available, or the
server is busy or about to hand over. -/
def transientNumbers : List Int32 :=
  [4060, 4221, 10928, 10929, 40197, 40501, 40613, 42108, 42109]

/-- Errors of the server about who the client is. -/
def authFailureNumbers : List Int32 := [18456, 18486, 18487, 18488, 1346]

/-- The error of the server for a request that took too long. -/
def serverTimeoutNumber : Int32 := -2

/-- An ERROR of the server; a server without a name is none. -/
def ofMessage (m : ServerMessage) : Error :=
  .server m.number m.severity m.state m.text (if m.server.isEmpty then none else some m.server)

/-- The end of the time for a login, whose last attempt failed with `last` if it did. -/
def expired : Option Error → Error
  | some last => .timeoutExpiredAfter last
  | none => .timeoutExpired

def message : Error → String
  | .protocol e => "protocol error: " ++ e.message
  | .authentication e => "authentication failed: " ++ e.message
  | .server number _ _ text _ => s!"server error {number.toInt}: " ++ text
  | .io reason => "IO error: " ++ reason
  | .connectTimeout host => "connection attempt to " ++ host ++ " timed out"
  | .timeoutExpired => "login timeout expired"
  | .timeoutExpiredAfter last => "login timeout expired: " ++ last.message
  | .routingLimitExceeded max => s!"too many routing redirects (max {max})"
  | .invalidPartnerConfiguration reason => "invalid failover partner configuration: " ++ reason
  | .sessionNotRecoverable => "session state is not recoverable"
  | .loginIncomplete step => "login incomplete: " ++ step
  | .notReady reason => "session not ready: " ++ reason
  | .connectionClosed => "connection closed"
  | .config reason => "configuration error: " ++ reason
  | .lock e => "lock error: " ++ e.message

/-- The text of the error behind this one, if there is one. -/
def cause? : Error → Option String
  | .protocol e => some e.message
  | .authentication e => some e.message
  | .timeoutExpiredAfter last => some last.message
  | .lock e => some e.message
  | _ => none

/-- The class of an error. -/
def kind : Error → ErrorKind
  | .protocol e =>
    if e.isVersionError then .invalidVersion
    else if e.isRoutingError then .invalidRoutingInfo
    else .protocolViolation
  | .loginIncomplete _ => .protocolViolation
  | .authentication e => if e.isThrottled then .tokenAcquisitionThrottled else .authenticationFailure
  | .server number .. =>
    if number ∈ authFailureNumbers then .authenticationFailure
    else if number ∈ transientNumbers then .transientServerError
    else .serverError
  | .io _ | .connectTimeout _ | .connectionClosed => .transport
  | .timeoutExpired | .timeoutExpiredAfter _ => .timeoutExpired
  | .routingLimitExceeded _ => .routingLimitExceeded
  | .invalidPartnerConfiguration _ => .invalidPartnerConfiguration
  | .sessionNotRecoverable => .sessionNotRecoverable
  | .notReady _ => .unavailable
  | .config _ => .configuration
  | .lock _ => .lock

/-- The error may be gone at the next attempt. -/
def isTransient (e : Error) : Bool :=
  e.kind == .transientServerError || e.kind == .transport

/-- The client is not who it must be. -/
def isAuthFailure (e : Error) : Bool := e.kind == .authenticationFailure

/-- Something took too long: an attempt, a request at the server, or a token. -/
def isTimeout : Error → Bool
  | .connectTimeout _ => true
  | .server number .. => number == serverTimeoutNumber
  | .authentication e => e.isTimeout
  | _ => false

/-- The connection cannot be used any more. -/
def dooms (e : Error) : Bool :=
  e.kind == .protocolViolation || e.kind == .invalidVersion || e.kind == .invalidRoutingInfo

/-- The error of the server with the given number. -/
def isServerError (e : Error) (number : Int32) : Bool :=
  match e with
  | .server n .. => n == number
  | _ => false

end Error

end TdsSession
