import TdsSession.Address.Target
import TdsSession.Time.Wait
import TdsSession.Wire.Record

/-!
# Transports

A login talks to its server over a transport: it negotiates encryption, sends
the login, reads records, and sends a token if it is asked for one. A line is
all that one server will ever do on one transport, laid out beforehand: how it
answers each kind of call, what records it sends and when, and what comes
after the last of them. A client that always does the same after the same
answers cannot tell a server that decides as it goes from a line.
-/

namespace TdsSession

/-- What a client asks for before its login. -/
structure HandshakeRequest where
  encrypt : Bool
  mars : Bool
  /-- A token will be shown in the login or after it. -/
  fedAuth : Bool
  inst : Option String
deriving DecidableEq, Repr

/-- What a server grants before the login. -/
structure HandshakeAnswer where
  encryption : Bool
  fedAuth : Bool
deriving DecidableEq, Repr

/-- How a login announces a token. -/
inductive TokenAnnouncement
  /-- The token is in the login. -/
  | inLogin (token : String)
  /-- The token follows once the server has said where to get it. -/
  | onRequest
deriving DecidableEq, Repr

/-- What a client logs in with. -/
structure LoginRequest where
  version : TdsVersion
  packetSize : Nat
  workstation : String
  user : String
  password : String
  application : String
  server : String
  language : String
  database : String
  features : FeatureSet
  fedAuth : Option TokenAnnouncement
  /-- The request to carry a session over, as it is sent. -/
  recovery : Option Bytes
  readOnly : Bool
deriving DecidableEq, Repr

/-- The answer to a call: whether the server got the call, and what comes of it after a delay. -/
structure Call (α : Type) where
  delivered : Bool := true
  delay : Option Span := some 0
  value : Except Error α

namespace Call

/-- The call is answered at once. -/
def answer (value : α) : Call α := { value := .ok value }

/-- The call fails at once and does not get to the server. -/
def lost (e : Error) : Call α := { delivered := false, value := .error e }

end Call

/-- All that a server does on one transport. -/
structure Line where
  handshake : HandshakeRequest → Call HandshakeAnswer
  login : LoginRequest → Call Unit
  token : Bytes → Call Unit
  disconnect : Call Unit
  /-- The records, each with the delay after which it can be read. -/
  records : List (Delayed Record)
  /-- What comes after the last record: the end of the stream, or an error. -/
  ending : Delayed (Except Error Unit)

/-- One end of a connection; `line` is what the server will do from here on. -/
structure Transport where
  /-- The number of the connection among all that were made. -/
  number : Nat
  line : Line
  isOpen : Bool := true

namespace Transport

/-- The error of a call on a closed transport. -/
def closedError : Error := .io "transport used after disconnect"

/-- The answer to a call on this transport, if `answer` is that of its line. What is lost on the way
is lost on a closed transport too; nothing else gets through one. -/
def answered (t : Transport) (answer : Call α) : Call α :=
  if t.isOpen || !answer.delivered then answer else .lost closedError

/-- The transport after a disconnect that got through. -/
def closed (t : Transport) : Transport := { t with isOpen := false }

end Transport

end TdsSession
