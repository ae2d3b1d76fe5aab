import TdsSession.Session.State
import TdsSession.Text.Numeral
import TdsSession.Wire.Capabilities
import TdsSession.Wire.Record

/-!
# Responses to a login

A server answers a login with a sequence of records that ends with a DONE
after which no more is announced. What the records say is gathered in a
`Response`, one record after the other. A record that cannot be read, or says
what it must not, is the end of the login; records of other types are passed
over.
-/

namespace TdsSession

/-- What a server has said so far in answer to a login. -/
structure Response where
  capabilities : Capabilities
  session : SessionState
  accepted : Bool := false
  /-- The first error that is more than a warning. -/
  error? : Option Error := none
  /-- The last target that the login was sent on to. -/
  routing? : Option Routing := none
  packetSize? : Option Nat := none
  partner? : Option String := none
  userInstance? : Option String := none
  /-- The changes that concern transactions. -/
  events : List EnvChange := []
deriving DecidableEq

/-- What a client does after a record: reads on, has read all, or sends a token and reads on. -/
inductive ResponseStep
  | more (r : Response)
  | complete (r : Response)
  | wantsToken (info : FedAuthInfo)
deriving DecidableEq

namespace Response

/-- The severity of the worst warning. -/
def maxWarning : UInt8 := 10

/-- The largest number a packet size is read as. -/
def maxPacketNumber : Nat := 0xFFFFFFFF

/-- Takes over an accepted login. -/
def takeLoginAck (r : Response) (ack : LoginAck) : Except ProtocolError Response := do
  let (capabilities, _) ← r.capabilities.acceptLogin ack
  return { r with capabilities, session := r.session.setVersion ack.version, accepted := true }

/-- Takes over an acknowledged feature. -/
def takeFeature (r : Response) (ack : FeatureAck) : Except ProtocolError Response := do
  let capabilities ← r.capabilities.acceptFeature ack
  let session ← if ack.id = Feature.sessionRecovery.id then r.session.record ack.payload else pure r.session
  return { r with capabilities, session }

/-- The packet size a text names. -/
def parsePacketSize (text : String) : Except ProtocolError Nat :=
  match Text.Numeral.parse maxPacketNumber text.toList with
  | some n => .ok n
  | none => .error (.malformedEnvChange EnvKind.packetSize.code ("invalid packet size: " ++ text))

/-- Takes over a change in the environment. -/
def takeChange (r : Response) (change : EnvChange) : Except ProtocolError Response :=
  let text := change.new.text?.getD ""
  match change.kind with
  | .database => .ok { r with session := r.session.setDatabase text }
  | .language => .ok { r with session := r.session.setLanguage text }
  | .packetSize => do
    let size ← parsePacketSize text
    return { r with packetSize? := some size }
  | .collation => do
    match ← change.collation with
    | some collation => return { r with session := r.session.setCollation collation }
    | none => return r
  | .mirroringPartner => .ok (if text.isEmpty then r else { r with partner? := some text })
  | .resetAck => .ok { r with session := r.session.reset }
  | .userInstance => .ok { r with userInstance? := some text }
  | .routing => do
    match change.routing? with
    | some target =>
      target.validate
      return { r with routing? := some target }
    | none => return r
  | kind => .ok (if kind.isTransaction then { r with events := r.events ++ [change] } else r)

/-- Takes over an error; warnings and all errors but the first change nothing. -/
def takeError (r : Response) (m : ServerMessage) : Response :=
  if maxWarning < m.severity ∧ r.error?.isNone then { r with error? := some (.ofMessage m) } else r

/-- Takes one record. -/
def take (r : Response) (record : Record) : Except ProtocolError ResponseStep :=
  match RecordKind.ofCode? record.code with
  | none => .ok (.more r)
  | some .loginAck => do
    let (ack, _) ← LoginAck.read record.body
    return .more (← r.takeLoginAck ack)
  | some .featureExtAck => do
    let (acks, _) ← FeatureAck.readList record.body
    return .more (← acks.foldlM takeFeature r)
  | some .envChange => do
    match ← EnvChange.read record.body with
    | (some change, _) => return .more (← r.takeChange change)
    | (none, _) => return .more r
  | some .error => do
    let (m, _) ← ServerMessage.read record.body
    return .more (r.takeError m)
  | some .info => do
    let _ ← ServerMessage.read record.body
    return .more r
  | some .sessionState => do
    let (token, _) ← StateToken.read record.body
    return .more { r with session := r.session.apply token }
  | some .fedAuthInfo => do
    let (info, _) ← FedAuthInfo.read record.body
    return .wantsToken info
  | some .done => do
    let (done, _) ← Done.read record.body
    return if done.status.hasMore then .more r else .complete r

end Response

end TdsSession
