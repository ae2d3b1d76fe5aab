import TdsSession.Wire.FeatureAck
import TdsSession.Wire.LoginAck
import TdsSession.Wire.StateRecord

/-!
# Capabilities

What a server has acknowledged in the course of one login: its protocol
version, and the optional features. Each acknowledgement is checked in full
before anything is taken over from it, so a refused one leaves no trace.
-/

namespace TdsSession

/-- What came of the request for data classification. -/
inductive DataClassification
  | notAcknowledged
  | disabled
  | enabled (version : UInt8)
deriving DecidableEq, Repr

/-- The capabilities of one login. -/
structure Capabilities where
  requested : FeatureSet
  protocolVersion : Option TdsVersion := none
  serverVersion : Option ServerVersion := none
  serverName : String := ""
  sessionRecovery : Bool := false
  fedAuth : Bool := false
  utf8 : Bool := false
  dnsCaching : Bool := false
  dataClassification : DataClassification := .notAcknowledged
  encryptionVersion : Option UInt8 := none
  enclaveType : Option String := none
  globalTransactionsAvailable : Bool := false
  globalTransactionsEnabled : Bool := false
  azureSql : Bool := false
  readOnlyFailover : Bool := false
  jsonVersion : Option UInt8 := none
  vectorVersion : Option UInt8 := none
  enhancedRouting : Bool := false
deriving DecidableEq, Repr

namespace Capabilities

/-- Nothing acknowledged yet. -/
def empty (requested : FeatureSet) : Capabilities := { requested }

/-- Forgets everything but the request. -/
def reset (c : Capabilities) : Capabilities := empty c.requested

/-- The generation of the server, by its protocol version. -/
def generation? (c : Capabilities) : Option Generation :=
  c.protocolVersion.bind TdsVersion.generation?

/-- The server is known to belong to generation `g` or a later one. -/
def isAtLeast (c : Capabilities) (g : Generation) : Bool :=
  match c.generation? with
  | some h => g.rank ≤ h.rank
  | none => false

/-- The generation of an accepted version. -/
def validateVersion (v : TdsVersion) : Except ProtocolError Generation :=
  match v.generation? with
  | some g => .ok g
  | none => .error (.unsupportedProtocolVersion v.raw)

/-- Takes over an accepted login. -/
def acceptLogin (c : Capabilities) (ack : LoginAck) :
    Except ProtocolError (Capabilities × Generation) := do
  let g ← validateVersion ack.version
  return ({ c with
    protocolVersion := some ack.version
    serverVersion := some ack.serverVersion
    serverName := ack.program }, g)

/-- Refuses a feature that was not requested. -/
def requireRequested (c : Capabilities) (f : Feature) : Except ProtocolError Unit :=
  if c.requested.contains f.flag then .ok () else .error (.unrequestedFeature f.id)

/-- The first byte of a payload of at least one byte. -/
def firstByte (f : Feature) : Bytes → Except ProtocolError UInt8
  | b :: _ => .ok b
  | [] => .error (.featureLength f.id 1 0)

/-- The byte of a payload of exactly one. -/
def onlyByte (f : Feature) : Bytes → Except ProtocolError UInt8
  | [b] => .ok b
  | payload => .error (.featureLength f.id 1 payload.length)

/-- Refuses a version of a feature that this client does not speak. -/
def requireVersion (f : Feature) (v : UInt8) : Except ProtocolError Unit :=
  if v = 0 ∨ f.maxVersion < v then .error (.unsupportedFeatureVersion f v) else .ok ()

/-- A version byte in which zero means that the feature is absent. -/
def versionOrAbsent (f : Feature) (payload : Bytes) : Except ProtocolError (Option UInt8) := do
  let v ← onlyByte f payload
  if v = 0 then return none
  requireVersion f v
  return some v

/-- The enclave type after a version byte and a length byte, in UTF-16. -/
def readEnclave (payload : Bytes) : Except ProtocolError (Option String) :=
  let name := payload.drop 2
  if name.isEmpty then .ok none
  else
    match Varchar.ofBytes name with
    | .ok text => .ok (some text)
    | .error _ => .error (.malformedFeature Feature.columnEncryption.id .enclaveNotUtf16)

/-- Takes over the payload of a known feature. -/
def acceptKnown (c : Capabilities) (f : Feature) (payload : Bytes) :
    Except ProtocolError Capabilities := do
  match f with
  | .sessionRecovery =>
    c.requireRequested f
    let _ ← StateRecord.readAll payload
    return { c with sessionRecovery := true }
  | .fedAuth =>
    c.requireRequested f
    if payload.isEmpty then return { c with fedAuth := true }
    throw (.malformedFeature f.id .tokenWorkflowData)
  | .columnEncryption =>
    let v ← firstByte f payload
    requireVersion f v
    let enclave ← readEnclave payload
    return { c with encryptionVersion := some v, enclaveType := enclave }
  | .globalTransactions =>
    let b ← firstByte f payload
    return { c with globalTransactionsAvailable := true, globalTransactionsEnabled := b == 1 }
  | .azureSqlSupport =>
    let b ← firstByte f payload
    return { c with azureSql := true, readOnlyFailover := b &&& 0x01 != 0 }
  | .dataClassification =>
    match payload with
    | [v, enabled] =>
      if enabled = 0 then return { c with dataClassification := .disabled }
      requireVersion f v
      return { c with dataClassification := .enabled v }
    | _ => throw (.featureLength f.id 2 payload.length)
  | .utf8Support =>
    let b ← firstByte f payload
    return { c with utf8 := b &&& 0x01 != 0 }
  | .dnsCaching =>
    let b ← firstByte f payload
    return { c with dnsCaching := b &&& 0x01 != 0 }
  | .json =>
    let v ← versionOrAbsent f payload
    return { c with jsonVersion := v }
  | .vector =>
    let v ← versionOrAbsent f payload
    return { c with vectorVersion := v }
  | .enhancedRouting =>
    let b ← onlyByte f payload
    return { c with enhancedRouting := b == 1 }
  | .terminator => throw (.malformedFeature f.id .terminatorInList)

/-- Takes over one acknowledged feature; an unknown one changes nothing. -/
def acceptFeature (c : Capabilities) (ack : FeatureAck) : Except ProtocolError Capabilities :=
  match Feature.ofId? ack.id with
  | some f => c.acceptKnown f ack.payload
  | none => .ok c

/-- Takes over acknowledged features up to the first that is refused, and why it is. -/
def acceptFeatures (c : Capabilities) : List FeatureAck → Capabilities × Option ProtocolError
  | [] => (c, none)
  | ack :: acks =>
    match c.acceptFeature ack with
    | .ok c' => c'.acceptFeatures acks
    | .error e => (c, some e)

end Capabilities

end TdsSession
