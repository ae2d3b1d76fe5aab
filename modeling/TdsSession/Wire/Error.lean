import TdsSession.Wire.Feature
import TdsSession.Text.Numeral

/-!
# Errors of control records

Why a record from the server cannot be accepted. Each cause has one text.
-/

namespace TdsSession

/-- What is wrong with the payload of an acknowledged feature. -/
inductive FeatureFault
  | tokenWorkflowData
  | enclaveNotUtf16
  | terminatorInList
deriving DecidableEq, Repr

def FeatureFault.message : FeatureFault → String
  | .tokenWorkflowData => "unexpected data for token-based workflow"
  | .enclaveNotUtf16 => "enclave type is not valid UTF-16"
  | .terminatorInList => "terminator inside acknowledgement list"

/-- Why a redirect cannot be followed. -/
inductive RoutingFault
  | emptyServer
  | unsupportedProtocol
  | zeroPort
deriving DecidableEq, Repr

def RoutingFault.message : RoutingFault → String
  | .emptyServer => "empty server name"
  | .unsupportedProtocol => "unsupported protocol"
  | .zeroPort => "port is zero"

/-- What is wrong with session state data. -/
inductive StateFault
  | headerTruncated
  | escapedLengthTruncated
  | shorterThanHeader
deriving DecidableEq, Repr

def StateFault.message : StateFault → String
  | .headerTruncated => "record header truncated"
  | .escapedLengthTruncated => "escaped record length truncated"
  | .shorterThanHeader => "token shorter than its fixed header"

/-- Why a record from the server cannot be accepted. -/
inductive ProtocolError
  | unexpectedEnd
  | incomplete (expected actual : Nat)
  | invalidTokenType (value : UInt8)
  | stringEncoding (reason : String)
  | featureLength (feature : UInt8) (expected actual : Nat)
  | malformedFeature (feature : UInt8) (fault : FeatureFault)
  | unrequestedFeature (feature : UInt8)
  | unsupportedFeatureVersion (feature : Feature) (version : UInt8)
  | unsupportedProtocolVersion (raw : UInt32)
  | invalidRouting (fault : RoutingFault)
  | malformedEnvChange (kind : UInt8) (reason : String)
  | malformedSessionState (fault : StateFault)
deriving DecidableEq, Repr

namespace ProtocolError

private def hexByte (b : UInt8) : String := "0x" ++ Text.Numeral.hex 2 b.toNat

/-- The text of a cause. -/
def message : ProtocolError → String
  | .unexpectedEnd => "unexpected end of data"
  | .incomplete expected actual => s!"incomplete record: expected {expected} bytes, got {actual}"
  | .invalidTokenType value => "invalid token type: " ++ hexByte value
  | .stringEncoding reason => "invalid string encoding: " ++ reason
  | .featureLength feature expected actual =>
    "feature " ++ hexByte feature ++ s!" acknowledgement has {actual} bytes, expected {expected}"
  | .malformedFeature feature fault =>
    "malformed feature " ++ hexByte feature ++ " acknowledgement: " ++ fault.message
  | .unrequestedFeature feature => "server acknowledged unrequested feature " ++ hexByte feature
  | .unsupportedFeatureVersion feature version =>
    "unsupported " ++ feature.name ++ s!" version {version.toNat}"
  | .unsupportedProtocolVersion raw =>
    "unsupported TDS protocol version 0x" ++ Text.Numeral.hex 8 raw.toNat
  | .invalidRouting fault => "invalid routing information: " ++ fault.message
  | .malformedEnvChange kind reason =>
    s!"malformed environment change (type {kind.toNat}): " ++ reason
  | .malformedSessionState fault => "malformed session state: " ++ fault.message

/-- A version of the protocol or of a feature that this client does not speak. -/
def isVersionError : ProtocolError → Bool
  | .unsupportedFeatureVersion .. | .unsupportedProtocolVersion _ => true
  | _ => false

/-- A redirect to an impossible target. -/
def isRoutingError : ProtocolError → Bool
  | .invalidRouting _ => true
  | _ => false

/-- The server broke the protocol: any cause but a version or a redirect. -/
def isViolation (e : ProtocolError) : Bool := !e.isVersionError && !e.isRoutingError

end ProtocolError

end TdsSession
