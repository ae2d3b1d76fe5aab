import TdsSession.Wire.Done
import TdsSession.Wire.EnvChange
import TdsSession.Wire.FeatureAck
import TdsSession.Wire.FedAuthInfo
import TdsSession.Wire.LoginAck
import TdsSession.Wire.Message
import TdsSession.Wire.StateToken

/-!
# Records

What a server sends in answer to a login is a sequence of records, each a
type byte and a body. This module names the types and builds the records a
server sends; the modules of the record types read their bodies.
-/

namespace TdsSession

/-- The types of record a login response may hold. -/
inductive RecordKind
  | error
  | info
  | loginAck
  | featureExtAck
  | envChange
  | sessionState
  | fedAuthInfo
  | done
deriving DecidableEq, Repr

namespace RecordKind

/-- The type byte. -/
def code : RecordKind → UInt8
  | .error => 0xAA
  | .info => 0xAB
  | .loginAck => 0xAD
  | .featureExtAck => 0xAE
  | .envChange => 0xE3
  | .sessionState => 0xE4
  | .fedAuthInfo => 0xEE
  | .done => 0xFD

/-- The type with the given type byte. -/
def ofCode? (code : UInt8) : Option RecordKind :=
  match code.toNat with
  | 0xAA => some .error
  | 0xAB => some .info
  | 0xAD => some .loginAck
  | 0xAE => some .featureExtAck
  | 0xE3 => some .envChange
  | 0xE4 => some .sessionState
  | 0xEE => some .fedAuthInfo
  | 0xFD => some .done
  | _ => none

theorem ofCode?_code (k : RecordKind) : ofCode? k.code = some k := by
  cases k <;> rfl

/-- The type with the given type byte, or the reason why there is none. -/
def ofCode (code : UInt8) : Except ProtocolError RecordKind :=
  match ofCode? code with
  | some kind => .ok kind
  | none => .error (.invalidTokenType code)

end RecordKind

/-- One record of a response: its type byte and its body. -/
structure Record where
  code : UInt8
  body : Bytes
deriving DecidableEq, Repr

namespace Record

/-- A record of a known type. -/
def ofKind (kind : RecordKind) (body : Bytes) : Record := ⟨kind.code, body⟩

/-- A record whose body is counted by a 16-bit word. -/
def counted (kind : RecordKind) (body : Bytes) : Record :=
  ofKind kind (Bytes.littleEndian 2 body.length ++ body)

/-- The program name in LOGINACK. -/
def serverProgram : String := "Microsoft SQL Server"

/-- A LOGINACK from product version 16.0.1000. -/
def loginAck (version : TdsVersion) : Record :=
  counted .loginAck
    (LoginAck.writeBody { interface := 1, version, program := serverProgram, serverVersion := ⟨16, 0, 1000⟩ })

/-- A change of two strings. -/
def textChange (kind : EnvKind) (new old : String) : Record :=
  counted .envChange ([kind.code] ++ Varchar.writeShort new ++ Varchar.writeShort old)

/-- A change to a byte string; the old value is empty. -/
def binaryChange (kind : EnvKind) (new : Bytes) : Record :=
  counted .envChange ([kind.code] ++ Bytes.littleEndian 1 new.length ++ new ++ [0])

/-- A change to a collation; the old value is empty. -/
def collation (new : Collation) : Record :=
  binaryChange .collation new.write

/-- The acknowledgement of a reset. -/
def resetAck : Record := binaryChange .resetAck []

/-- A redirect; the old value is empty. -/
def routing (target : Routing) : Record :=
  counted .envChange ([EnvKind.routing.code] ++ target.write ++ Bytes.littleEndian 2 0)

/-- An acknowledgement of features. -/
def featureExtAck (acks : List FeatureAck) : Record :=
  ofKind .featureExtAck (FeatureAck.writeList acks)

/-- An acknowledgement of session recovery alone, with the slots it reports. -/
def recoveryAck (slots : List StateRecord) : Record :=
  featureExtAck [⟨Feature.sessionRecovery.id, StateRecord.writeAll slots⟩]

/-- Changed slots of session state. -/
def sessionState (token : StateToken) : Record :=
  ofKind .sessionState token.write

/-- A message of the given type from line 1 of a server called mock. -/
def message (kind : RecordKind) (number : Int32) (severity : UInt8) (text : String) : Record :=
  counted kind
    (ServerMessage.writeBody
      { number, state := 1, severity, text, server := "mock", procedure := "", line := 1 })

/-- An ERROR. -/
def error (number : Int32) (severity : UInt8) (text : String) : Record :=
  message .error number severity text

/-- An INFO. -/
def info (number : Int32) (text : String) : Record :=
  message .info number 0 text

/-- A DONE with the given flags. -/
def doneWith (status : DoneStatus) : Record :=
  ofKind .done (Done.write { status, command := 0, rowCount := 0 })

/-- The DONE that ends a response. -/
def done : Record := doneWith ⟨0⟩

/-- The DONE that ends a failed response. -/
def doneError : Record := doneWith ⟨0x0002⟩

/-- Where to get a token. -/
def fedAuthInfo (info : FedAuthInfo) : Record :=
  ofKind .fedAuthInfo info.write

end Record

end TdsSession
