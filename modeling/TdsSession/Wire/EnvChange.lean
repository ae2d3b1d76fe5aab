import TdsSession.Wire.Collation
import TdsSession.Wire.Varchar

/-!
# ENVCHANGE

A change in the environment of a session. What the new and the old value are
depends on the kind of change; a record of an unknown kind is read over.
-/

namespace TdsSession

/-- The kinds of environment change. -/
inductive EnvKind
  | database
  | language
  | characterSet
  | packetSize
  | unicodeSorting
  | unicodeComparison
  | collation
  | beginTransaction
  | commitTransaction
  | rollbackTransaction
  | enlistTransaction
  | defectTransaction
  | mirroringPartner
  | promoteTransaction
  | transactionManager
  | transactionEnded
  | resetAck
  | userInstance
  | routing
deriving DecidableEq, Repr

namespace EnvKind

/-- The number of a kind on the wire. -/
def code : EnvKind → UInt8
  | .database => 1
  | .language => 2
  | .characterSet => 3
  | .packetSize => 4
  | .unicodeSorting => 5
  | .unicodeComparison => 6
  | .collation => 7
  | .beginTransaction => 8
  | .commitTransaction => 9
  | .rollbackTransaction => 10
  | .enlistTransaction => 11
  | .defectTransaction => 12
  | .mirroringPartner => 13
  | .promoteTransaction => 15
  | .transactionManager => 16
  | .transactionEnded => 17
  | .resetAck => 18
  | .userInstance => 19
  | .routing => 20

/-- The kind with the given number. -/
def ofCode? (code : UInt8) : Option EnvKind :=
  match code.toNat with
  | 1 => some .database
  | 2 => some .language
  | 3 => some .characterSet
  | 4 => some .packetSize
  | 5 => some .unicodeSorting
  | 6 => some .unicodeComparison
  | 7 => some .collation
  | 8 => some .beginTransaction
  | 9 => some .commitTransaction
  | 10 => some .rollbackTransaction
  | 11 => some .enlistTransaction
  | 12 => some .defectTransaction
  | 13 => some .mirroringPartner
  | 15 => some .promoteTransaction
  | 16 => some .transactionManager
  | 17 => some .transactionEnded
  | 18 => some .resetAck
  | 19 => some .userInstance
  | 20 => some .routing
  | _ => none

theorem ofCode?_code (k : EnvKind) : ofCode? k.code = some k := by
  cases k <;> rfl

/-- The change concerns a transaction. -/
def isTransaction : EnvKind → Bool
  | .beginTransaction | .commitTransaction | .rollbackTransaction | .enlistTransaction
  | .defectTransaction | .promoteTransaction | .transactionManager | .transactionEnded => true
  | _ => false

/-- How the values of a kind are laid out. -/
inductive Layout
  /-- Two strings, of which the old may be missing. -/
  | texts
  /-- Two byte strings, each counted by one byte. -/
  | shortBinaries
  /-- One byte string counted by a 32-bit word. -/
  | longBinary
  /-- A target to connect to. -/
  | target
deriving DecidableEq, Repr

def layout : EnvKind → Layout
  | .routing => .target
  | .promoteTransaction => .longBinary
  | .collation | .beginTransaction | .commitTransaction | .rollbackTransaction | .enlistTransaction
  | .defectTransaction | .transactionManager | .transactionEnded | .resetAck => .shortBinaries
  | .database | .language | .characterSet | .packetSize | .unicodeSorting | .unicodeComparison
  | .mirroringPartner | .userInstance => .texts

end EnvKind

/-- Where the server sends a login on to. -/
structure Routing where
  protocol : UInt8
  port : UInt16
  server : String
  database : Option String
deriving DecidableEq, Repr

namespace Routing

/-- Why the target cannot be connected to, if it cannot. -/
def fault? (r : Routing) : Option RoutingFault :=
  if r.server.isEmpty then some .emptyServer
  else if r.protocol ≠ 0 then some .unsupportedProtocol
  else if r.port = 0 then some .zeroPort
  else none

/-- Refuses a target that cannot be connected to. -/
def validate (r : Routing) : Except ProtocolError Unit :=
  match r.fault? with
  | some fault => .error (.invalidRouting fault)
  | none => .ok ()

/-- A target; an empty database is none. -/
def read : Reader Routing := do
  let length ← Reader.u16
  Reader.within length.toNat do
    let protocol ← Reader.u8
    let port ← Reader.u16
    let server ← Varchar.readLong
    let left ← Reader.remaining
    if 2 ≤ left then
      let database ← Varchar.readLong
      return ⟨protocol, port, server, if database.isEmpty then none else some database⟩
    else
      return ⟨protocol, port, server, none⟩

/-- The target after its length. -/
def write (r : Routing) : Bytes :=
  let value := [r.protocol] ++ Bytes.littleEndian 2 r.port.toNat ++ Varchar.writeLong r.server ++
    (r.database.map Varchar.writeLong).getD []
  Bytes.littleEndian 2 value.length ++ value

end Routing

/-- A value before or after a change. -/
inductive EnvValue
  | empty
  | text (value : String)
  | binary (value : Bytes)
  | routing (target : Routing)
deriving DecidableEq, Repr

namespace EnvValue

/-- The value as text, if it is one. -/
def text? : EnvValue → Option String
  | .text value => some value
  | _ => none

/-- `n` bytes; none are the empty value. -/
def readBinary (n : Nat) : Reader EnvValue :=
  if n = 0 then pure .empty else .binary <$> Reader.take n

/-- A byte string counted by one byte. -/
def readShortBinary : Reader EnvValue := do
  let count ← Reader.u8
  readBinary count.toNat

/-- A byte string counted by a 32-bit word. -/
def readLongBinary : Reader EnvValue := do
  let count ← Reader.u32
  readBinary count.toNat

end EnvValue

/-- A change in the environment of a session. -/
structure EnvChange where
  kind : EnvKind
  new : EnvValue
  old : EnvValue
deriving DecidableEq, Repr

namespace EnvChange

/-- The new and the old value of a change with the given layout. -/
def readValues : EnvKind.Layout → Reader (EnvValue × EnvValue)
  | .target => do
    let target ← Routing.read
    return (.routing target, .empty)
  | .longBinary => do
    let new ← EnvValue.readLongBinary
    return (new, .empty)
  | .shortBinaries => do
    let new ← EnvValue.readShortBinary
    let old ← EnvValue.readShortBinary
    return (new, old)
  | .texts => do
    let new ← Varchar.readShort
    let left ← Reader.remaining
    let old ← if left = 0 then pure "" else Varchar.readShort
    return (.text new, .text old)

/-- A change, or nothing for a record of an unknown kind. -/
def read : Reader (Option EnvChange) := do
  let length ← Reader.u16
  Reader.within length.toNat do
    let code ← Reader.u8
    match EnvKind.ofCode? code with
    | none => return none
    | some kind =>
      let (new, old) ← (readValues kind.layout).mapError fun e =>
        .malformedEnvChange code e.message
      return some { kind, new, old }

/-- The target of a redirect. -/
def routing? (c : EnvChange) : Option Routing :=
  match c.new with
  | .routing target => some target
  | _ => none

/-- The new collation, if the change carries one. -/
def collation (c : EnvChange) : Except ProtocolError (Option Collation) :=
  match c.kind, c.new with
  | .collation, .binary data =>
    if data.isEmpty then .ok none
    else
      match Collation.read data with
      | .ok (value, _) => .ok (some value)
      | .error e => .error e
  | _, _ => .ok none

end EnvChange

end TdsSession
