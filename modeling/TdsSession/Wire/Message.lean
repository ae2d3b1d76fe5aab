import TdsSession.Wire.Varchar

/-!
# ERROR and INFO

Messages of the server. Both records have one layout.
-/

namespace TdsSession

/-- A message of the server. -/
structure ServerMessage where
  number : Int32
  state : UInt8
  severity : UInt8
  text : String
  server : String
  procedure : String
  line : Int32
deriving DecidableEq, Repr

namespace ServerMessage

/-- The server ends the connection. -/
def isFatal (m : ServerMessage) : Bool := 20 ≤ m.severity

/-- The message reports no failure. -/
def isInformational (m : ServerMessage) : Bool := m.severity ≤ 10

def read : Reader ServerMessage := do
  let length ← Reader.u16
  Reader.within length.toNat do
    let number ← Reader.i32
    let state ← Reader.u8
    let severity ← Reader.u8
    let text ← Varchar.readLong
    let server ← Varchar.readShort
    let procedure ← Varchar.readShort
    let line ← Reader.i32
    return { number, state, severity, text, server, procedure, line }

/-- The message without its length. -/
def writeBody (m : ServerMessage) : Bytes :=
  Bytes.littleEndian 4 m.number.toUInt32.toNat ++ [m.state, m.severity] ++
    Varchar.writeLong m.text ++ Varchar.writeShort m.server ++ Varchar.writeShort m.procedure ++
    Bytes.littleEndian 4 m.line.toUInt32.toNat

end ServerMessage

end TdsSession
