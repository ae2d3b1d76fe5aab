import TdsSession.Wire.Varchar
import TdsSession.Wire.Version

/-!
# LOGINACK

The server accepts a login. The protocol version and the build number are the
words of the token stream that have their most significant byte first.
-/

namespace TdsSession

/-- The product version of a server. -/
structure ServerVersion where
  major : UInt8
  minor : UInt8
  build : UInt16
deriving DecidableEq, Repr

/-- A product version with points between its parts. -/
def ServerVersion.toText (v : ServerVersion) : String :=
  s!"{v.major.toNat}.{v.minor.toNat}.{v.build.toNat}"

/-- The acceptance of a login. -/
structure LoginAck where
  interface : UInt8
  version : TdsVersion
  program : String
  serverVersion : ServerVersion
deriving DecidableEq, Repr

namespace LoginAck

def read : Reader LoginAck := do
  let length ← Reader.u16
  Reader.within length.toNat do
    let interface ← Reader.u8
    let version ← Reader.u32Big
    let program ← Varchar.readShort
    let major ← Reader.u8
    let minor ← Reader.u8
    let build ← Reader.u16Big
    return { interface, version := ⟨version⟩, program, serverVersion := ⟨major, minor, build⟩ }

/-- The acceptance without its length. -/
def writeBody (a : LoginAck) : Bytes :=
  [a.interface] ++ Bytes.bigEndian 4 a.version.raw.toNat ++ Varchar.writeShort a.program ++
    [a.serverVersion.major, a.serverVersion.minor] ++ Bytes.bigEndian 2 a.serverVersion.build.toNat

end LoginAck

end TdsSession
