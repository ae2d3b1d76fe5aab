import TdsSession.Wire.Varchar

/-!
# FEDAUTHINFO

Where a client gets a token for federated authentication: the authority that
issues it and the resource it is for. The record is a table of options, each
the place of a string inside the record.
-/

namespace TdsSession

/-- The authority and the resource of a token. -/
structure FedAuthInfo where
  stsUrl : String
  spn : String
deriving DecidableEq, Repr

namespace FedAuthInfo

/-- The option that holds the authority. -/
def stsUrlOption : UInt8 := 0x01

/-- The option that holds the resource. -/
def spnOption : UInt8 := 0x02

/-- The string of `length` bytes at `offset` of the record. -/
def stringAt (body : Bytes) (offset length : Nat) : Except ProtocolError String :=
  if offset + length ≤ body.length then Varchar.ofBytes ((body.drop offset).take length)
  else .error (.incomplete (offset + length) body.length)

/-- `info` with one option set; an unknown option changes nothing. -/
def set (info : FedAuthInfo) (option : UInt8) (value : String) : FedAuthInfo :=
  if option = stsUrlOption then { info with stsUrl := value }
  else if option = spnOption then { info with spn := value }
  else info

/-- Reads the next `n` entries of the option table; `body` is the whole record. -/
def readOptions (body : Bytes) : (n : Nat) → FedAuthInfo → Reader FedAuthInfo
  | 0, info => pure info
  | n + 1, info => do
    let option ← Reader.u8
    let length ← Reader.u32
    let offset ← Reader.u32
    let value ← stringAt body offset.toNat length.toNat
    readOptions body n (info.set option value)

def read : Reader FedAuthInfo := do
  let length ← Reader.u32
  let body ← Reader.take length.toNat
  Reader.inside body do
    let count ← Reader.u32
    readOptions body count.toNat ⟨"", ""⟩

/-- One entry of the option table. -/
def writeOption (option : UInt8) (length offset : Nat) : Bytes :=
  [option] ++ Bytes.littleEndian 4 length ++ Bytes.littleEndian 4 offset

/-- The record: a table of two options, then their strings. -/
def write (info : FedAuthInfo) : Bytes :=
  let header := 4 + 2 * 9
  let sts := Text.Utf16.bytesOf info.stsUrl
  let spn := Text.Utf16.bytesOf info.spn
  let body := Bytes.littleEndian 4 2 ++ writeOption stsUrlOption sts.length header ++
    writeOption spnOption spn.length (header + sts.length) ++ sts ++ spn
  Bytes.littleEndian 4 body.length ++ body

end FedAuthInfo

end TdsSession
