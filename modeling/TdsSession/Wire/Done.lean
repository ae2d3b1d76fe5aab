import TdsSession.Wire.Reader

/-!
# DONE

The record that ends a response, or one part of it.
-/

namespace TdsSession

/-- The flags of a DONE. -/
structure DoneStatus where
  bits : UInt16
deriving DecidableEq, Repr

namespace DoneStatus

/-- The flags that have a meaning. -/
def all : UInt16 := 0x0137

/-- More results follow. -/
def more : UInt16 := 0x0001

/-- The batch failed, or was ended by the server. -/
def failed : UInt16 := 0x0102

/-- The flags with the given bits, without those that have no meaning. -/
def ofBits (bits : UInt16) : DoneStatus := ⟨bits &&& all⟩

/-- More results follow. -/
def hasMore (s : DoneStatus) : Bool := s.bits &&& more == more

/-- The server reports the batch as failed. -/
def isError (s : DoneStatus) : Bool := s.bits &&& failed != 0

end DoneStatus

/-- The record that ends a response. -/
structure Done where
  status : DoneStatus
  command : UInt16
  rowCount : UInt64
deriving DecidableEq, Repr

namespace Done

/-- The size of a written DONE. -/
def size : Nat := 12

def read : Reader Done := do
  let left ← Reader.remaining
  Reader.require (size ≤ left) (.incomplete size left)
  let status ← Reader.u16
  let command ← Reader.u16
  let rowCount ← Reader.u64
  return ⟨.ofBits status, command, rowCount⟩

def write (d : Done) : Bytes :=
  Bytes.littleEndian 2 d.status.bits.toNat ++ Bytes.littleEndian 2 d.command.toNat ++
    Bytes.littleEndian 8 d.rowCount.toNat

end Done

end TdsSession
