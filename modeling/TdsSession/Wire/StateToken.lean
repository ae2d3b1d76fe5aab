import TdsSession.Wire.StateRecord

/-!
# SESSIONSTATE

Slots of session state that have changed.
-/

namespace TdsSession

/-- Changed slots of session state. -/
structure StateToken where
  sequence : UInt32
  recoverable : Bool
  records : List StateRecord
deriving DecidableEq, Repr

namespace StateToken

/-- The sequence number of a server that no longer keeps track. -/
def untracked : UInt32 := 0xFFFFFFFF

/-- The size of the sequence number and the flag. -/
def headerSize : Nat := 5

def read : Reader StateToken := do
  let length ← Reader.u32
  Reader.require (headerSize ≤ length.toNat) (.malformedSessionState .shorterThanHeader)
  Reader.within length.toNat do
    let sequence ← Reader.u32
    let status ← Reader.u8
    let records ← StateRecord.readAll (← get)
    return { sequence, recoverable := status &&& 0x01 != 0, records }

def write (t : StateToken) : Bytes :=
  let records := StateRecord.writeAll t.records
  Bytes.littleEndian 4 (headerSize + records.length) ++ Bytes.littleEndian 4 t.sequence.toNat ++
    [if t.recoverable then 1 else 0] ++ records

end StateToken

end TdsSession
