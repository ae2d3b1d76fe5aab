import TdsSession.Wire.Reader

/-!
# Session state records

Session state travels as records of a slot number, a length and that many
bytes. A length below 255 is one byte; any other is the byte 255 and a 32-bit
word.
-/

namespace TdsSession

/-- The value of one slot. -/
structure StateRecord where
  slot : UInt8
  data : Bytes
deriving DecidableEq, Repr

namespace StateRecord

/-- The number of slots. -/
def slotCount : Nat := 256

/-- Bytes taken by a value of `n` bytes with its length. -/
def valueSize (n : Nat) : Nat := if n < 0xFF then n + 1 else n + 5

/-- The written form of a length. -/
def writeLength (n : Nat) : Bytes :=
  if n < 0xFF then Bytes.littleEndian 1 n else 0xFF :: Bytes.littleEndian 4 n

/-- The written form of a record. -/
def write (r : StateRecord) : Bytes :=
  r.slot :: (writeLength r.data.length ++ r.data)

/-- The written form of a list of records. -/
def writeAll (rs : List StateRecord) : Bytes :=
  rs.flatMap write

/-- The first record of a byte string and the bytes after it. -/
def read : Bytes → Except ProtocolError (StateRecord × Bytes)
  | slot :: short :: rest =>
    if short = 0xFF then
      if 4 ≤ rest.length then
        value slot (Bytes.ofLittleEndian (rest.take 4)) (rest.drop 4)
      else .error (.malformedSessionState .escapedLengthTruncated)
    else value slot short.toNat rest
  | _ => .error (.malformedSessionState .headerTruncated)
where
  /-- The record of `slot` whose value is the next `n` bytes. -/
  value (slot : UInt8) (n : Nat) (rest : Bytes) : Except ProtocolError (StateRecord × Bytes) :=
    if n ≤ rest.length then .ok (⟨slot, rest.take n⟩, rest.drop n)
    else .error (.incomplete n rest.length)

theorem length_of_read {data rest : Bytes} {r : StateRecord} (h : read data = .ok (r, rest)) :
    rest.length < data.length := by
  have value_le {slot : UInt8} {n : Nat} {d : Bytes} (h : read.value slot n d = .ok (r, rest)) :
      rest.length ≤ d.length := by
    unfold read.value at h
    split at h
    · cases h; simp
    · cases h
  unfold read at h
  split at h
  · split at h
    · split at h
      · have := value_le h
        simp only [List.length_drop, List.length_cons] at *
        omega
      · cases h
    · have := value_le h
      simp only [List.length_cons]
      omega
  · cases h

/-- The records of a byte string up to the first that cannot be read, and why it cannot. -/
def scan (data : Bytes) : List StateRecord × Option ProtocolError :=
  if data.isEmpty then ([], none)
  else
    match _h : read data with
    | .error e => ([], some e)
    | .ok (r, rest) =>
      let (rs, e) := scan rest
      (r :: rs, e)
termination_by data.length
decreasing_by exact length_of_read _h

/-- The records of a byte string, if all of it can be read. -/
def readAll (data : Bytes) : Except ProtocolError (List StateRecord) :=
  match scan data with
  | (rs, none) => .ok rs
  | (_, some e) => .error e

end StateRecord

end TdsSession
