import TdsSession.Wire.StateRecord

/-!
# Walking over state records

The records of a byte string are read one after the other, each when it is
asked for. If one cannot be read, the walk says why and is over.
-/

namespace TdsSession

/-- A walk over the records of a byte string. -/
structure RecordWalk where
  /-- The bytes that have not been read. -/
  remaining : Bytes
  /-- The last record could not be read. -/
  failed : Bool := false
deriving DecidableEq, Repr

namespace RecordWalk

/-- The walk over a byte string from its first byte on. -/
def start (data : Bytes) : RecordWalk := { remaining := data }

/-- The next item, which is a record or the reason why it cannot be read, and the walk after it. -/
def next (w : RecordWalk) : Option (Except ProtocolError StateRecord × RecordWalk) :=
  if w.failed || w.remaining.isEmpty then none
  else
    match StateRecord.read w.remaining with
    | .error e => some (.error e, { w with failed := true })
    | .ok (r, rest) => some (.ok r, { w with remaining := rest })

/-- What a walk has before it: the bytes, and the reason why the last of them cannot be read. -/
def left (w : RecordWalk) : Nat := if w.failed then 0 else w.remaining.length + 1

theorem left_next {w w' : RecordWalk} {item : Except ProtocolError StateRecord} (h : w.next = some (item, w')) :
    w'.left < w.left := by
  unfold next at h
  split at h
  · cases h
  · rename_i hgoes
    obtain ⟨hfailed, -⟩ : w.failed = false ∧ w.remaining.isEmpty = false := by simpa using hgoes
    unfold left
    rw [hfailed]
    split at h <;> cases h
    · exact Nat.succ_pos _
    · rename_i hread
      have hlength := StateRecord.length_of_read hread
      simpa [hfailed] using hlength

/-- All items of a walk, in order. -/
def items (w : RecordWalk) : List (Except ProtocolError StateRecord) :=
  match _h : w.next with
  | none => []
  | some (item, rest) => item :: rest.items
termination_by w.left
decreasing_by exact left_next _h

end RecordWalk

end TdsSession
