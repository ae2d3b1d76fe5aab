import TdsSession.Session.State
import TdsSession.Wire.Varchar

/-!
# Carrying a session over

The request that asks a server to take over a session from a broken
connection: what the session began with, and what has changed since. In the
second part an empty value means that nothing has changed.
-/

namespace TdsSession

/-- One part of a request: settings and slots. -/
structure SessionImage where
  database : String
  collation : Option Collation
  language : String
  slots : List StateRecord
deriving DecidableEq, Repr

/-- The request to take over a session. -/
structure RecoveryRequest where
  initial : SessionImage
  current : SessionImage
deriving DecidableEq, Repr

namespace SessionImage

/-- A collation after its length; without one the length is zero. -/
def writeCollation : Option Collation → Bytes
  | some c => Bytes.littleEndian 1 Collation.size ++ c.write
  | none => [0]

def readCollation : Reader (Option Collation) := do
  let length ← Reader.u8
  if length = 0 then return none
  let collation ← Reader.exactly length.toNat Collation.read
  return some collation

def write (i : SessionImage) : Bytes :=
  Varchar.writeShort i.database ++ writeCollation i.collation ++ Varchar.writeShort i.language ++
    StateRecord.writeAll i.slots

/-- Reads a part that reaches to the end of the bytes. -/
def read : Reader SessionImage := do
  let database ← Varchar.readShort
  let collation ← readCollation
  let language ← Varchar.readShort
  let slots ← StateRecord.readAll (← get)
  set ([] : Bytes)
  return { database, collation, language, slots }

end SessionImage

namespace RecoveryRequest

/-- The request after its length; each part follows its own. -/
def write (r : RecoveryRequest) : Bytes :=
  let initial := r.initial.write
  let current := r.current.write
  let body := Bytes.littleEndian 4 initial.length ++ initial ++ Bytes.littleEndian 4 current.length ++
    current
  Bytes.littleEndian 4 body.length ++ body

/-- Reads a part after its length. -/
def readPart : Reader SessionImage := do
  let length ← Reader.u32
  Reader.exactly length.toNat SessionImage.read

/-- Reads a request, all of whose lengths have to be exact. -/
def read : Reader RecoveryRequest := do
  let length ← Reader.u32
  Reader.exactly length.toNat do
    let initial ← readPart
    let current ← readPart
    return { initial, current }

end RecoveryRequest

namespace SessionState

/-- A setting that differs from the baseline; none otherwise. -/
def changed [DecidableEq α] (current baseline : Option α) : Option α :=
  if current = baseline then none else current

/-- The changed slots that can be carried over and differ from what the session began with. -/
def changedSlots (s : SessionState) : List StateRecord :=
  s.changes.toList.filterMap fun (slot, change) =>
    if change.recoverable ∧ s.initial.get slot ≠ some change.data then some ⟨slot, change.data⟩ else none

/-- The request to carry this session over. -/
def recoveryRequest (s : SessionState) : RecoveryRequest where
  initial :=
    { database := s.baseline.database.getD ""
      collation := s.baseline.collation
      language := s.baseline.language.getD ""
      slots := s.initial.toList.map fun p => ⟨p.1, p.2⟩ }
  current :=
    { database := (changed s.current.database s.baseline.database).getD ""
      collation := changed s.current.collation s.baseline.collation
      language := (changed s.current.language s.baseline.language).getD ""
      slots := s.changedSlots }

end SessionState

end TdsSession
