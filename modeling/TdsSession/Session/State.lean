import TdsSession.Address.Target
import TdsSession.Wire.StateToken

/-!
# Session state

What the server keeps for a session: its database, language and collation,
and 256 slots whose contents only the server understands. The state of a
session has a baseline, which the session began with, and the changes since.
A session can be carried over to a new connection as long as every changed
slot can.
-/

namespace TdsSession

/-- One optional value for each slot. -/
abbrev Slots (α : Type) := Vector (Option α) StateRecord.slotCount

namespace Slots

/-- No slot has a value. -/
def empty : Slots α := Vector.replicate StateRecord.slotCount none

theorem slot_lt (slot : UInt8) : slot.toNat < StateRecord.slotCount := slot.toNat_lt

/-- The value of a slot. -/
def get (s : Slots α) (slot : UInt8) : Option α :=
  have h := slot_lt slot
  s[slot.toNat]

/-- The slots with one value set. -/
def set (s : Slots α) (slot : UInt8) (value : α) : Slots α :=
  Vector.set s slot.toNat (some value) (slot_lt slot)

/-- The slots that have a value, by their numbers. -/
def toList (s : Slots α) : List (UInt8 × α) :=
  (List.range StateRecord.slotCount).filterMap fun n =>
    (s.get (UInt8.ofNat n)).map fun value => (UInt8.ofNat n, value)

theorem get_empty (slot : UInt8) : (empty : Slots α).get slot = none := by
  simp [get, empty]

/-- Setting a slot is seen at that slot and at no other. -/
theorem get_set (s : Slots α) (slot other : UInt8) (value : α) :
    (s.set slot value).get other = if slot = other then some value else s.get other := by
  simp only [get, set]
  rw [Vector.getElem_set]
  simp only [UInt8.toNat_inj]

end Slots

/-- A slot that has changed. -/
structure SlotChange where
  /-- The slot can be carried over to a new connection. -/
  recoverable : Bool
  /-- The sequence number of the last token that wrote the slot. -/
  version : UInt32
  data : Bytes
deriving DecidableEq, Repr

/-- The settings of a session, as far as they are known. -/
structure SessionSettings where
  database : Option String := none
  language : Option String := none
  collation : Option Collation := none
deriving DecidableEq, Repr

/-- What the server keeps for a session. -/
structure SessionState where
  /-- The settings the session began with. -/
  baseline : SessionSettings := {}
  current : SessionSettings := {}
  /-- The slots the session began with. -/
  initial : Slots Bytes := Slots.empty
  changes : Slots SlotChange := Slots.empty
  /-- The number of changed slots that cannot be carried over. -/
  unrecoverable : Nat := 0
  /-- There may be a changed slot. -/
  dirty : Bool := false
  version : Option TdsVersion := none
  encrypted : Bool := false
  aliases : AliasCache := []
  /-- The session is being carried over to a new connection. -/
  recovering : Bool := false
  /-- The connection may be used by others after this session. -/
  poolable : Bool := true
deriving DecidableEq

namespace SessionState

/-- The state of a session that has not begun. -/
def new : SessionState := {}

/-- The state from which a session is carried over: its baseline and no changes, which the server
will report anew. -/
def carryOver (s : SessionState) : SessionState where
  baseline := s.baseline
  initial := s.initial
  version := s.version
  encrypted := s.encrypted
  aliases := s.aliases
  recovering := true

/-- Every changed slot can be carried over. -/
def isRecoverable (s : SessionState) : Bool := s.unrecoverable == 0

/-- The number of unrecoverable changes after a slot with the value `old` has been overwritten by a
recoverable or an unrecoverable change. -/
def recount (count : Nat) (old : Option SlotChange) (recoverable : Bool) : Nat :=
  let without := match old with
    | some change => if change.recoverable then count else count - 1
    | none => count
  if recoverable then without else without + 1

/-- Takes over one slot that the server reports with its acknowledgement: as a part of the baseline,
or of a session that is being carried over. -/
def recordSlot (s : SessionState) (r : StateRecord) : SessionState :=
  if s.recovering then
    { s with
      unrecoverable := recount s.unrecoverable (s.changes.get r.slot) true
      changes := s.changes.set r.slot ⟨true, 0, r.data⟩
      dirty := true }
  else { s with initial := s.initial.set r.slot r.data }

/-- Takes over the payload of an acknowledged session recovery, if all of it can be read. -/
def record (s : SessionState) (payload : Bytes) : Except ProtocolError SessionState := do
  let records ← StateRecord.readAll payload
  return records.foldl recordSlot s

/-- Takes over one slot of a token, unless a later token has written the slot. -/
def applySlot (sequence : UInt32) (recoverable : Bool) (s : SessionState) (r : StateRecord) :
    SessionState :=
  let old := s.changes.get r.slot
  if old.any fun change => sequence < change.version then s
  else
    { s with
      unrecoverable := recount s.unrecoverable old recoverable
      changes := s.changes.set r.slot ⟨recoverable, sequence, r.data⟩ }

/-- Takes over a token. -/
def apply (s : SessionState) (t : StateToken) : SessionState :=
  let s := if t.sequence = StateToken.untracked then { s with poolable := false } else s
  { t.records.foldl (applySlot t.sequence t.recoverable) s with dirty := true }

/-- Goes back to the baseline. -/
def reset (s : SessionState) : SessionState :=
  if s.dirty then
    { s with current := {}, changes := Slots.empty, dirty := false, unrecoverable := 0 }
  else { s with current := {} }

/-- Makes the current settings the baseline. -/
def rebase (s : SessionState) : SessionState := { s with baseline := s.current }

/-- The session has been carried over. -/
def endRecovery (s : SessionState) : SessionState := { s with recovering := false }

def setDatabase (s : SessionState) (name : String) : SessionState :=
  { s with current := { s.current with database := some name } }

def setLanguage (s : SessionState) (name : String) : SessionState :=
  { s with current := { s.current with language := some name } }

def setCollation (s : SessionState) (collation : Collation) : SessionState :=
  { s with current := { s.current with collation := some collation } }

def setVersion (s : SessionState) (version : TdsVersion) : SessionState :=
  { s with version := some version }

def setEncrypted (s : SessionState) (encrypted : Bool) : SessionState := { s with encrypted }

end SessionState

end TdsSession
