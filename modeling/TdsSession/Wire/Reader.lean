import TdsSession.Bytes
import TdsSession.Wire.Error

/-!
# Reading records

A reader takes bytes off the front of a byte string and gives a value, or the
reason why there is none. Whatever it does not take is left for the next.
-/

namespace TdsSession

/-- Takes a value off the front of a byte string. -/
abbrev Reader := StateT Bytes (Except ProtocolError)

namespace Reader

/-- Reading one value after another succeeds if both can be read. -/
theorem bind_eq_ok {r : Reader α} {f : α → Reader β} {data : Bytes} {p : β × Bytes} :
    (r >>= f) data = .ok p ↔ ∃ a rest, r data = .ok (a, rest) ∧ f a rest = .ok p := by
  change (r data).bind (fun q => f q.1 q.2) = .ok p ↔ _
  cases r data with
  | error e => simp [Except.bind]
  | ok q =>
    obtain ⟨a, rest⟩ := q
    constructor
    · exact fun h => ⟨a, rest, rfl, h⟩
    · rintro ⟨a', rest', h, hf⟩
      cases h
      exact hf

/-- Giving a value takes nothing. -/
theorem pure_apply (a : α) (data : Bytes) : (pure a : Reader α) data = .ok (a, data) := rfl

/-- The number of bytes that are left. -/
def remaining : Reader Nat := do
  return (← get).length

/-- Refuses with `e` unless `ok`. -/
def require (ok : Bool) (e : ProtocolError) : Reader Unit :=
  if ok then pure () else throw e

/-- The next `n` bytes; an incomplete record if there are fewer. -/
def take (n : Nat) : Reader Bytes := fun data =>
  if n ≤ data.length then .ok (data.take n, data.drop n)
  else .error (.incomplete n data.length)

theorem take_eq_ok {n : Nat} {data part rest : Bytes} (h : take n data = .ok (part, rest)) :
    data = part ++ rest ∧ part.length = n := by
  unfold take at h
  split at h
  · next le =>
    cases h
    exact ⟨(List.take_append_drop n data).symm, List.length_take_of_le le⟩
  · cases h

/-- The next `n` bytes; the end of the data if there are fewer. -/
def field (n : Nat) : Reader Bytes := fun data =>
  if n ≤ data.length then .ok (data.take n, data.drop n)
  else .error .unexpectedEnd

theorem field_eq_ok {n : Nat} {data part rest : Bytes} (h : field n data = .ok (part, rest)) :
    data = part ++ rest ∧ part.length = n := by
  unfold field at h
  split at h
  · next le =>
    cases h
    exact ⟨(List.take_append_drop n data).symm, List.length_take_of_le le⟩
  · cases h

def u8 : Reader UInt8 := do
  return UInt8.ofNat (Bytes.ofLittleEndian (← field 1))

def u16 : Reader UInt16 := do
  return UInt16.ofNat (Bytes.ofLittleEndian (← field 2))

def u32 : Reader UInt32 := do
  return UInt32.ofNat (Bytes.ofLittleEndian (← field 4))

def u64 : Reader UInt64 := do
  return UInt64.ofNat (Bytes.ofLittleEndian (← field 8))

def i32 : Reader Int32 := do
  return (← u32).toInt32

/-- A 16-bit word, most significant byte first. -/
def u16Big : Reader UInt16 := do
  return UInt16.ofNat (Bytes.ofBigEndian (← field 2))

/-- A 32-bit word, most significant byte first. -/
def u32Big : Reader UInt32 := do
  return UInt32.ofNat (Bytes.ofBigEndian (← field 4))

/-- Reads `r` from exactly the given bytes; what it leaves of them is dropped. -/
def inside (data : Bytes) (r : Reader α) : Reader α := fun rest =>
  match r data with
  | .ok (value, _) => .ok (value, rest)
  | .error e => .error e

/-- Reads `r` from the next `n` bytes, and from no byte after them. -/
def within (n : Nat) (r : Reader α) : Reader α := do
  let body ← take n
  inside body r

/-- Reads `r` from the next `n` bytes, and refuses them if it leaves any. -/
def exactly (n : Nat) (r : Reader α) : Reader α :=
  within n do
    let value ← r
    let left ← remaining
    require (left = 0) (.incomplete 0 left)
    return value

/-- `r` with its error changed by `f`. -/
def mapError (f : ProtocolError → ProtocolError) (r : Reader α) : Reader α := fun data =>
  match r data with
  | .ok p => .ok p
  | .error e => .error (f e)

end Reader

end TdsSession
