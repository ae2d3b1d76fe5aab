import TdsSession.Proofs.Wire.Cursor
import TdsSession.Proofs.Wire.StateRecord
import TdsSession.Wire.Record

/-!
# Checks of the decoders

The decoder of each record with its checks where they are made: a few looks at
how much is left, and between them reads and slices that do not look. Each
decoder is the reader of its record, so that none of its reads finds fewer
bytes than it takes, whatever length, count or offset a server sends.
-/

namespace TdsSession

open Text Cursor

/-! ## Strings -/

namespace Varchar

/-- The next `n` units, one after another. -/
def decodeEach : (n : Nat) → Cursor (List UInt16)
  | 0 => return []
  | n + 1 => do
    let unit ← u16
    let units ← decodeEach n
    return unit :: units

/-- A string of `count` units. -/
def decodeUnits (count : Nat) : Cursor String := do
  need (count * 2) (.incomplete (count * 2))
  let units ← decodeEach count
  accept (ofUnits units)

def decodeShort : Cursor String := do
  need 1 fun _ => .unexpectedEnd
  let count ← u8
  decodeUnits count.toNat

def decodeLong : Cursor String := do
  need 2 fun _ => .unexpectedEnd
  let count ← u16
  decodeUnits count.toNat

/-- Units that are there are read one after another as the bytes they take. -/
theorem decodeEach_apply {n : Nat} {data : Bytes} (h : n * 2 ≤ data.length) :
    decodeEach n data = .ok (Utf16.ofBytes (data.take (n * 2)), data.drop (n * 2)) := by
  induction n generalizing data with
  | zero => rfl
  | succ n ih =>
    obtain ⟨a, b, rest, rfl⟩ : ∃ a b rest, data = a :: b :: rest := by
      match data, h with
      | [], h => simp at h
      | [a], h => simp at h; omega
      | a :: b :: rest, _ => exact ⟨a, b, rest, rfl⟩
    have hrest : n * 2 ≤ rest.length := by
      simp only [List.length_cons] at h
      omega
    have htake : (a :: b :: rest).take ((n + 1) * 2) = a :: b :: rest.take (n * 2) := by
      rw [Nat.succ_mul]
      rfl
    have hdrop : (a :: b :: rest).drop ((n + 1) * 2) = rest.drop (n * 2) := by
      rw [Nat.succ_mul]
      rfl
    have hunit : u16 (a :: b :: rest) = .ok (UInt16.ofNat (Bytes.ofLittleEndian [a, b]), rest) := rfl
    rw [htake, hdrop, Utf16.ofBytes]
    show (u16 (a :: b :: rest)).bind (fun p => (decodeEach n p.2).bind fun q => .ok (p.1 :: q.1, q.2)) = _
    rw [hunit]
    show (decodeEach n rest).bind (fun q => .ok (_ :: q.1, q.2)) = _
    rw [ih hrest]
    rfl

theorem decodeUnits_eq (count : Nat) : decodeUnits count = (readUnits count).toCursor := by
  rw [readUnits, Reader.toCursor_bind, Reader.toCursor_take, decodeUnits, part, bind_assoc]
  funext data
  show (need _ _ data).bind (fun p => (decodeEach count p.2).bind fun q => accept (ofUnits q.1) q.2) =
    (need _ _ data).bind fun p => (next (count * 2) p.2).bind fun q => Reader.toCursor _ q.2
  by_cases hshort : data.length < count * 2
  · rw [need, if_pos hshort]
    rfl
  · have hlength : count * 2 ≤ data.length := Nat.le_of_not_lt hshort
    rw [need, if_neg hshort]
    show (decodeEach count data).bind _ = (next (count * 2) data).bind _
    rw [decodeEach_apply hlength, next, if_pos hlength]
    exact congrFun (Reader.toCursor_lift _).symm _

theorem decodeShort_eq : decodeShort = readShort.toCursor :=
  (Guarded.u8 fun count => .of_eq (decodeUnits_eq count.toNat)).need_end

/-- A check may cover the count of a string that comes next. -/
theorem guarded_readLong : Guarded 2 (do
    let count ← u16
    decodeUnits count.toNat) readLong :=
  Guarded.u16 fun count => .of_eq (decodeUnits_eq count.toNat)

theorem decodeLong_eq : decodeLong = readLong.toCursor := guarded_readLong.need_end

end Varchar

/-! ## Records of a fixed size -/

def Collation.decode : Cursor Collation := do
  need size (.incomplete size)
  let info ← u32
  let sortId ← u8
  return ⟨info, sortId⟩

theorem Collation.decode_eq : decode = read.toCursor := by
  refine Guarded.need_size (Guarded.u32 fun info => Guarded.u8 fun sortId => ?_)
  exact .of_eq rfl

def Done.decode : Cursor Done := do
  need size (.incomplete size)
  let status ← u16
  let command ← u16
  let rowCount ← u64
  return ⟨.ofBits status, command, rowCount⟩

theorem Done.decode_eq : decode = read.toCursor := by
  refine Guarded.need_size (Guarded.u16 fun status => Guarded.u16 fun command => Guarded.u64 fun rowCount => ?_)
  exact .of_eq rfl

/-! ## Counted records -/

/-- A body after its length, a 16-bit word. -/
def Cursor.counted {α : Type} (c : Cursor α) : Cursor α := do
  need 2 fun _ => .unexpectedEnd
  let length ← u16
  within length.toNat c

theorem Cursor.counted_eq {α : Type} {c : Cursor α} {r : Reader α} (h : c = r.toCursor) :
    counted c = (do
      let length ← Reader.u16
      Reader.within length.toNat r : Reader α).toCursor :=
  (Guarded.u16 fun _ => .of_eq ((Guarded.of_eq h).within (Nat.zero_le _))).need_end

namespace ServerMessage

def decode : Cursor ServerMessage := counted do
  need 6 fun _ => .unexpectedEnd
  let number ← i32
  let state ← u8
  let severity ← u8
  let text ← Varchar.decodeLong
  let server ← Varchar.decodeShort
  let procedure ← Varchar.decodeShort
  need 4 fun _ => .unexpectedEnd
  let line ← i32
  return { number, state, severity, text, server, procedure, line }

theorem decode_eq : decode = read.toCursor := by
  refine counted_eq (Guarded.need_end ?_)
  refine Guarded.i32 fun number => Guarded.u8 fun state => Guarded.u8 fun severity => .of_eq ?_
  refine bind_eq Varchar.decodeLong_eq fun text => ?_
  refine bind_eq Varchar.decodeShort_eq fun server => ?_
  refine bind_eq Varchar.decodeShort_eq fun procedure => ?_
  refine Guarded.need_end (Guarded.i32 fun line => ?_)
  exact .of_eq rfl

end ServerMessage

namespace LoginAck

def decode : Cursor LoginAck := counted do
  need 5 fun _ => .unexpectedEnd
  let interface ← u8
  let version ← u32Big
  let program ← Varchar.decodeShort
  need 4 fun _ => .unexpectedEnd
  let major ← u8
  let minor ← u8
  let build ← u16Big
  return { interface, version := ⟨version⟩, program, serverVersion := ⟨major, minor, build⟩ }

theorem decode_eq : decode = read.toCursor := by
  refine counted_eq (Guarded.need_end ?_)
  refine Guarded.u8 fun interface => Guarded.u32Big fun version => .of_eq ?_
  refine bind_eq Varchar.decodeShort_eq fun program => ?_
  refine Guarded.need_end (Guarded.u8 fun major => Guarded.u8 fun minor => Guarded.u16Big fun build => ?_)
  exact .of_eq rfl

end LoginAck

namespace Routing

def decode : Cursor Routing := counted do
  need 5 fun _ => .unexpectedEnd
  let protocol ← u8
  let port ← u16
  let server ← Varchar.decodeLong
  let left ← remaining
  if 2 ≤ left then
    let database ← Varchar.decodeLong
    return ⟨protocol, port, server, if database.isEmpty then none else some database⟩
  else
    return ⟨protocol, port, server, none⟩

theorem decode_eq : decode = read.toCursor := by
  refine counted_eq (Guarded.need_end ?_)
  refine Guarded.u8 fun protocol => Guarded.u16 fun port => ?_
  -- The check covers the count of the name as well, which is checked once more where the name is read.
  refine ⟨fun data _ => congrFun ?_ data, fun data hshort => ?_⟩
  · refine bind_eq Varchar.decodeLong_eq fun server => ?_
    refine bind_eq Reader.toCursor_remaining.symm fun left => ?_
    split
    · exact bind_eq Varchar.decodeLong_eq fun database => rfl
    · rfl
  · rw [Reader.bind_apply, Varchar.guarded_readLong.short data hshort]
    rfl

end Routing

/-! ## Changes of the environment -/

namespace EnvValue

/-- `n` bytes; none are the empty value. -/
def decodeBinary (n : Nat) : Cursor EnvValue :=
  if n = 0 then pure .empty
  else do
    let value ← part n
    return .binary value

def decodeShortBinary : Cursor EnvValue := do
  need 1 fun _ => .unexpectedEnd
  let count ← u8
  decodeBinary count.toNat

def decodeLongBinary : Cursor EnvValue := do
  need 4 fun _ => .unexpectedEnd
  let count ← u32
  decodeBinary count.toNat

theorem decodeBinary_eq (n : Nat) : decodeBinary n = (readBinary n).toCursor := by
  unfold decodeBinary readBinary
  split
  · rfl
  · rw [map_eq_pure_bind]
    exact bind_eq (Reader.toCursor_take n).symm fun _ => rfl

theorem decodeShortBinary_eq : decodeShortBinary = readShortBinary.toCursor :=
  (Guarded.u8 fun count => .of_eq (decodeBinary_eq count.toNat)).need_end

theorem decodeLongBinary_eq : decodeLongBinary = readLongBinary.toCursor :=
  (Guarded.u32 fun count => .of_eq (decodeBinary_eq count.toNat)).need_end

end EnvValue

namespace EnvChange

/-- The new and the old value of a change with the given layout. -/
def decodeValues : EnvKind.Layout → Cursor (EnvValue × EnvValue)
  | .target => do
    let target ← Routing.decode
    return (.routing target, .empty)
  | .longBinary => do
    let new ← EnvValue.decodeLongBinary
    return (new, .empty)
  | .shortBinaries => do
    let new ← EnvValue.decodeShortBinary
    let old ← EnvValue.decodeShortBinary
    return (new, old)
  | .texts => do
    let new ← Varchar.decodeShort
    let left ← remaining
    let old ← if left = 0 then pure "" else Varchar.decodeShort
    return (.text new, .text old)

def decode : Cursor (Option EnvChange) := counted do
  need 1 fun _ => .unexpectedEnd
  let code ← u8
  match EnvKind.ofCode? code with
  | none => return none
  | some kind =>
    let (new, old) ← (decodeValues kind.layout).mapError fun e =>
      .malformedEnvChange code e.message
    return some { kind, new, old }

theorem decodeValues_eq (layout : EnvKind.Layout) : decodeValues layout = (readValues layout).toCursor := by
  cases layout with
  | target => exact bind_eq Routing.decode_eq fun _ => rfl
  | longBinary => exact bind_eq EnvValue.decodeLongBinary_eq fun _ => rfl
  | shortBinaries =>
    exact bind_eq EnvValue.decodeShortBinary_eq fun _ => bind_eq EnvValue.decodeShortBinary_eq fun _ => rfl
  | texts =>
    refine bind_eq Varchar.decodeShort_eq fun new => ?_
    refine bind_eq Reader.toCursor_remaining.symm fun left => ?_
    split
    · rfl
    · exact bind_eq Varchar.decodeShort_eq fun _ => rfl

theorem decode_eq : decode = read.toCursor := by
  refine counted_eq (Guarded.need_end (Guarded.u8 fun code => .of_eq ?_))
  cases EnvKind.ofCode? code with
  | none => rfl
  | some kind =>
    refine bind_eq ?_ fun _ => rfl
    rw [Reader.toCursor_mapError, decodeValues_eq]

end EnvChange

/-! ## Acknowledged features -/

namespace FeatureAck

/-- The next feature, or nothing at the end of the list. -/
def decodeNext : Cursor (Option FeatureAck) := do
  need 1 fun _ => .unexpectedEnd
  let id ← u8
  if id = terminator then return none
  need 4 fun _ => .unexpectedEnd
  let length ← u32
  let payload ← part length.toNat
  return some ⟨id, payload⟩

/-- The next feature as a reader gives it. -/
def readNext : Reader (Option FeatureAck) := do
  let id ← Reader.u8
  if id = terminator then return none
  let payload ← readPayload
  return some ⟨id, payload⟩

theorem decodeNext_eq : decodeNext = readNext.toCursor := by
  refine Guarded.need_end (Guarded.u8 fun id => .of_eq ?_)
  split
  · rfl
  · rw [readPayload, bind_assoc]
    refine Guarded.need_end (Guarded.u32 fun length => .of_eq ?_)
    exact bind_eq (Reader.toCursor_take _).symm fun _ => rfl

theorem readNext_cons (id : UInt8) (data : Bytes) : readNext (id :: data) =
    if id = terminator then .ok (none, data) else (readPayload data).map fun p => (some ⟨id, p.1⟩, p.2) := by
  have hid : Reader.u8 (id :: data) = .ok (id, data) := Reader.reads_byte id data
  rw [readNext, Reader.bind_apply, hid]
  show ite (id = terminator) (pure none : Reader _) _ data = _
  split
  · rfl
  · rw [Reader.bind_apply]
    cases readPayload data <;> rfl

/-- A feature takes bytes. -/
theorem length_of_decodeNext {data : Bytes} {a : FeatureAck} {rest : Bytes}
    (h : decodeNext data = .ok (some a, rest)) : rest.length < data.length := by
  rw [decodeNext_eq] at h
  cases data with
  | nil => cases h
  | cons id data =>
    rw [Reader.toCursor, readNext_cons] at h
    split at h
    · cases h
    · cases hpayload : readPayload data with
      | error e =>
        rw [hpayload] at h
        cases h
      | ok p =>
        rw [hpayload] at h
        cases h
        exact Nat.lt_succ_of_le (length_of_readPayload hpayload)

def decodeList : Cursor (List FeatureAck) := collect decodeNext length_of_decodeNext

theorem decodeList_eq : decodeList = readList.toCursor := by
  refine collect_eq fun data => ?_
  rw [decodeNext_eq]
  cases data with
  | nil =>
    unfold Reader.toCursor
    rw [readList]
    rfl
  | cons id data =>
    unfold Reader.toCursor
    rw [readList, readNext_cons]
    split
    · rfl
    · cases readPayload data with
      | error e => rfl
      | ok p =>
        obtain ⟨payload, rest⟩ := p
        dsimp only [Except.map, Except.mapError]
        cases readList rest <;> rfl

end FeatureAck

/-! ## Where to get a token -/

namespace FedAuthInfo

/-- The string of `length` bytes at `offset` of the record. -/
def decodeString (body : Bytes) (offset length : Nat) : Except CursorStop String :=
  if body.length < offset + length then .error (.refused (.incomplete (offset + length) body.length))
  else do
    let bytes ← slice body offset (offset + length)
    (Varchar.ofBytes bytes).mapError .refused

/-- Decodes the next `n` entries of the option table; `body` is the whole record. -/
def decodeOptions (body : Bytes) : (n : Nat) → FedAuthInfo → Cursor FedAuthInfo
  | 0, info => pure info
  | n + 1, info => do
    need 9 fun _ => .unexpectedEnd
    let option ← u8
    let length ← u32
    let offset ← u32
    let value ← decodeString body offset.toNat length.toNat
    decodeOptions body n (info.set option value)

def decode : Cursor FedAuthInfo := do
  need 4 fun _ => .unexpectedEnd
  let length ← u32
  let body ← part length.toNat
  inside body do
    need 4 fun _ => .unexpectedEnd
    let count ← u32
    decodeOptions body count.toNat ⟨"", ""⟩

/-- The bytes that are sliced are there. -/
theorem decodeString_eq (body : Bytes) (offset length : Nat) :
    decodeString body offset length = (stringAt body offset length).mapError .refused := by
  unfold decodeString stringAt
  by_cases hend : offset + length ≤ body.length
  · have hslice : slice body offset (offset + length) = .ok ((body.drop offset).take length) := by
      rw [slice, if_pos ⟨Nat.le_add_right .., hend⟩, List.drop_take, Nat.add_sub_cancel_left]
    rw [if_neg (Nat.not_lt_of_le hend), if_pos hend, hslice]
    rfl
  · rw [if_pos (Nat.lt_of_not_le hend), if_neg hend]
    rfl

theorem decodeOptions_eq (body : Bytes) (n : Nat) (info : FedAuthInfo) :
    decodeOptions body n info = (readOptions body n info).toCursor := by
  induction n generalizing info with
  | zero => rfl
  | succ n ih =>
    refine Guarded.need_end (Guarded.u8 fun option => Guarded.u32 fun length => Guarded.u32 fun offset => .of_eq ?_)
    refine bind_eq ?_ fun value => ih (info.set option value)
    rw [decodeString_eq]
    cases stringAt body offset.toNat length.toNat <;> rfl

theorem decode_eq : decode = read.toCursor := by
  refine Guarded.need_end (Guarded.u32 fun length => .of_eq ?_)
  refine bind_eq (Reader.toCursor_take _).symm fun body => ?_
  rw [Reader.toCursor_inside]
  refine congrArg (inside body) (Guarded.need_end (Guarded.u32 fun count => .of_eq ?_))
  exact decodeOptions_eq body count.toNat ⟨"", ""⟩

end FedAuthInfo

/-! ## Changed slots -/

namespace StateRecord

/-- The next record. -/
def decode : Cursor StateRecord
  | slot :: short :: rest =>
    if short = 0xFF then
      match rest with
      | a :: b :: c :: d :: rest => value slot (Bytes.ofLittleEndian [a, b, c, d]) rest
      | _ => .error (.refused (.malformedSessionState .escapedLengthTruncated))
    else value slot short.toNat rest
  | _ => .error (.refused (.malformedSessionState .headerTruncated))
where
  /-- The record of `slot` whose value is the next `n` bytes. -/
  value (slot : UInt8) (n : Nat) : Cursor StateRecord := do
    let data ← part n
    return ⟨slot, data⟩

/-- The next record, or nothing at the end of the data. -/
def decodeNext : Cursor (Option StateRecord) := do
  let left ← remaining
  if left = 0 then return none
  let record ← decode
  return some record

theorem decode_value_eq (slot : UInt8) (n : Nat) : decode.value slot n = Reader.toCursor (read.value slot n) := by
  have hvalue : read.value slot n = (do
      let data ← Reader.take n
      return ⟨slot, data⟩ : Reader StateRecord) := by
    funext rest
    rw [Reader.bind_apply, read.value, Reader.take]
    split <;> rfl
  rw [hvalue]
  exact bind_eq (Reader.toCursor_take n).symm fun _ => rfl

theorem decode_eq : decode = Reader.toCursor read := by
  funext data
  match data with
  | [] => rfl
  | [_] => rfl
  | slot :: short :: rest =>
    unfold decode Reader.toCursor read
    dsimp only
    split
    · match rest with
      | a :: b :: c :: d :: rest =>
        rw [if_pos (by simp)]
        exact congrFun (decode_value_eq slot _) rest
      | [] => rfl
      | [_] => rfl
      | [_, _] => rfl
      | [_, _, _] => rfl
    · exact congrFun (decode_value_eq slot short.toNat) rest

/-- Decoding stops at the end of the data, and nowhere else. -/
theorem decodeNext_apply (data : Bytes) : decodeNext data =
    if data.isEmpty then .ok (none, data)
    else ((read data).mapError .refused).map fun p => (some p.1, p.2) := by
  have hdecode : decode data = (read data).mapError .refused := congrFun decode_eq data
  cases data with
  | nil => rfl
  | cons b data =>
    show (decode (b :: data)).bind _ = _
    rw [hdecode]
    cases read (b :: data) <;> rfl

/-- A record takes bytes. -/
theorem length_of_decodeNext {data : Bytes} {r : StateRecord} {rest : Bytes}
    (h : decodeNext data = .ok (some r, rest)) : rest.length < data.length := by
  rw [decodeNext_apply] at h
  split at h
  · cases h
  · cases hread : read data with
    | error e =>
      rw [hread] at h
      cases h
    | ok p =>
      rw [hread] at h
      cases h
      exact length_of_read hread

/-- The records up to the end of the data. -/
def decodeAll : Cursor (List StateRecord) := collect decodeNext length_of_decodeNext

theorem decodeAll_eq : decodeAll = Reader.toCursor fun data => (readAll data).map fun rs => (rs, []) := by
  refine collect_eq fun data => ?_
  rw [decodeNext_apply]
  unfold Reader.toCursor
  dsimp only
  cases hempty : data.isEmpty with
  | true =>
    rw [List.isEmpty_iff.mp hempty, readAll_nil]
    rfl
  | false =>
    cases hread : read data with
    | error e =>
      rw [readAll_of_error hempty hread]
      rfl
    | ok p =>
      obtain ⟨r, rest⟩ := p
      rw [readAll_of_read hread, if_neg Bool.false_ne_true]
      dsimp only [Except.map, Except.mapError]
      cases readAll rest <;> rfl

end StateRecord

namespace StateToken

def decode : Cursor StateToken := do
  need 4 fun _ => .unexpectedEnd
  let length ← u32
  if length.toNat < headerSize then refuse (.malformedSessionState .shorterThanHeader)
  within length.toNat do
    let sequence ← u32
    let status ← u8
    let records ← inside (← get) StateRecord.decodeAll
    return { sequence, recoverable := status &&& 0x01 != 0, records }

/-- The records are those of what is left of the body. -/
theorem decode_records (data : Bytes) :
    inside data StateRecord.decodeAll = accept (StateRecord.readAll data) := by
  funext rest
  rw [StateRecord.decodeAll_eq]
  unfold inside Reader.toCursor
  dsimp only
  cases StateRecord.readAll data <;> rfl

theorem decode_eq : decode = read.toCursor := by
  refine Guarded.need_end (Guarded.u32 fun length => .of_eq ?_)
  by_cases hheader : length.toNat < headerSize
  · rw [if_pos hheader, Reader.require, decide_eq_false (Nat.not_le_of_lt hheader)]
    rfl
  · have hheader' : headerSize ≤ length.toNat := Nat.le_of_not_lt hheader
    rw [if_neg hheader, Reader.require, decide_eq_true hheader']
    -- The header is part of the length that was checked, so that it is read without another check.
    refine Guarded.within (m := headerSize) ?_ hheader'
    refine Guarded.u32 fun sequence => Guarded.u8 fun status => .of_eq ?_
    refine bind_eq (r := get) rfl fun data => ?_
    refine bind_eq ?_ fun records => rfl
    rw [decode_records, Reader.toCursor_lift]

end StateToken

end TdsSession
