import TdsSession.Proofs.Wire.StateRecord
import TdsSession.Proofs.Wire.Varchar
import TdsSession.Wire.Record

/-!
# Records read back

A record that a server writes is read back with nothing left over, as long as
its lengths can be expressed (`Record.all_readBack`). Each section takes one
type of record: first the body, field by field, then the body after its length.
-/

namespace TdsSession

open Text

namespace Reader

variable {α γ : Type} {r : Reader α} {a : α} {body left : Bytes}

/-- What reads a body reads it after its length, whatever it leaves of it. -/
theorem reads_counted {counter : Reader γ} {toNat : γ → Nat} {word : Bytes} {count : γ}
    (hcounter : Reads counter word count) (hcount : toNat count = body.length) (h : r body = .ok (a, left)) :
    Reads (do
      let count ← counter
      within (toNat count) r) (word ++ body) a := by
  refine hcounter.bind ?_
  rw [hcount]
  exact reads_within h

theorem reads_counted16 (hlength : body.length < UInt16.size) (h : r body = .ok (a, left)) :
    Reads (do
      let length ← u16
      within length.toNat r) (Bytes.littleEndian 2 body.length ++ body) a :=
  reads_counted (reads_u16 body.length) (UInt16.toNat_ofNat_of_lt hlength) h

end Reader

open Reader

/-! ## Records of a fixed size -/

/-- What looks at how much is left before it reads reads the same bytes. -/
theorem Reader.reads_of_size {α : Type} {r : Reader α} {a : α} {bytes : Bytes} {size : Nat}
    (hsize : bytes.length = size) (h : Reads r bytes a) :
    Reads (do
      let left ← remaining
      require (size ≤ left) (.incomplete size left)
      r) bytes a := by
  intro rest
  have hleft : size ≤ (bytes ++ rest).length := by
    rw [← hsize, List.length_append]
    exact Nat.le_add_right ..
  rw [bind_eq_ok]
  refine ⟨(bytes ++ rest).length, bytes ++ rest, rfl, ?_⟩
  rw [require, decide_eq_true hleft]
  exact h rest

theorem Collation.length_write (c : Collation) : c.write.length = size := by
  rw [write, List.length_append, Bytes.length_littleEndian]
  rfl

theorem Collation.reads_write (c : Collation) : Reads Collation.read c.write c := by
  refine reads_of_size c.length_write ?_
  refine (reads_word32 c.info).bind ?_
  exact (reads_byte c.sortId).bind_pure (Collation.mk c.info)

/-- Flags that have no meaning are not read back. -/
theorem Done.reads_write (d : Done) : Reads Done.read d.write { d with status := .ofBits d.status.bits } := by
  have hlength : d.write.length = size := by
    simp only [write, List.length_append, Bytes.length_littleEndian]
    rfl
  refine reads_of_size hlength ?_
  rw [write, List.append_assoc]
  refine (reads_word16 d.status.bits).bind ?_
  refine (reads_word16 d.command).bind ?_
  exact (reads_word64 d.rowCount).bind_pure (Done.mk (.ofBits d.status.bits) d.command)

/-! ## Messages -/

namespace ServerMessage

/-- A message whose names a byte can count is read back if its length can be expressed. -/
theorem reads_writeBody {m : ServerMessage} (hserver : Utf16.size m.server ≤ 0xFF)
    (hprocedure : Utf16.size m.procedure ≤ 0xFF) (hlength : m.writeBody.length < UInt16.size) :
    Reads read (Bytes.littleEndian 2 m.writeBody.length ++ m.writeBody) m := by
  have htext : Utf16.size m.text ≤ 0xFFFF := by
    refine Varchar.size_le_of_writeLong ?_
    have hpart : (Varchar.writeLong m.text).length ≤ m.writeBody.length := by
      simp only [writeBody, List.length_append]
      omega
    exact Nat.le_trans hpart (Nat.le_of_lt_succ hlength)
  refine reads_counted16 hlength (Reads.whole ?_)
  have hfields : m.writeBody = Bytes.littleEndian 4 m.number.toUInt32.toNat ++ ([m.state] ++ ([m.severity] ++
      (Varchar.writeLong m.text ++ (Varchar.writeShort m.server ++ (Varchar.writeShort m.procedure ++
        Bytes.littleEndian 4 m.line.toUInt32.toNat))))) := by
    simp only [writeBody, List.append_assoc, List.cons_append, List.nil_append]
  rw [hfields]
  refine (reads_int32 m.number).bind ?_
  refine (reads_byte m.state).bind ?_
  refine (reads_byte m.severity).bind ?_
  refine (Varchar.reads_writeLong htext).bind ?_
  refine (Varchar.reads_writeShort hserver).bind ?_
  refine (Varchar.reads_writeShort hprocedure).bind ?_
  exact (reads_int32 m.line).bind_pure (ServerMessage.mk m.number m.state m.severity m.text m.server m.procedure)

end ServerMessage

/-! ## Accepted logins -/

namespace LoginAck

theorem reads_writeBody {a : LoginAck} (hprogram : Utf16.size a.program ≤ 0xFF) :
    Reads read (Bytes.littleEndian 2 a.writeBody.length ++ a.writeBody) a := by
  have hlength : a.writeBody.length < UInt16.size := by
    simp only [writeBody, Varchar.writeShort, List.length_append, List.length_cons, List.length_nil,
      Bytes.length_bigEndian, Varchar.length_writeCounted]
    rw [show UInt16.size = 65536 from rfl]
    omega
  refine reads_counted16 hlength (Reads.whole ?_)
  have hfields : a.writeBody = [a.interface] ++ (Bytes.bigEndian 4 a.version.raw.toNat ++
      (Varchar.writeShort a.program ++ ([a.serverVersion.major] ++ ([a.serverVersion.minor] ++
        Bytes.bigEndian 2 a.serverVersion.build.toNat)))) := by
    simp only [writeBody, List.append_assoc, List.cons_append, List.nil_append]
  rw [hfields]
  refine (reads_byte a.interface).bind ?_
  refine (reads_bigWord32 a.version.raw).bind ?_
  refine (Varchar.reads_writeShort hprogram).bind ?_
  refine (reads_byte a.serverVersion.major).bind ?_
  refine (reads_byte a.serverVersion.minor).bind ?_
  exact (reads_bigWord16 a.serverVersion.build).bind_pure fun build => LoginAck.mk a.interface a.version a.program
    ⟨a.serverVersion.major, a.serverVersion.minor, build⟩

end LoginAck

/-! ## Changes of the environment -/

namespace EnvChange

/-- A change is read back if its values are. -/
theorem reads_of_values (kind : EnvKind) {values left : Bytes} {new old : EnvValue}
    (hlength : (kind.code :: values).length < UInt16.size)
    (h : readValues kind.layout values = .ok ((new, old), left)) :
    Reads read (Bytes.littleEndian 2 (kind.code :: values).length ++ kind.code :: values)
      (some ⟨kind, new, old⟩) := by
  refine reads_counted16 hlength (show _ = Except.ok (_, left) from ?_)
  rw [bind_eq_ok]
  refine ⟨kind.code, values, reads_byte kind.code values, ?_⟩
  rw [EnvKind.ofCode?_code]
  dsimp only
  rw [bind_eq_ok]
  refine ⟨(new, old), left, ?_, rfl⟩
  rw [mapError, h]

/-- The old string is there, even if it is empty. -/
theorem reads_texts {new old : String} (hnew : Utf16.size new ≤ 0xFF) (hold : Utf16.size old ≤ 0xFF) :
    Reads (readValues .texts) (Varchar.writeShort new ++ Varchar.writeShort old) (.text new, .text old) := by
  refine (Varchar.reads_writeShort hnew).bind fun rest => ?_
  rw [bind_eq_ok]
  refine ⟨(Varchar.writeShort old ++ rest).length, Varchar.writeShort old ++ rest, rfl, ?_⟩
  have hne : (Varchar.writeShort old ++ rest).length ≠ 0 := by
    rw [List.length_append, Varchar.writeShort, Varchar.length_writeCounted]
    omega
  rw [if_neg hne]
  exact (Varchar.reads_writeShort hold).bind_pure (fun old => (EnvValue.text new, EnvValue.text old)) rest

theorem reads_shortBinary {value : Bytes} (hne : value ≠ []) (h : value.length ≤ 0xFF) :
    Reads EnvValue.readShortBinary (Bytes.littleEndian 1 value.length ++ value) (.binary value) := by
  have hcount : (UInt8.ofNat value.length).toNat = value.length := UInt8.toNat_ofNat_of_lt (Nat.lt_succ_of_le h)
  refine (reads_u8 value.length).bind ?_
  rw [hcount, EnvValue.readBinary, if_neg (fun h0 => hne (List.length_eq_zero_iff.mp h0)), map_eq_pure_bind]
  exact (reads_take value).bind_pure EnvValue.binary

theorem reads_emptyBinary : Reads EnvValue.readShortBinary [0] .empty := by
  rw [← List.append_nil [0]]
  exact (reads_byte 0).bind (Reads.pure EnvValue.empty)

/-- A byte string is read back, with an empty old value. -/
theorem reads_shortBinaries {value : Bytes} (hne : value ≠ []) (h : value.length ≤ 0xFF) :
    Reads (readValues .shortBinaries) (Bytes.littleEndian 1 value.length ++ value ++ [0])
      (.binary value, .empty) :=
  (reads_shortBinary hne h).bind (reads_emptyBinary.bind_pure fun old => (EnvValue.binary value, old))

/-- A change to a collation carries it. -/
theorem collation_write (c : Collation) (old : EnvValue) :
    collation ⟨.collation, .binary c.write, old⟩ = .ok (some c) := by
  have hne : c.write.isEmpty = false := rfl
  unfold collation
  dsimp only
  rw [hne, c.reads_write.whole]
  rfl

end EnvChange

/-! ## Redirects -/

namespace Routing

/-- The target without a database that has no name. -/
def normal (r : Routing) : Routing := { r with database := r.database.filter (! ·.isEmpty) }

/-- What a target is written as, after its length. -/
def value (r : Routing) : Bytes :=
  [r.protocol] ++ (Bytes.littleEndian 2 r.port.toNat ++ (Varchar.writeLong r.server ++
    (r.database.map Varchar.writeLong).getD []))

theorem write_eq (r : Routing) : r.write = Bytes.littleEndian 2 r.value.length ++ r.value := by
  simp only [write, value, List.append_assoc]

theorem reads_write {r : Routing} (h : r.value.length ≤ 0xFFFF) : Reads read r.write r.normal := by
  obtain ⟨protocol, port, server, database⟩ := r
  have hserver : Utf16.size server ≤ 0xFFFF := by
    refine Varchar.size_le_of_writeLong (Nat.le_trans ?_ h)
    simp only [value, List.length_append]
    omega
  have hdatabase {name : String} (hname : database = some name) : Utf16.size name ≤ 0xFFFF := by
    refine Varchar.size_le_of_writeLong (Nat.le_trans ?_ h)
    simp only [value, List.length_append, hname, Option.map_some, Option.getD_some]
    omega
  rw [write_eq]
  refine reads_counted16 (Nat.lt_succ_of_le h) (show _ = Except.ok (_, []) from ?_)
  rw [value, bind_eq_ok]
  refine ⟨protocol, _, reads_byte protocol _, ?_⟩
  rw [bind_eq_ok]
  refine ⟨port, _, reads_word16 port _, ?_⟩
  rw [bind_eq_ok]
  refine ⟨server, _, Varchar.reads_writeLong hserver _, ?_⟩
  rw [bind_eq_ok]
  refine ⟨_, _, rfl, ?_⟩
  cases database with
  | none => rfl
  | some name =>
    have hlength : 2 ≤ (Varchar.writeLong name).length := by
      rw [Varchar.writeLong, Varchar.length_writeCounted]
      omega
    dsimp only [Option.map_some, Option.getD_some]
    rw [if_pos hlength, bind_eq_ok]
    refine ⟨name, [], (Varchar.reads_writeLong (hdatabase rfl)).whole, ?_⟩
    unfold normal
    cases hempty : name.isEmpty <;> simp [hempty, pure_apply, Option.filter]

end Routing

/-! ## Acknowledged features -/

namespace FeatureAck

theorem reads_readPayload {payload : Bytes} (h : payload.length < UInt32.size) :
    Reads readPayload (Bytes.littleEndian 4 payload.length ++ payload) payload := by
  have hcount : (UInt32.ofNat payload.length).toNat = payload.length := UInt32.toNat_ofNat_of_lt h
  refine (reads_u32 payload.length).bind ?_
  rw [hcount]
  exact reads_take payload

/-- A feature that can be read comes before those of the rest. -/
theorem readList_cons {id : UInt8} {payload data rest tail : Bytes} {acks : List FeatureAck}
    (hid : id ≠ terminator) (hpayload : readPayload data = .ok (payload, rest))
    (hrest : readList rest = .ok (acks, tail)) : readList (id :: data) = .ok (⟨id, payload⟩ :: acks, tail) := by
  rw [readList, if_neg hid]
  split
  · rename_i e he
    rw [hpayload] at he
    cases he
  · rename_i payload' rest' hp
    rw [hpayload] at hp
    cases hp
    rw [hrest]

/-- A list of features is read back up to its end. -/
theorem reads_writeList {acks : List FeatureAck}
    (h : ∀ a ∈ acks, a.id ≠ terminator ∧ a.payload.length < UInt32.size) :
    Reads readList (writeList acks) acks := by
  intro rest
  induction acks with
  | nil =>
    show readList (terminator :: rest) = _
    rw [readList, if_pos rfl]
  | cons a acks ih =>
    obtain ⟨hid, hlength⟩ := h a List.mem_cons_self
    have hwrite : writeList (a :: acks) ++ rest =
        a.id :: (Bytes.littleEndian 4 a.payload.length ++ a.payload ++ (writeList acks ++ rest)) := by
      simp only [writeList, write, List.flatMap_cons, List.append_assoc, List.cons_append, List.nil_append]
    rw [hwrite]
    exact readList_cons hid (reads_readPayload hlength _) (ih fun a' ha' => h a' (List.mem_cons_of_mem a ha'))

end FeatureAck

/-! ## Where to get a token -/

namespace FedAuthInfo

theorem ofBytes_bytesOf (text : String) : Varchar.ofBytes (Utf16.bytesOf text) = .ok text := by
  have heven : (Utf16.bytesOf text).length % 2 = 0 := by
    rw [Utf16.bytesOf, Utf16.length_toBytes]
    omega
  rw [Varchar.ofBytes, if_pos heven, Utf16.bytesOf, Utf16.ofBytes_toBytes, Varchar.ofUnits_encode]

/-- A string is found where it stands in the record. -/
theorem stringAt_append (before after : Bytes) (text : String) :
    stringAt (before ++ (Utf16.bytesOf text ++ after)) before.length (Utf16.bytesOf text).length = .ok text := by
  rw [stringAt, if_pos (by simp only [List.length_append]; omega), List.drop_left, List.take_left, ofBytes_bytesOf]

/-- One entry of the table sets its option to the string that it points to. -/
theorem reads_option {body table : Bytes} {option : UInt8} {length offset n : Nat} {value : String}
    {info result : FedAuthInfo} (hlength : length < UInt32.size) (hoffset : offset < UInt32.size)
    (hvalue : stringAt body offset length = .ok value)
    (h : Reads (readOptions body n (info.set option value)) table result) :
    Reads (readOptions body (n + 1) info) (writeOption option length offset ++ table) result := by
  have hlengthWord : (UInt32.ofNat length).toNat = length := UInt32.toNat_ofNat_of_lt hlength
  have hoffsetWord : (UInt32.ofNat offset).toNat = offset := UInt32.toNat_ofNat_of_lt hoffset
  rw [readOptions, writeOption, List.append_assoc, List.append_assoc]
  refine (reads_byte option).bind ?_
  refine (reads_u32 length).bind ?_
  refine (reads_u32 offset).bind ?_
  rw [hlengthWord, hoffsetWord]
  exact (Reads.lift hvalue).bind h

theorem length_writeOption (option : UInt8) (length offset : Nat) : (writeOption option length offset).length = 9 := by
  simp only [writeOption, List.length_append, Bytes.length_littleEndian, List.length_cons, List.length_nil]

/-- The table of a record, with the number of its entries. -/
def table (info : FedAuthInfo) : Bytes :=
  Bytes.littleEndian 4 2 ++
    (writeOption stsUrlOption (Utf16.bytesOf info.stsUrl).length 22 ++
      (writeOption spnOption (Utf16.bytesOf info.spn).length (22 + (Utf16.bytesOf info.stsUrl).length) ++ []))

theorem length_table (info : FedAuthInfo) : info.table.length = 22 := by
  simp only [table, List.length_append, length_writeOption, Bytes.length_littleEndian, List.length_nil]

/-- The record after its length. -/
def body (info : FedAuthInfo) : Bytes :=
  info.table ++ (Utf16.bytesOf info.stsUrl ++ Utf16.bytesOf info.spn)

theorem length_body (info : FedAuthInfo) :
    info.body.length = 22 + (Utf16.bytesOf info.stsUrl).length + (Utf16.bytesOf info.spn).length := by
  simp only [body, List.length_append, length_table, Nat.add_assoc]

theorem write_eq (info : FedAuthInfo) : info.write = Bytes.littleEndian 4 info.body.length ++ info.body := by
  simp only [write, body, table, List.append_assoc, List.nil_append]

/-- The authority stands after the table. -/
theorem stringAt_stsUrl (info : FedAuthInfo) :
    stringAt info.body 22 (Utf16.bytesOf info.stsUrl).length = .ok info.stsUrl := by
  have hat := stringAt_append info.table (Utf16.bytesOf info.spn) info.stsUrl
  rwa [length_table] at hat

/-- The resource stands after the authority. -/
theorem stringAt_spn (info : FedAuthInfo) :
    stringAt info.body (22 + (Utf16.bytesOf info.stsUrl).length) (Utf16.bytesOf info.spn).length = .ok info.spn := by
  have hat := stringAt_append (info.table ++ Utf16.bytesOf info.stsUrl) [] info.spn
  rwa [List.length_append, length_table, List.append_nil, List.append_assoc] at hat

/-- Two strings are read back if the length of the record that holds them can be expressed. -/
theorem reads_write {info : FedAuthInfo} (h : info.body.length < UInt32.size) : Reads read info.write info := by
  have hcount : (UInt32.ofNat info.body.length).toNat = info.body.length := UInt32.toNat_ofNat_of_lt h
  rw [length_body] at h
  have htable : Reads (do
      let count ← u32
      readOptions info.body count.toNat ⟨"", ""⟩) info.table info := by
    refine (reads_u32 2).bind ?_
    refine reads_option (by omega) (by decide) info.stringAt_stsUrl ?_
    refine reads_option (by omega) (by omega) info.stringAt_spn ?_
    exact Reads.pure info
  rw [write_eq]
  refine (reads_u32 info.body.length).bind ?_
  rw [hcount]
  have hbody := (reads_take info.body).bind (f := fun body => inside body do
    let count ← u32
    readOptions body count.toNat ⟨"", ""⟩) (reads_inside (htable _))
  rwa [List.append_nil] at hbody

end FedAuthInfo

/-! ## Changed slots -/

namespace StateToken

/-- The record after its length. -/
def body (t : StateToken) : Bytes :=
  Bytes.littleEndian 4 t.sequence.toNat ++ ([if t.recoverable then 1 else 0] ++ StateRecord.writeAll t.records)

theorem length_body (t : StateToken) : t.body.length = headerSize + (StateRecord.writeAll t.records).length := by
  simp only [body, List.length_append, Bytes.length_littleEndian, List.length_cons, List.length_nil, headerSize]
  omega

theorem write_eq (t : StateToken) : t.write = Bytes.littleEndian 4 t.body.length ++ t.body := by
  rw [length_body]
  simp only [write, body, List.append_assoc]

theorem flag_ne_zero (recoverable : Bool) : ((if recoverable then 1 else 0 : UInt8) &&& 0x01 != 0) = recoverable := by
  cases recoverable <;> decide

/-- Slots are read back if the length of the record that holds them can be expressed. -/
theorem reads_write {t : StateToken} (h : t.body.length < UInt32.size) : Reads read t.write t := by
  have hcount : (UInt32.ofNat t.body.length).toNat = t.body.length := UInt32.toNat_ofNat_of_lt h
  have hheader : headerSize ≤ t.body.length := by
    rw [length_body]
    exact Nat.le_add_right ..
  have hrecords : ∀ r ∈ t.records, r.data.length < UInt32.size := fun r hr => by
    rw [length_body] at h
    have hdata := StateRecord.length_data_le hr
    omega
  rw [write_eq]
  refine (reads_u32 t.body.length).bind ?_
  rw [hcount]
  refine (Reads.require (decide_eq_true hheader) _).bind ?_
  refine reads_within (show _ = Except.ok (_, StateRecord.writeAll t.records) from ?_)
  rw [bind_eq_ok]
  refine ⟨t.sequence, _, reads_word32 t.sequence _, ?_⟩
  rw [bind_eq_ok]
  refine ⟨_, _, reads_byte _ _, ?_⟩
  rw [bind_eq_ok]
  refine ⟨StateRecord.writeAll t.records, _, rfl, ?_⟩
  rw [bind_eq_ok]
  refine ⟨t.records, _, Reads.lift (StateRecord.readAll_writeAll hrecords) _, ?_⟩
  rw [flag_ne_zero]
  rfl

end StateToken

/-! ## What a server writes -/

namespace Record

variable {α : Type}

/-- The record is of the type `kind`, and `r` reads `a` from its body with nothing left over. -/
def ReadBack (record : Record) (kind : RecordKind) (r : Reader α) (a : α) : Prop :=
  record.code = kind.code ∧ r record.body = .ok (a, [])

theorem readBack_of_reads {kind : RecordKind} {body : Bytes} {r : Reader α} {a : α} (h : Reads r body a) :
    (ofKind kind body).ReadBack kind r a := ⟨rfl, h.whole⟩

theorem readBack_loginAck (version : TdsVersion) :
    (loginAck version).ReadBack .loginAck LoginAck.read ⟨1, version, serverProgram, ⟨16, 0, 1000⟩⟩ := by
  have hprogram : Text.Utf16.size serverProgram ≤ 0xFF := by decide +kernel
  exact readBack_of_reads (LoginAck.reads_writeBody hprogram)

theorem readBack_textChange {kind : EnvKind} {new old : String} (hkind : kind.layout = .texts)
    (hnew : Utf16.size new ≤ 0xFF) (hold : Utf16.size old ≤ 0xFF) :
    (textChange kind new old).ReadBack .envChange EnvChange.read (some ⟨kind, .text new, .text old⟩) := by
  have hlength : (kind.code :: (Varchar.writeShort new ++ Varchar.writeShort old)).length < UInt16.size := by
    simp only [List.length_cons, List.length_append, Varchar.writeShort, Varchar.length_writeCounted]
    rw [show UInt16.size = 65536 from rfl]
    omega
  have hvalues := (EnvChange.reads_texts hnew hold).whole
  rw [← hkind] at hvalues
  exact readBack_of_reads (EnvChange.reads_of_values _ hlength hvalues)

/-- A byte string that a byte can count is read back where the kind of the change has its values counted so. -/
theorem readBack_binaryChange {kind : EnvKind} {value : Bytes} (hkind : kind.layout = .shortBinaries)
    (hne : value ≠ []) (h : value.length ≤ 0xFF) :
    (binaryChange kind value).ReadBack .envChange EnvChange.read (some ⟨kind, .binary value, .empty⟩) := by
  have hvalues := (EnvChange.reads_shortBinaries hne h).whole
  have hlength : (kind.code :: (Bytes.littleEndian 1 value.length ++ value ++ [0])).length < UInt16.size := by
    simp only [List.length_cons, List.length_append, Bytes.length_littleEndian, List.length_nil]
    rw [show UInt16.size = 65536 from rfl]
    omega
  rw [← hkind] at hvalues
  exact readBack_of_reads (EnvChange.reads_of_values kind hlength hvalues)

theorem readBack_collation (c : Collation) :
    (collation c).ReadBack .envChange EnvChange.read (some ⟨.collation, .binary c.write, .empty⟩) := by
  have hne : c.write ≠ [] := List.ne_nil_of_length_pos (by rw [c.length_write]; decide)
  exact readBack_binaryChange rfl hne (by rw [c.length_write]; decide)

theorem readBack_routing {target : Routing} (h : (routing target).body.length ≤ 2 + 0xFFFF) :
    (routing target).ReadBack .envChange EnvChange.read (some ⟨.routing, .routing target.normal, .empty⟩) := by
  have hbody : (routing target).body.length = 2 + (1 + (target.write.length + 2)) := by
    simp only [routing, counted, ofKind, List.length_append, Bytes.length_littleEndian, List.length_cons,
      List.length_nil]
    omega
  have hvalue : target.value.length ≤ 0xFFFF := by
    rw [hbody, Routing.write_eq, List.length_append, Bytes.length_littleEndian] at h
    omega
  have hlength : (EnvKind.routing.code :: (target.write ++ Bytes.littleEndian 2 0)).length < UInt16.size := by
    simp only [List.length_cons, List.length_append, Bytes.length_littleEndian]
    rw [show UInt16.size = 65536 from rfl]
    omega
  have hvalues : EnvChange.readValues EnvKind.routing.layout (target.write ++ Bytes.littleEndian 2 0) =
      .ok ((.routing target.normal, .empty), Bytes.littleEndian 2 0) :=
    (Routing.reads_write hvalue).bind_pure (fun target => (EnvValue.routing target, EnvValue.empty)) _
  exact readBack_of_reads (EnvChange.reads_of_values _ hlength hvalues)

theorem readBack_message {kind : RecordKind} {number : Int32} {severity : UInt8} {text : String}
    (h : (message kind number severity text).body.length ≤ 2 + 0xFFFF) :
    (message kind number severity text).ReadBack kind ServerMessage.read
      ⟨number, 1, severity, text, "mock", "", 1⟩ := by
  have hlength : (ServerMessage.writeBody ⟨number, 1, severity, text, "mock", "", 1⟩).length < UInt16.size := by
    simp only [message, counted, ofKind, List.length_append, Bytes.length_littleEndian] at h
    rw [show UInt16.size = 65536 from rfl]
    omega
  have hserver : Utf16.size "mock" ≤ 0xFF := by decide +kernel
  have hprocedure : Utf16.size "" ≤ 0xFF := by decide +kernel
  exact readBack_of_reads (ServerMessage.reads_writeBody hserver hprocedure hlength)

theorem readBack_doneWith (status : DoneStatus) :
    (doneWith status).ReadBack .done Done.read ⟨.ofBits status.bits, 0, 0⟩ :=
  readBack_of_reads (Done.reads_write ⟨status, 0, 0⟩)

theorem readBack_fedAuthInfo {info : FedAuthInfo} (h : (fedAuthInfo info).body.length < 4 + UInt32.size) :
    (fedAuthInfo info).ReadBack .fedAuthInfo FedAuthInfo.read info := by
  have hlength : info.body.length < UInt32.size := by
    rw [fedAuthInfo, ofKind, FedAuthInfo.write_eq, List.length_append, Bytes.length_littleEndian] at h
    exact Nat.lt_of_add_lt_add_left h
  exact readBack_of_reads (FedAuthInfo.reads_write hlength)

theorem readBack_sessionState {token : StateToken} (h : (sessionState token).body.length < 4 + UInt32.size) :
    (sessionState token).ReadBack .sessionState StateToken.read token := by
  have hlength : token.body.length < UInt32.size := by
    rw [sessionState, ofKind, StateToken.write_eq, List.length_append, Bytes.length_littleEndian] at h
    exact Nat.lt_of_add_lt_add_left h
  exact readBack_of_reads (StateToken.reads_write hlength)

/-- Every record that a server writes within the limits of its format is read back, and nothing is left over: a
target without the name of a database if that is empty, and the end of a response with the flags that have a
meaning. -/
theorem all_readBack :
    (∀ version, (loginAck version).ReadBack .loginAck LoginAck.read ⟨1, version, serverProgram, ⟨16, 0, 1000⟩⟩) ∧
    (∀ kind new old, kind.layout = .texts → Utf16.size new ≤ 0xFF → Utf16.size old ≤ 0xFF →
      (textChange kind new old).ReadBack .envChange EnvChange.read (some ⟨kind, .text new, .text old⟩)) ∧
    (∀ c, ∃ change, (collation c).ReadBack .envChange EnvChange.read (some change) ∧
      change.collation = .ok (some c)) ∧
    (∀ target, (routing target).body.length ≤ 2 + 0xFFFF →
      (routing target).ReadBack .envChange EnvChange.read (some ⟨.routing, .routing target.normal, .empty⟩)) ∧
    (∀ number severity text, (error number severity text).body.length ≤ 2 + 0xFFFF →
      (error number severity text).ReadBack .error ServerMessage.read
        ⟨number, 1, severity, text, "mock", "", 1⟩) ∧
    (∀ number text, (info number text).body.length ≤ 2 + 0xFFFF →
      (info number text).ReadBack .info ServerMessage.read ⟨number, 1, 0, text, "mock", "", 1⟩) ∧
    (∀ status, (doneWith status).ReadBack .done Done.read ⟨.ofBits status.bits, 0, 0⟩ ∧
      (status = .ofBits status.bits → (doneWith status).ReadBack .done Done.read ⟨status, 0, 0⟩)) ∧
    (∀ sts spn, (fedAuthInfo ⟨sts, spn⟩).body.length < 4 + UInt32.size →
      (fedAuthInfo ⟨sts, spn⟩).ReadBack .fedAuthInfo FedAuthInfo.read ⟨sts, spn⟩) ∧
    (∀ sequence recoverable slots, (sessionState ⟨sequence, recoverable, slots⟩).body.length < 4 + UInt32.size →
      (sessionState ⟨sequence, recoverable, slots⟩).ReadBack .sessionState StateToken.read
        ⟨sequence, recoverable, slots⟩) ∧
    ∀ acks, (∀ a ∈ acks, a.id ≠ FeatureAck.terminator ∧ a.payload.length < UInt32.size) →
      (featureExtAck acks).ReadBack .featureExtAck FeatureAck.readList acks := by
  refine ⟨readBack_loginAck, ?_, ?_, ?_, ?_, ?_, ?_, ?_, ?_, ?_⟩
  · exact fun _ _ _ => readBack_textChange
  · exact fun c => ⟨_, readBack_collation c, EnvChange.collation_write c .empty⟩
  · exact fun _ => readBack_routing
  · exact fun _ _ _ => readBack_message
  · exact fun _ _ => readBack_message
  · intro status
    have hread := readBack_doneWith status
    refine ⟨hread, fun h => ?_⟩
    rwa [← h] at hread
  · exact fun _ _ => readBack_fedAuthInfo
  · exact fun _ _ _ => readBack_sessionState
  · exact fun acks h => readBack_of_reads (FeatureAck.reads_writeList h)

end Record

end TdsSession
