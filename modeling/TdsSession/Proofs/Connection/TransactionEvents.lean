import TdsSession.Proofs.Connection.Baseline
import TdsSession.Proofs.Connection.PacketSize
import TdsSession.Proofs.Login.Violation
import TdsSession.Proofs.Wire.ReadBack

/-!
# Changes that concern transactions

A response keeps the changes that concern transactions, in the order of its
records (`Response.events_of_advanceAll`), and the session that it opens hands
them out (`Session.Delivers`). A server writes such a change with one byte that
counts its value, and that is how all of them are read but one: the value of a
promoted transaction is counted by a 32-bit word. A record of that kind is
therefore refused (`Record.read_promotion`), and the login with it
(`transactions_delivered`).
-/

namespace TdsSession

open Reader (bind_apply)

variable {σ : Type}

/-! ## Reading what is written -/

namespace EnvValue

/-- A value counted by a 32-bit word cannot be read if there is no such word. -/
theorem readLongBinary_of_short {data : Bytes} (h : data.length < 4) : readLongBinary data = .error .unexpectedEnd := by
  rw [readLongBinary, bind_apply, Reader.u32, bind_apply, Reader.field, if_neg (by omega)]
  rfl

/-- It cannot be read either if the word is larger than what comes after it. -/
theorem readLongBinary_of_excess {word rest : Bytes} (hword : word.length = 4)
    (h : rest.length < Bytes.ofLittleEndian word) :
    readLongBinary (word ++ rest) = .error (.incomplete (Bytes.ofLittleEndian word) rest.length) := by
  have hcount : (UInt32.ofNat (Bytes.ofLittleEndian word)).toNat = Bytes.ofLittleEndian word := by
    refine UInt32.toNat_ofNat_of_lt ?_
    have hlt := Bytes.ofLittleEndian_lt word
    rwa [hword] at hlt
  have hread := (Reader.reads_field hword).bind_pure fun b => UInt32.ofNat (Bytes.ofLittleEndian b)
  refine hread.bind_error ?_
  rw [hcount, readBinary, if_neg (by omega), map_eq_pure_bind, bind_apply, Reader.take, if_neg (by omega)]
  rfl

end EnvValue

namespace EnvChange

/-- A change whose values cannot be read is refused, with the reason in words. -/
theorem read_of_unreadable (kind : EnvKind) {values : Bytes} {e : ProtocolError}
    (hlength : (kind.code :: values).length < UInt16.size) (h : readValues kind.layout values = .error e) :
    read (Bytes.littleEndian 2 (kind.code :: values).length ++ kind.code :: values) =
      .error (.malformedEnvChange kind.code e.message) := by
  have hcount : (UInt16.ofNat (kind.code :: values).length).toNat = (kind.code :: values).length :=
    UInt16.toNat_ofNat_of_lt hlength
  refine (Reader.reads_u16 _).bind_error ?_
  rw [hcount]
  refine Reader.within_error ((Reader.reads_byte kind.code).bind_error ?_)
  rw [EnvKind.ofCode?_code]
  dsimp only
  rw [bind_apply, Reader.mapError, h]
  rfl

/-- The values of a promoted transaction, if one byte counts the new one. -/
def promotionValues (value : Bytes) : Bytes := Bytes.littleEndian 1 value.length ++ value ++ [0]

/-- Why they cannot be read: there is no 32-bit word, or it is larger than the value. -/
def promotionFault (value : Bytes) : ProtocolError :=
  if value.length = 1 then .unexpectedEnd
  else .incomplete (Bytes.ofLittleEndian ((promotionValues value).take 4)) (value.length - 2)

theorem length_promotionValues (value : Bytes) : (promotionValues value).length = value.length + 2 := by
  simp only [promotionValues, List.length_append, Bytes.length_littleEndian, List.length_cons, List.length_nil]
  omega

/-- The byte that counts a value is the lowest byte of the word that it is taken for. -/
theorem length_le_word {value : Bytes} (h : value.length ≤ 0xFF) :
    value.length ≤ Bytes.ofLittleEndian ((promotionValues value).take 4) := by
  have hbyte : (UInt8.ofNat value.length).toNat = value.length := UInt8.toNat_ofNat_of_lt (Nat.lt_succ_of_le h)
  show value.length ≤ (UInt8.ofNat value.length).toNat + 256 * _
  rw [hbyte]
  exact Nat.le_add_right ..

theorem readValues_promotion {value : Bytes} (hne : value ≠ []) (h : value.length ≤ 0xFF) :
    readValues .longBinary (promotionValues value) = .error (promotionFault value) := by
  have hread : EnvValue.readLongBinary (promotionValues value) = .error (promotionFault value) := by
    have hpos : 0 < value.length := List.length_pos_of_ne_nil hne
    have hlength := length_promotionValues value
    unfold promotionFault
    split
    · exact EnvValue.readLongBinary_of_short (by omega)
    · have hfour : ((promotionValues value).take 4).length = 4 := List.length_take_of_le (by omega)
      have hleft : ((promotionValues value).drop 4).length = value.length - 2 := by
        rw [List.length_drop]
        omega
      have hword := length_le_word h
      have hexcess : EnvValue.readLongBinary ((promotionValues value).take 4 ++ (promotionValues value).drop 4) = _ :=
        EnvValue.readLongBinary_of_excess hfour (by omega)
      rwa [List.take_append_drop, hleft] at hexcess
  rw [readValues, bind_apply, hread]
  rfl

end EnvChange

namespace Record

/-- A transaction that is promoted cannot be told by a record that counts its value with one byte. -/
theorem read_promotion {value : Bytes} (hne : value ≠ []) (h : value.length ≤ 0xFF) :
    EnvChange.read (binaryChange .promoteTransaction value).body =
      .error (.malformedEnvChange 15 (EnvChange.promotionFault value).message) := by
  have hlength : (EnvKind.promoteTransaction.code :: EnvChange.promotionValues value).length < UInt16.size := by
    rw [List.length_cons, EnvChange.length_promotionValues, show UInt16.size = 65536 from rfl]
    omega
  exact EnvChange.read_of_unreadable .promoteTransaction hlength (EnvChange.readValues_promotion hne h)

/-- A change that concerns a transaction is read back unless it is a promotion. -/
theorem readBack_transaction_iff {kind : EnvKind} {value : Bytes} (hkind : kind.isTransaction) (hne : value ≠ [])
    (h : value.length ≤ 0xFF) :
    (binaryChange kind value).ReadBack .envChange EnvChange.read (some ⟨kind, .binary value, .empty⟩) ↔
      kind ≠ .promoteTransaction := by
  constructor
  · rintro ⟨-, hread⟩ rfl
    rw [read_promotion hne h] at hread
    cases hread
  · intro hother
    refine readBack_binaryChange ?_ hne h
    cases kind <;> first | rfl | exact absurd hkind Bool.false_ne_true | exact absurd rfl hother

/-- The change that concerns a transaction and is told by a record. -/
def event? (record : Record) : Option EnvChange := record.change?.filter (·.kind.isTransaction)

theorem event?_of_readBack {record : Record} {change : EnvChange}
    (h : record.ReadBack .envChange EnvChange.read (some change)) (hkind : change.kind.isTransaction) :
    record.event? = some change := by
  obtain ⟨hcode, hread⟩ := h
  have hchange : record.change? = some change := by
    rw [change?, hcode, hread]
    rfl
  rw [event?, hchange, Option.filter, if_pos hkind]

end Record

/-! ## What a response keeps -/

namespace Response

variable {r r' : Response} {record : Record} {step : ResponseStep}

theorem events_of_takeChange {change : EnvChange} (h : r.takeChange change = .ok r') :
    r'.events = r.events ++ ((some change).filter (·.kind.isTransaction)).toList := by
  rw [Option.filter]
  cases hkind : change.kind with
  | packetSize =>
    simp only [takeChange, hkind] at h
    obtain ⟨size, -, h⟩ := Op.except_bind_eq_ok.mp h
    cases h
    exact (List.append_nil _).symm
  | collation =>
    simp only [takeChange, hkind] at h
    obtain ⟨collation, -, h⟩ := Op.except_bind_eq_ok.mp h
    cases collation <;> cases h <;> exact (List.append_nil _).symm
  | mirroringPartner =>
    simp only [takeChange, hkind] at h
    cases h
    split <;> exact (List.append_nil _).symm
  | routing =>
    simp only [takeChange, hkind] at h
    split at h
    · obtain ⟨⟨⟩, -, h⟩ := Op.except_bind_eq_ok.mp h
      cases h
      exact (List.append_nil _).symm
    · cases h
      exact (List.append_nil _).symm
  | beginTransaction | commitTransaction | rollbackTransaction | enlistTransaction | defectTransaction
    | promoteTransaction | transactionManager | transactionEnded =>
    simp only [takeChange, hkind] at h
    cases h
    rfl
  | _ =>
    simp only [takeChange, hkind] at h
    cases h
    exact (List.append_nil _).symm

/-- A record adds the change that it tells, if that concerns a transaction. -/
theorem events_of_take (h : r.take record = .ok step) :
    (step.response r).events = r.events ++ record.event?.toList := by
  unfold Record.event?
  rcases hchange : record.change? with _ | change
  · rw [(kept_of_take hchange h).2.2]
    exact (List.append_nil _).symm
  · rw [take_of_change hchange] at h
    rcases htake : r.takeChange change with e | r' <;> rw [htake] at h <;> cases h
    exact events_of_takeChange htake

/-- The changes that concern transactions are kept in the order of the records. -/
theorem events_of_advanceAll {records : List Record} (h : r.advanceAll records = .ok r') :
    r'.events = r.events ++ records.filterMap Record.event? := by
  induction records generalizing r with
  | nil =>
    cases h
    exact (List.append_nil _).symm
  | cons record rest ih =>
    rw [advanceAll_cons] at h
    obtain ⟨mid, hmid, h⟩ := Op.except_bind_eq_ok.mp h
    obtain ⟨step, htake, rfl⟩ := take_of_advance hmid
    rw [ih h, events_of_take htake, List.append_assoc, List.filterMap_cons]
    cases record.event? <;> rfl

/-- Records that tell a promotion are not taken. -/
theorem ne_promotion_of_advanceAll {records : List Record} (h : r.advanceAll records = .ok r') {kind : EnvKind}
    {value : Bytes} (hne : value ≠ []) (hvalue : value.length ≤ 0xFF) (hmem : .binaryChange kind value ∈ records) :
    kind ≠ .promoteTransaction := by
  rintro rfl
  obtain ⟨before, step, htake⟩ := exists_take_of_advanceAll h hmem
  have hcode : RecordKind.ofCode? (Record.binaryChange .promoteTransaction value).code = some .envChange := rfl
  rw [take, hcode] at htake
  dsimp only at htake
  rw [Record.read_promotion hne hvalue] at htake
  cases htake

end Response

/-! ## What a session hands out -/

/-- A change that concerns a transaction, with a value that one byte can count. -/
structure EnvChange.Told (change : EnvKind × Bytes) : Prop where
  isTransaction : change.1.isTransaction
  ne_nil : change.2 ≠ []
  length_le : change.2.length ≤ 0xFF

/-- The session hands out the changes that records have told, each as it was written and in the order of the
records. -/
structure Session.Delivers (session : Session) (records : List Record) : Prop where
  events : session.takeEvents.1 = records.filterMap Record.event?
  told : ∀ changes : List (EnvKind × Bytes), (∀ change ∈ changes, EnvChange.Told change) →
    (changes.map fun change => Record.binaryChange change.1 change.2).Sublist records →
    (changes.map fun change => ⟨change.1, .binary change.2, .empty⟩).Sublist session.takeEvents.1

/-- A session with the events of a response hands them out. -/
theorem Session.delivers_of_advanceAll {session : Session} {r r' : Response} {records : List Record}
    (h : r.advanceAll records = .ok r') (hnone : r.events = []) (hevents : session.events = r'.events) :
    session.Delivers records := by
  have htaken : session.takeEvents.1 = records.filterMap Record.event? := by
    show session.events = _
    rw [hevents, Response.events_of_advanceAll h, hnone, List.nil_append]
  refine ⟨htaken, fun changes htold hsub => ?_⟩
  have hread : (changes.map fun change => Record.binaryChange change.1 change.2).filterMap Record.event? =
      changes.map fun change => ⟨change.1, .binary change.2, .empty⟩ := by
    rw [List.filterMap_map, ← List.filterMap_eq_map]
    refine List.filterMap_congr fun change hchange => ?_
    obtain ⟨hkind, hne, hlength⟩ := htold change hchange
    have hmem : Record.binaryChange change.1 change.2 ∈ records :=
      hsub.subset (List.mem_map_of_mem hchange)
    have hother := Response.ne_promotion_of_advanceAll h hne hlength hmem
    exact Record.event?_of_readBack ((Record.readBack_transaction_iff hkind hne hlength).mpr hother) hkind
  rw [htaken, ← hread]
  exact hsub.filterMap _

theorem LoginStart.delivers_of_login {server : Server σ} {attempts : Nat} {s : LoginStart} {w : World σ}
    {e : Established} {session : Session} (h : (login server attempts s w).1 = .ok e)
    (hevents : session.events = e.events) :
    session.Delivers (received (sinceConnected (login server attempts s w).2.world.trace)) := by
  obtain ⟨target, ack, response, -, -, -, -, hresponse, hcomes⟩ := comesOf_of_login h
  exact Session.delivers_of_advanceAll hresponse rfl (hevents.trans hcomes.events)

/-- What concerns transactions is told by a record that is read back as it was written exactly if it is no promotion.
So whatever a login response tells of them in this way is handed out by the session, unchanged and in order, be it
opened or recovered. A login whose response tells a promotion fails, as its value is read with another length. -/
theorem transactions_delivered (server : Server σ) (attempts : Nat) :
    (∀ kind value, EnvChange.Told (kind, value) →
      ((Record.binaryChange kind value).ReadBack .envChange EnvChange.read (some ⟨kind, .binary value, .empty⟩) ↔
        kind ≠ .promoteTransaction)) ∧
    (∀ config group w c, (Connection.connect server attempts config group w).1 = .ok c →
      c.session.Delivers (received (sinceConnected (Connection.connect server attempts config group w).2.world.trace))) ∧
    (∀ run run', ConnectionM.recover server attempts run = (.ok (), run') →
      run'.connection.session.Delivers (received (sinceConnected run'.world.trace))) ∧
    ∀ s w t n value older, EnvChange.Told (.promoteTransaction, value) →
      (t, .received n (.binaryChange .promoteTransaction value)) :: older <:+
        (login server attempts s w).2.world.trace → w.trace <:+ older →
      (login server attempts s w).1 =
        .error (.failed (.protocol (.malformedEnvChange 15 (EnvChange.promotionFault value).message))) := by
  refine ⟨fun kind value h => Record.readBack_transaction_iff h.isTransaction h.ne_nil h.length_le,
    fun config group w c h => ?_, fun run run' h => ?_, fun s w t n value older h hreceived hnew => ?_⟩
  · obtain ⟨e, hlogin, -, hsession⟩ := Connection.connect_eq_ok h
    rw [hsession]
    exact LoginStart.delivers_of_login hlogin rfl
  · obtain ⟨s, w, e, hrecovers⟩ := ConnectionM.recover_eq_ok h
    rw [received_of_closing hrecovers.trace, hrecovers.session]
    exact LoginStart.delivers_of_login hrecovers.login rfl
  · have hfault : s.fault? (.binaryChange .promoteTransaction value) =
        some (.malformedEnvChange 15 (EnvChange.promotionFault value).message) := by
      have hcode : RecordKind.ofCode? (Record.binaryChange .promoteTransaction value).code = some .envChange := rfl
      rw [LoginStart.fault?, Record.fault?, hcode]
      dsimp only
      rw [faultIn, Record.read_promotion h.ne_nil h.length_le]
    exact (LoginStart.login_of_fault hreceived hnew hfault).1

/-- A server that lets everybody in and tells what it is doing to transactions. -/
def transactionWorld (changes : List (EnvKind × Bytes)) : World LoginScript where
  server := { fallback := .success (changes.map fun change => .binaryChange change.1 change.2) }

/-- A transaction that begins and is committed. -/
def committed : List (EnvKind × Bytes) := [(.beginTransaction, [1, 2, 3]), (.commitTransaction, [1, 2, 3])]

/-- Both changes are handed out, the first one first. A promotion in their place fails the login. -/
theorem committed_delivered :
    (∀ change ∈ committed, EnvChange.Told change) ∧
    (∃ c, (Connection.connect (LineFaults.server {}) 1 plainLogin.config {} (transactionWorld committed)).1 = .ok c ∧
      [⟨.beginTransaction, .binary [1, 2, 3], .empty⟩, ⟨.commitTransaction, .binary [1, 2, 3], .empty⟩].Sublist
        c.session.takeEvents.1) ∧
    (login (LineFaults.server {}) 1 plainLogin (transactionWorld [(.promoteTransaction, [1, 2, 3])])).1 =
      .error (.failed (.protocol (.malformedEnvChange 15 (ProtocolError.incomplete 50462979 1).message))) := by
  have htold : ∀ change ∈ committed, EnvChange.Told change := by
    refine List.forall_mem_cons.mpr ⟨⟨rfl, nofun, by decide⟩, List.forall_mem_singleton.mpr ⟨rfl, nofun, by decide⟩⟩
  have hreceived : (committed.map fun change => Record.binaryChange change.1 change.2).Sublist
      (received (sinceConnected (Connection.connect (LineFaults.server {}) 1 plainLogin.config {}
        (transactionWorld committed)).2.world.trace)) := by
    decide +kernel
  have hok : (Connection.connect (LineFaults.server {}) 1 plainLogin.config {}
      (transactionWorld committed)).1.isOk := by
    decide +kernel
  have hmem : (0, .received 1 (.binaryChange .promoteTransaction [1, 2, 3])) ∈
      (login (LineFaults.server {}) 1 plainLogin
        (transactionWorld [(.promoteTransaction, [1, 2, 3])])).2.world.trace := by
    decide +kernel
  obtain ⟨-, hconnect, -, hpromotion⟩ := transactions_delivered (LineFaults.server {}) 1
  refine ⟨htold, ?_, ?_⟩
  · rcases h : (Connection.connect (LineFaults.server {}) 1 plainLogin.config {} (transactionWorld committed)).1 with
      stop | c
    · rw [h] at hok
      cases hok
    · exact ⟨c, rfl, (hconnect _ _ _ c h).told committed htold hreceived⟩
  · obtain ⟨later, older, htrace⟩ := List.append_of_mem hmem
    exact hpromotion plainLogin _ 0 1 [1, 2, 3] older ⟨rfl, nofun, by decide⟩ ⟨later, htrace.symm⟩ List.nil_suffix

/-- A promotion is told like any other change, and it is not read back: the server that tells it lets nobody in. -/
theorem promotion_unreadable :
    EnvChange.Told (.promoteTransaction, [1]) ∧
    EnvChange.read (Record.binaryChange .promoteTransaction [1]).body =
      .error (.malformedEnvChange 15 ProtocolError.unexpectedEnd.message) ∧
    ¬ (Record.binaryChange .promoteTransaction [1]).ReadBack .envChange EnvChange.read
      (some ⟨.promoteTransaction, .binary [1], .empty⟩) ∧
    (login (LineFaults.server {}) 1 plainLogin (transactionWorld [(.promoteTransaction, [1])])).1 =
      .error (.failed (.protocol (.malformedEnvChange 15 ProtocolError.unexpectedEnd.message))) := by
  have hread : EnvChange.read (Record.binaryChange .promoteTransaction [1]).body =
      .error (.malformedEnvChange 15 ProtocolError.unexpectedEnd.message) := by decide +kernel
  have hmem : (0, .received 1 (.binaryChange .promoteTransaction [1])) ∈
      (login (LineFaults.server {}) 1 plainLogin (transactionWorld [(.promoteTransaction, [1])])).2.world.trace := by
    decide +kernel
  have hfault : plainLogin.fault? (.binaryChange .promoteTransaction [1]) =
      some (.malformedEnvChange 15 ProtocolError.unexpectedEnd.message) := by decide +kernel
  obtain ⟨later, older, htrace⟩ := List.append_of_mem hmem
  refine ⟨⟨rfl, nofun, by decide⟩, hread, ?_,
    (LoginStart.login_of_fault ⟨later, htrace.symm⟩ List.nil_suffix hfault).1⟩
  rintro ⟨-, h⟩
  rw [hread] at h
  cases h

end TdsSession
