import TdsSession.Proofs.Login.Acknowledged

/-!
# Records that end a login

A record of a known type may be cut short or malformed, acknowledge a feature
that was not requested, name an impossible target, or ask for a token where
there is none to show (`Record.fault?`). A response takes every other record,
and refuses these for just that reason (`Response.fault?_take`).
-/

namespace TdsSession

/-! ## What is wrong with a record -/

/-- What is wrong with a body: it cannot be read, or what has been read is refused. -/
def faultIn {α : Type} (reader : Reader α) (refused? : α → Option ProtocolError) (body : Bytes) : Option ProtocolError :=
  match reader body with
  | .error e => some e
  | .ok (a, _) => refused? a

/-- What is wrong with an accepted login: no server speaks this version. -/
def LoginAck.fault? (ack : LoginAck) : Option ProtocolError :=
  if ack.version.generation?.isSome then none else some (.unsupportedProtocolVersion ack.version.raw)

/-- What is wrong with an acknowledgement for a client that has requested some features. -/
def FeatureAck.fault? (requested : FeatureSet) (ack : FeatureAck) : Option ProtocolError :=
  TdsSession.fault? ((Capabilities.empty requested).acceptFeature ack)

/-- What is wrong with the new value of a change: it is no packet size, no collation, or a target that cannot be
connected to. -/
def EnvChange.fault? (c : EnvChange) : Option ProtocolError :=
  match c.kind with
  | .packetSize => TdsSession.fault? (Response.parsePacketSize (c.new.text?.getD ""))
  | .collation => TdsSession.fault? c.collation
  | .routing => c.routing?.bind fun target => TdsSession.fault? target.validate
  | _ => none

/-- What is wrong with a record for a client that has requested some features, and can get a token to show or not. -/
def Record.fault? (requested : FeatureSet) (provided : Bool) (record : Record) : Option ProtocolError :=
  match RecordKind.ofCode? record.code with
  | none => none
  | some .loginAck => faultIn LoginAck.read LoginAck.fault? record.body
  | some .featureExtAck => faultIn FeatureAck.readList (·.findSome? (FeatureAck.fault? requested)) record.body
  | some .envChange => faultIn EnvChange.read (·.bind EnvChange.fault?) record.body
  | some .error | some .info => faultIn ServerMessage.read (fun _ => none) record.body
  | some .sessionState => faultIn StateToken.read (fun _ => none) record.body
  | some .fedAuthInfo =>
    faultIn FedAuthInfo.read
      (fun _ => if provided then none else some (.unrequestedFeature Feature.fedAuth.id)) record.body
  | some .done => faultIn Done.read (fun _ => none) record.body

/-- A record that asks for no token is the same to those who can get one and to those who cannot. -/
theorem Record.fault?_eq {requested : FeatureSet} {record : Record}
    (h : RecordKind.ofCode? record.code ≠ some .fedAuthInfo) (provided : Bool) :
    record.fault? requested provided = record.fault? requested true := by
  unfold Record.fault?
  split <;> first | rfl | exact absurd ‹_› h

/-! ## What a response refuses -/

/-- What is read and then looked at fails if it cannot be read, or if it is refused. -/
theorem fault?_read_bind {α β : Type} {reader : Reader α} {f : α × Bytes → Except ProtocolError β}
    {refused? : α → Option ProtocolError} (h : ∀ a rest, fault? (f (a, rest)) = refused? a) (body : Bytes) :
    fault? (reader body >>= f) = faultIn reader refused? body := by
  rw [fault?_bind, faultIn]
  rcases reader body with e | ⟨a, rest⟩
  · rfl
  · exact h a rest

/-- The slots in an acknowledgement of session recovery that is accepted can be read. -/
theorem Capabilities.readAll_of_acceptFeature {c c' : Capabilities} {ack : FeatureAck}
    (hid : ack.id = Feature.sessionRecovery.id) (h : c.acceptFeature ack = .ok c') :
    ∃ slots, StateRecord.readAll ack.payload = .ok slots := by
  unfold acceptFeature at h
  rw [hid, Feature.ofId?_id] at h
  obtain ⟨⟨⟩, -, h⟩ := Op.except_bind_eq_ok.mp h
  obtain ⟨slots, hslots, -⟩ := Op.except_bind_eq_ok.mp h
  exact ⟨slots, hslots⟩

namespace Response

variable {r r' : Response}

theorem fault?_takeLoginAck (r : Response) (ack : LoginAck) : fault? (r.takeLoginAck ack) = ack.fault? := by
  unfold takeLoginAck Capabilities.acceptLogin Capabilities.validateVersion LoginAck.fault?
  rcases ack.version.generation? with _ | g <;> rfl

theorem fault?_takeFeature (r : Response) (ack : FeatureAck) :
    fault? (r.takeFeature ack) = ack.fault? r.capabilities.requested := by
  unfold takeFeature FeatureAck.fault?
  rw [← Capabilities.fault?_acceptFeature]
  refine fault?_bind_of_none fun capabilities hcapabilities => ?_
  split
  · obtain ⟨slots, hslots⟩ := Capabilities.readAll_of_acceptFeature ‹_› hcapabilities
    unfold SessionState.record
    rw [hslots]
    rfl
  · rfl

/-- Of the features that are acknowledged, the first that is refused is what is wrong with all of them. -/
theorem fault?_takeFeatures (acks : List FeatureAck) (r : Response) :
    fault? (acks.foldlM takeFeature r) = acks.findSome? (FeatureAck.fault? r.capabilities.requested) := by
  induction acks generalizing r with
  | nil => rfl
  | cons ack acks ih =>
    rw [List.foldlM_cons, fault?_bind, List.findSome?_cons, ← fault?_takeFeature]
    rcases htake : r.takeFeature ack with e | r'
    · rfl
    · have hrest := ih r'
      rw [(takes_of_takeFeature htake).requested] at hrest
      exact hrest

theorem fault?_takeChange (r : Response) (change : EnvChange) : fault? (r.takeChange change) = change.fault? := by
  unfold takeChange EnvChange.fault?
  dsimp only
  split <;> rename_i hkind <;> simp only [hkind]
  · rfl
  · rfl
  · exact fault?_bind_of_none fun _ _ => rfl
  · refine fault?_bind_of_none fun collation _ => ?_
    cases collation <;> rfl
  · rfl
  · rfl
  · rfl
  · rcases change.routing? with _ | target
    · rfl
    · exact fault?_bind_of_none fun _ _ => rfl
  · split <;> rfl

/-- A response takes every record with which nothing is wrong, and refuses every other for what is wrong with it. -/
theorem fault?_take (r : Response) (record : Record) :
    fault? (r.take record) = record.fault? r.capabilities.requested true := by
  unfold take Record.fault?
  rcases RecordKind.ofCode? record.code with _ | kind
  · rfl
  cases kind with
  | loginAck => exact fault?_read_bind (fun ack _ => (fault?_bind_of_none fun _ _ => rfl).trans (r.fault?_takeLoginAck ack)) _
  | featureExtAck =>
    exact fault?_read_bind (fun acks _ => (fault?_bind_of_none fun _ _ => rfl).trans (fault?_takeFeatures acks r)) _
  | envChange =>
    refine fault?_read_bind (fun change _ => ?_) _
    cases change with
    | none => rfl
    | some change => exact (fault?_bind_of_none fun _ _ => rfl).trans (r.fault?_takeChange change)
  | error | info | sessionState | fedAuthInfo | done => exact fault?_read_bind (fun _ _ => rfl) _

end Response

end TdsSession
