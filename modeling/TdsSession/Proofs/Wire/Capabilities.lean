import TdsSession.Proofs.Operation
import TdsSession.Wire.Capabilities

/-!
# Acknowledged features

An acknowledgement that is accepted does one of a few things, and `Accepts`
says which (`Capabilities.accepts_of_acceptFeature`): it changes what the server
is known to be able to do, and not what has been requested
(`Capabilities.takes_of_acceptFeature`). Whether it is refused depends on what
has been requested and on nothing that has been acknowledged before
(`Capabilities.fault?_acceptFeature`).
-/

namespace TdsSession

variable {α β : Type}

/-! ## Faults -/

/-- What is wrong, if something is. -/
def fault? : Except ProtocolError α → Option ProtocolError
  | .error e => some e
  | .ok _ => none

/-- What is wrong with a sequence is wrong with its first part, or else with the second. -/
theorem fault?_bind (m : Except ProtocolError α) (f : α → Except ProtocolError β) :
    fault? (m >>= f) = match m with
      | .error e => some e
      | .ok a => fault? (f a) := by
  cases m <;> rfl

theorem fault?_bind_congr {γ : Type} {m : Except ProtocolError α} {f : α → Except ProtocolError β}
    {g : α → Except ProtocolError γ} (h : ∀ a, fault? (f a) = fault? (g a)) :
    fault? (m >>= f) = fault? (m >>= g) := by
  cases m with
  | error e => rfl
  | ok a => exact h a

/-- Nothing goes wrong after `m` if its value is only looked at. -/
theorem fault?_bind_of_none {m : Except ProtocolError α} {f : α → Except ProtocolError β}
    (h : ∀ a, m = .ok a → fault? (f a) = none) : fault? (m >>= f) = fault? m := by
  cases m with
  | error e => rfl
  | ok a => exact h a rfl

/-! ## Features -/

theorem Feature.eq_id_of_ofId? {id : UInt8} {f : Feature} (h : Feature.ofId? id = some f) : id = f.id := by
  unfold Feature.ofId? at h
  split at h <;> cases h <;> exact UInt8.toNat_inj.mp ‹_›

/-- What an acknowledgement says about reading from a failover partner, if it is about that. -/
def FeatureAck.readOnlyFailover? (ack : FeatureAck) : Option Bool :=
  if ack.id = Feature.azureSqlSupport.id then some (ack.payload.head?.any fun b => b &&& 0x01 != 0) else none

namespace Capabilities

variable {c c' : Capabilities} {f : Feature} {payload : Bytes} {ack : FeatureAck}

/-! ## What a payload is taken for -/

theorem requireRequested_eq_ok (h : c.requireRequested f = .ok ()) : c.requested.contains f.flag = true := by
  unfold requireRequested at h
  split at h
  · assumption
  · cases h

theorem firstByte_eq_ok {b : UInt8} (h : firstByte f payload = .ok b) : ∃ rest, payload = b :: rest := by
  cases payload <;> cases h
  exact ⟨_, rfl⟩

theorem onlyByte_eq_ok {b : UInt8} (h : onlyByte f payload = .ok b) : payload = [b] := by
  rcases payload with _ | ⟨b', _ | ⟨b'', rest⟩⟩ <;> cases h
  rfl

theorem requireVersion_eq_ok {v : UInt8} (h : requireVersion f v = .ok ()) : 1 ≤ v ∧ v ≤ f.maxVersion := by
  unfold requireVersion at h
  split at h
  · cases h
  · rename_i hspoken
    obtain ⟨hzero, hmax⟩ := not_or.mp hspoken
    refine ⟨?_, UInt8.not_lt.mp hmax⟩
    rw [UInt8.le_iff_toNat_le]
    exact Nat.pos_of_ne_zero fun h => hzero (UInt8.toNat_inj.mp h)

theorem versionOrAbsent_eq_ok {version : Option UInt8} (h : versionOrAbsent f payload = .ok version) :
    ∃ v, payload = [v] ∧ (v = 0 ∧ version = none ∨ (1 ≤ v ∧ v ≤ f.maxVersion) ∧ version = some v) := by
  obtain ⟨v, hv, h⟩ := Op.except_bind_eq_ok.mp h
  refine ⟨v, onlyByte_eq_ok hv, ?_⟩
  split at h
  · cases h
    exact .inl ⟨‹_›, rfl⟩
  · obtain ⟨⟨⟩, hversion, h⟩ := Op.except_bind_eq_ok.mp h
    cases h
    exact .inr ⟨requireVersion_eq_ok hversion, rfl⟩

/-- What the capabilities become with the payload of a known feature that is not refused. -/
inductive Accepts (c : Capabilities) : Feature → Bytes → Capabilities → Prop
  | sessionRecovery {payload : Bytes} {slots : List StateRecord}
      (hrequested : c.requested.contains Feature.sessionRecovery.flag = true)
      (hslots : StateRecord.readAll payload = .ok slots) :
      Accepts c .sessionRecovery payload { c with sessionRecovery := true }
  | fedAuth (hrequested : c.requested.contains Feature.fedAuth.flag = true) :
      Accepts c .fedAuth [] { c with fedAuth := true }
  | columnEncryption {v : UInt8} {rest : Bytes} {enclave : Option String} (hversion : 1 ≤ v ∧ v ≤ 3)
      (henclave : readEnclave (v :: rest) = .ok enclave) :
      Accepts c .columnEncryption (v :: rest) { c with encryptionVersion := some v, enclaveType := enclave }
  | globalTransactions (b : UInt8) (rest : Bytes) :
      Accepts c .globalTransactions (b :: rest)
        { c with globalTransactionsAvailable := true, globalTransactionsEnabled := b == 1 }
  | azureSqlSupport (b : UInt8) (rest : Bytes) :
      Accepts c .azureSqlSupport (b :: rest) { c with azureSql := true, readOnlyFailover := b &&& 0x01 != 0 }
  | disabledClassification (v : UInt8) :
      Accepts c .dataClassification [v, 0] { c with dataClassification := .disabled }
  | dataClassification {v enabled : UInt8} (henabled : enabled ≠ 0) (hversion : 1 ≤ v ∧ v ≤ 2) :
      Accepts c .dataClassification [v, enabled] { c with dataClassification := .enabled v }
  | utf8Support (b : UInt8) (rest : Bytes) :
      Accepts c .utf8Support (b :: rest) { c with utf8 := b &&& 0x01 != 0 }
  | dnsCaching (b : UInt8) (rest : Bytes) :
      Accepts c .dnsCaching (b :: rest) { c with dnsCaching := b &&& 0x01 != 0 }
  | json {v : UInt8} {version : Option UInt8} (hversion : v = 0 ∧ version = none ∨ v = 1 ∧ version = some 1) :
      Accepts c .json [v] { c with jsonVersion := version }
  | vector {v : UInt8} {version : Option UInt8} (hversion : v = 0 ∧ version = none ∨ v = 1 ∧ version = some 1) :
      Accepts c .vector [v] { c with vectorVersion := version }
  | enhancedRouting (b : UInt8) :
      Accepts c .enhancedRouting [b] { c with enhancedRouting := b == 1 }

/-- A payload that is taken over is taken for what its feature says. -/
theorem accepts_of_acceptKnown (h : c.acceptKnown f payload = .ok c') : c.Accepts f payload c' := by
  have single {f : Feature} {version : Option UInt8} (hmax : f.maxVersion = 1)
      (h : versionOrAbsent f payload = .ok version) :
      ∃ v, payload = [v] ∧ (v = 0 ∧ version = none ∨ v = 1 ∧ version = some 1) := by
    obtain ⟨v, hpayload, habsent | ⟨⟨hlow, hhigh⟩, rfl⟩⟩ := versionOrAbsent_eq_ok h
    · exact ⟨v, hpayload, .inl habsent⟩
    · obtain rfl : v = 1 := UInt8.le_antisymm (hmax ▸ hhigh) hlow
      exact ⟨1, hpayload, .inr ⟨rfl, rfl⟩⟩
  unfold acceptKnown at h
  cases f with
  | sessionRecovery =>
    obtain ⟨⟨⟩, hrequested, h⟩ := Op.except_bind_eq_ok.mp h
    obtain ⟨slots, hslots, h⟩ := Op.except_bind_eq_ok.mp h
    cases h
    exact .sessionRecovery (requireRequested_eq_ok hrequested) hslots
  | fedAuth =>
    obtain ⟨⟨⟩, hrequested, h⟩ := Op.except_bind_eq_ok.mp h
    split at h <;> cases h
    rename_i hempty
    rw [List.isEmpty_iff.mp hempty]
    exact .fedAuth (requireRequested_eq_ok hrequested)
  | columnEncryption =>
    obtain ⟨v, hv, h⟩ := Op.except_bind_eq_ok.mp h
    obtain ⟨⟨⟩, hversion, h⟩ := Op.except_bind_eq_ok.mp h
    obtain ⟨enclave, henclave, h⟩ := Op.except_bind_eq_ok.mp h
    cases h
    obtain ⟨rest, rfl⟩ := firstByte_eq_ok hv
    exact .columnEncryption (requireVersion_eq_ok hversion) henclave
  | globalTransactions =>
    obtain ⟨b, hb, h⟩ := Op.except_bind_eq_ok.mp h
    cases h
    obtain ⟨rest, rfl⟩ := firstByte_eq_ok hb
    exact .globalTransactions b rest
  | azureSqlSupport =>
    obtain ⟨b, hb, h⟩ := Op.except_bind_eq_ok.mp h
    cases h
    obtain ⟨rest, rfl⟩ := firstByte_eq_ok hb
    exact .azureSqlSupport b rest
  | dataClassification =>
    dsimp only at h
    split at h
    · split at h
      · rename_i hdisabled
        cases h
        cases hdisabled
        exact .disabledClassification _
      · obtain ⟨⟨⟩, hversion, h⟩ := Op.except_bind_eq_ok.mp h
        cases h
        exact .dataClassification ‹_› (requireVersion_eq_ok hversion)
    · cases h
  | utf8Support =>
    obtain ⟨b, hb, h⟩ := Op.except_bind_eq_ok.mp h
    cases h
    obtain ⟨rest, rfl⟩ := firstByte_eq_ok hb
    exact .utf8Support b rest
  | dnsCaching =>
    obtain ⟨b, hb, h⟩ := Op.except_bind_eq_ok.mp h
    cases h
    obtain ⟨rest, rfl⟩ := firstByte_eq_ok hb
    exact .dnsCaching b rest
  | json =>
    obtain ⟨version, hversion, h⟩ := Op.except_bind_eq_ok.mp h
    cases h
    obtain ⟨v, rfl, htaken⟩ := single rfl hversion
    exact .json htaken
  | vector =>
    obtain ⟨version, hversion, h⟩ := Op.except_bind_eq_ok.mp h
    cases h
    obtain ⟨v, rfl, htaken⟩ := single rfl hversion
    exact .vector htaken
  | enhancedRouting =>
    obtain ⟨b, hb, h⟩ := Op.except_bind_eq_ok.mp h
    cases h
    rw [onlyByte_eq_ok hb]
    exact .enhancedRouting b
  | terminator => cases h

/-- An acknowledgement that is not refused is taken over, or it is of an unknown feature and changes nothing. -/
theorem accepts_of_acceptFeature (h : c.acceptFeature ack = .ok c') :
    (∃ f : Feature, ack.id = f.id ∧ c.Accepts f ack.payload c') ∨ Feature.ofId? ack.id = none ∧ c' = c := by
  unfold acceptFeature at h
  split at h
  · rename_i f hf
    exact .inl ⟨f, Feature.eq_id_of_ofId? hf, accepts_of_acceptKnown h⟩
  · rename_i hunknown
    cases h
    exact .inr ⟨hunknown, rfl⟩

/-! ## What acknowledgements leave alone -/

/-- What `c` becomes with acknowledgements, one after the other: the request stays, and whether a failover partner can
be read from is what the last of them says that is about it. -/
structure Takes (c : Capabilities) (acks : List FeatureAck) (c' : Capabilities) : Prop where
  requested : c'.requested = c.requested
  readOnlyFailover :
    c'.readOnlyFailover = (acks.reverse.findSome? FeatureAck.readOnlyFailover?).getD c.readOnlyFailover

namespace Takes

theorem nil (requested : c'.requested = c.requested) (readOnlyFailover : c'.readOnlyFailover = c.readOnlyFailover) :
    c.Takes [] c' := ⟨requested, readOnlyFailover⟩

theorem append {acks acks' : List FeatureAck} {c'' : Capabilities} (h : c.Takes acks c') (h' : c'.Takes acks' c'') :
    c.Takes (acks ++ acks') c'' := by
  refine ⟨h'.requested.trans h.requested, ?_⟩
  rw [h'.readOnlyFailover, h.readOnlyFailover, List.reverse_append, List.findSome?_append]
  rcases acks'.reverse.findSome? FeatureAck.readOnlyFailover? with _ | b <;> rfl

/-- An acknowledgement that is not about reading from a failover partner. -/
theorem other (hid : ack.id ≠ Feature.azureSqlSupport.id) (requested : c'.requested = c.requested)
    (readOnlyFailover : c'.readOnlyFailover = c.readOnlyFailover) : c.Takes [ack] c' := by
  refine ⟨requested, ?_⟩
  rw [List.reverse_singleton, List.findSome?_singleton, FeatureAck.readOnlyFailover?, if_neg hid]
  exact readOnlyFailover

end Takes

theorem takes_of_accepts {f : Feature} (hid : ack.id = f.id) (h : c.Accepts f ack.payload c') : c.Takes [ack] c' := by
  generalize hpayload : ack.payload = payload at h
  cases h with
  | azureSqlSupport b rest =>
    refine ⟨rfl, ?_⟩
    rw [List.reverse_singleton, List.findSome?_singleton, FeatureAck.readOnlyFailover?, if_pos hid, hpayload]
    rfl
  | _ => exact .other (by rw [hid]; decide) rfl rfl

theorem takes_of_acceptFeature (h : c.acceptFeature ack = .ok c') : c.Takes [ack] c' := by
  rcases accepts_of_acceptFeature h with ⟨f, hid, haccepts⟩ | ⟨hunknown, rfl⟩
  · exact takes_of_accepts hid haccepts
  · refine .other (fun hid => ?_) rfl rfl
    rw [hid, Feature.ofId?_id] at hunknown
    cases hunknown

/-! ## Faults of features -/

/-- Whether the payload of a known feature is refused does not depend on what has been acknowledged before. -/
theorem fault?_acceptKnown (c : Capabilities) (f : Feature) (payload : Bytes) :
    fault? (c.acceptKnown f payload) = fault? ((empty c.requested).acceptKnown f payload) := by
  unfold acceptKnown
  cases f with
  | sessionRecovery => exact fault?_bind_congr fun _ => fault?_bind_congr fun _ => rfl
  | fedAuth =>
    refine fault?_bind_congr fun _ => ?_
    split <;> rfl
  | columnEncryption => exact fault?_bind_congr fun _ => fault?_bind_congr fun _ => fault?_bind_congr fun _ => rfl
  | dataClassification =>
    dsimp only
    split
    · split
      · rfl
      · exact fault?_bind_congr fun _ => rfl
    · rfl
  | globalTransactions | azureSqlSupport | utf8Support | dnsCaching | json | vector | enhancedRouting =>
    exact fault?_bind_congr fun _ => rfl
  | terminator => rfl

theorem fault?_acceptFeature (c : Capabilities) (ack : FeatureAck) :
    fault? (c.acceptFeature ack) = fault? ((empty c.requested).acceptFeature ack) := by
  unfold acceptFeature
  split
  · exact fault?_acceptKnown c _ ack.payload
  · rfl

/-- An accepted login tells a version, and leaves alone what features have been requested and acknowledged. -/
theorem eq_of_acceptLogin {ack : LoginAck} {g : Generation} (h : c.acceptLogin ack = .ok (c', g)) :
    ack.version.generation? = some g ∧ c' =
      { c with
        protocolVersion := some ack.version
        serverVersion := some ack.serverVersion
        serverName := ack.program } := by
  obtain ⟨g', hg, h⟩ := Op.except_bind_eq_ok.mp h
  cases h
  refine ⟨?_, rfl⟩
  unfold validateVersion at hg
  rcases hgeneration : ack.version.generation? with _ | g' <;> rw [hgeneration] at hg <;> cases hg
  rfl

end Capabilities

end TdsSession
