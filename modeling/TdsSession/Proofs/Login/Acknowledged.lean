import TdsSession.Proofs.Login.Records
import TdsSession.Proofs.Wire.Capabilities

/-!
# What a response acknowledges

What a server is known to be able to do at the end of a response is what the
acknowledgements of features in its records say, in their order
(`Response.takes_of_advanceAll`). What has been requested stays as it was.
-/

namespace TdsSession

/-- The features that a record acknowledges, in their order. -/
def Record.acks (record : Record) : List FeatureAck :=
  match RecordKind.ofCode? record.code, FeatureAck.readList record.body with
  | some .featureExtAck, .ok (acks, _) => acks
  | _, _ => []

/-- What records say last about reading from a failover partner. -/
def readOnlyFailover? (records : List Record) : Option Bool :=
  (records.flatMap Record.acks).reverse.findSome? FeatureAck.readOnlyFailover?

namespace Response

variable {r r' : Response} {record : Record} {step : ResponseStep}

theorem takes_of_takeFeature {ack : FeatureAck} (h : r.takeFeature ack = .ok r') :
    r.capabilities.Takes [ack] r'.capabilities := by
  obtain ⟨capabilities, hcapabilities, h⟩ := Op.except_bind_eq_ok.mp h
  have htakes := Capabilities.takes_of_acceptFeature hcapabilities
  split at h
  · obtain ⟨session, -, h⟩ := Op.except_bind_eq_ok.mp h
    cases h
    exact htakes
  · cases h
    exact htakes

theorem takes_of_takeFeatures {acks : List FeatureAck} (h : acks.foldlM takeFeature r = .ok r') :
    r.capabilities.Takes acks r'.capabilities := by
  induction acks generalizing r with
  | nil =>
    cases h
    exact .nil rfl rfl
  | cons ack acks ih =>
    rw [List.foldlM_cons] at h
    obtain ⟨mid, hmid, h⟩ := Op.except_bind_eq_ok.mp h
    exact (takes_of_takeFeature hmid).append (ih h)

/-- No change in the environment is about what the server can do. -/
theorem capabilities_of_takeChange {change : EnvChange} (h : r.takeChange change = .ok r') :
    r'.capabilities = r.capabilities := by
  unfold takeChange at h
  split at h
  · cases h
    rfl
  · cases h
    rfl
  · obtain ⟨size, -, h⟩ := Op.except_bind_eq_ok.mp h
    cases h
    rfl
  · obtain ⟨collation, -, h⟩ := Op.except_bind_eq_ok.mp h
    cases collation <;> cases h <;> rfl
  · cases h
    split <;> rfl
  · cases h
    rfl
  · cases h
    rfl
  · split at h
    · obtain ⟨⟨⟩, -, h⟩ := Op.except_bind_eq_ok.mp h
      cases h
      rfl
    · cases h
      rfl
  · cases h
    split <;> rfl

/-- What a record acknowledges is taken over. -/
theorem takes_of_take (h : r.take record = .ok step) :
    r.capabilities.Takes record.acks (step.response r).capabilities := by
  have same {r' : Response} (h : r'.capabilities = r.capabilities) : r.capabilities.Takes [] r'.capabilities :=
    .nil (congrArg _ h) (congrArg _ h)
  unfold take at h
  unfold Record.acks
  split at h <;> rename_i hkind <;> simp only [hkind]
  · cases h
    exact same rfl
  · obtain ⟨⟨ack, _⟩, -, h⟩ := Op.except_bind_eq_ok.mp h
    obtain ⟨r', hr', h⟩ := Op.except_bind_eq_ok.mp h
    cases h
    obtain ⟨⟨capabilities, g⟩, hcapabilities, hr'⟩ := Op.except_bind_eq_ok.mp hr'
    obtain ⟨-, rfl⟩ := Capabilities.eq_of_acceptLogin hcapabilities
    cases hr'
    exact .nil rfl rfl
  · obtain ⟨⟨acks, _⟩, hread, h⟩ := Op.except_bind_eq_ok.mp h
    obtain ⟨r', hr', h⟩ := Op.except_bind_eq_ok.mp h
    cases h
    simp only [hread]
    exact takes_of_takeFeatures hr'
  · obtain ⟨⟨change, _⟩, -, h⟩ := Op.except_bind_eq_ok.mp h
    cases change with
    | none =>
      cases h
      exact same rfl
    | some change =>
      obtain ⟨r', hr', h⟩ := Op.except_bind_eq_ok.mp h
      cases h
      exact same (capabilities_of_takeChange hr')
  · obtain ⟨⟨m, _⟩, -, h⟩ := Op.except_bind_eq_ok.mp h
    cases h
    refine same ?_
    show (r.takeError m).capabilities = r.capabilities
    unfold takeError
    split <;> rfl
  · obtain ⟨m, -, h⟩ := Op.except_bind_eq_ok.mp h
    cases h
    exact same rfl
  · obtain ⟨⟨token, _⟩, -, h⟩ := Op.except_bind_eq_ok.mp h
    cases h
    exact .nil rfl rfl
  · obtain ⟨⟨info, _⟩, -, h⟩ := Op.except_bind_eq_ok.mp h
    cases h
    exact same rfl
  · obtain ⟨⟨done, _⟩, -, h⟩ := Op.except_bind_eq_ok.mp h
    cases h
    rcases done.status.hasMore with _ | _ <;> exact same rfl

/-- What records acknowledge, one after the other, is what is known at their end. -/
theorem takes_of_advanceAll {records : List Record} (h : r.advanceAll records = .ok r') :
    r.capabilities.Takes (records.flatMap Record.acks) r'.capabilities := by
  induction records generalizing r with
  | nil =>
    cases h
    exact .nil rfl rfl
  | cons record records ih =>
    rw [advanceAll_cons] at h
    obtain ⟨mid, hmid, h⟩ := Op.except_bind_eq_ok.mp h
    obtain ⟨step, htake, rfl⟩ := take_of_advance hmid
    rw [List.flatMap_cons]
    exact (takes_of_take htake).append (ih h)

end Response

end TdsSession
