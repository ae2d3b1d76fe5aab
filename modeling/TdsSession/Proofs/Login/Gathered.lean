import TdsSession.Proofs.Login.Acknowledged

/-!
# What a response gathers

Some of what a response has come to can be read off its records at once: the
packet size is the last one that they name, the client is let in if one of them
says so, and a session can be carried over if one of them acknowledges that
(`Response.gathers_of_advanceAll`). Each record adds its own part
(`Response.gathers_of_take`).
-/

namespace TdsSession

/-! ## What a record tells -/

/-- The packet size that a change names, if it can be read. -/
def EnvChange.packetSize? (c : EnvChange) : Option Nat :=
  if c.kind = .packetSize then (Response.parsePacketSize (c.new.text?.getD "")).toOption else none

/-- The acknowledgement says that a session can be carried over. -/
def FeatureAck.carriesOver (ack : FeatureAck) : Bool := ack.id == Feature.sessionRecovery.id

namespace Record

/-- The packet size that a record names. -/
def packetSize? (record : Record) : Option Nat := record.change?.bind EnvChange.packetSize?

/-- The record lets the client in. -/
def accepts (record : Record) : Bool := RecordKind.ofCode? record.code == some .loginAck

/-- The record acknowledges that a session can be carried over. -/
def carriesOver (record : Record) : Bool := record.acks.any FeatureAck.carriesOver

theorem change?_eq_none {record : Record} (h : RecordKind.ofCode? record.code ≠ some .envChange) :
    record.change? = none := by
  unfold change?
  split
  · exact absurd ‹_› h
  · rfl

theorem acks_eq_nil {record : Record} (h : RecordKind.ofCode? record.code ≠ some .featureExtAck) :
    record.acks = [] := by
  unfold acks
  split
  · exact absurd ‹_› h
  · rfl

end Record

/-! ## What records add -/

/-- What `c` becomes with acknowledgements knows of carrying sessions over if `c` does, or if one of them says so. -/
theorem Capabilities.sessionRecovery_of_acceptFeature {c c' : Capabilities} {ack : FeatureAck}
    (h : c.acceptFeature ack = .ok c') : c'.sessionRecovery = (ack.carriesOver || c.sessionRecovery) := by
  unfold FeatureAck.carriesOver
  rcases accepts_of_acceptFeature h with ⟨f, hid, haccepts⟩ | ⟨hunknown, rfl⟩
  · rw [hid]
    generalize ack.payload = payload at haccepts
    cases haccepts <;> rfl
  · have hother : (ack.id == Feature.sessionRecovery.id) = false := by
      rw [beq_eq_false_iff_ne]
      intro hid
      rw [hid, Feature.ofId?_id] at hunknown
      cases hunknown
    rw [hother, Bool.false_or]

namespace Response

variable {r r' : Response} {record : Record} {step : ResponseStep}

/-- What `r` becomes with records, one after the other. -/
structure Gathers (r : Response) (records : List Record) (r' : Response) : Prop where
  packetSize? : r'.packetSize? = (records.reverse.findSome? Record.packetSize?).or r.packetSize?
  accepted : r'.accepted = (records.any Record.accepts || r.accepted)
  sessionRecovery :
    r'.capabilities.sessionRecovery = (records.any Record.carriesOver || r.capabilities.sessionRecovery)

namespace Gathers

theorem nil (r : Response) : r.Gathers [] r := ⟨rfl, rfl, rfl⟩

theorem append {first second : List Record} {r'' : Response} (h : r.Gathers first r') (h' : r'.Gathers second r'') :
    r.Gathers (first ++ second) r'' where
  packetSize? := by
    rw [h'.packetSize?, h.packetSize?, List.reverse_append, List.findSome?_append, Option.or_assoc]
  accepted := by
    rw [h'.accepted, h.accepted, List.any_append, ← Bool.or_assoc, Bool.or_comm (second.any _)]
  sessionRecovery := by
    rw [h'.sessionRecovery, h.sessionRecovery, List.any_append, ← Bool.or_assoc, Bool.or_comm (second.any _)]

theorem singleton (packetSize? : r'.packetSize? = record.packetSize?.or r.packetSize?)
    (accepted : r'.accepted = (record.accepts || r.accepted))
    (sessionRecovery : r'.capabilities.sessionRecovery = (record.carriesOver || r.capabilities.sessionRecovery)) :
    r.Gathers [record] r' where
  packetSize? := by
    rw [List.reverse_singleton, List.findSome?_singleton]
    exact packetSize?
  accepted := by
    rw [List.any_cons, List.any_nil, Bool.or_false]
    exact accepted
  sessionRecovery := by
    rw [List.any_cons, List.any_nil, Bool.or_false]
    exact sessionRecovery

end Gathers

/-- A change takes over a packet size if it names one, and lets nobody in. -/
theorem eq_of_takeChange {change : EnvChange} (h : r.takeChange change = .ok r') :
    ∃ session routing? partner? userInstance? events,
      r' = { r with
        session, routing?, partner?, userInstance?, events, packetSize? := change.packetSize?.or r.packetSize? } := by
  unfold EnvChange.packetSize?
  cases hkind : change.kind with
  | packetSize =>
    simp only [takeChange, hkind] at h
    obtain ⟨size, hsize, h⟩ := Op.except_bind_eq_ok.mp h
    cases h
    rw [hsize]
    exact ⟨_, _, _, _, _, rfl⟩
  | collation =>
    simp only [takeChange, hkind] at h
    obtain ⟨collation, -, h⟩ := Op.except_bind_eq_ok.mp h
    cases collation <;> cases h <;> exact ⟨_, _, _, _, _, rfl⟩
  | mirroringPartner =>
    simp only [takeChange, hkind] at h
    cases h
    split <;> exact ⟨_, _, _, _, _, rfl⟩
  | routing =>
    simp only [takeChange, hkind] at h
    split at h
    · obtain ⟨⟨⟩, -, h⟩ := Op.except_bind_eq_ok.mp h
      cases h
      exact ⟨_, _, _, _, _, rfl⟩
    · cases h
      exact ⟨_, _, _, _, _, rfl⟩
  | _ =>
    simp only [takeChange, hkind] at h
    cases h
    exact ⟨_, _, _, _, _, rfl⟩

theorem sessionRecovery_of_takeFeatures {acks : List FeatureAck} (h : acks.foldlM takeFeature r = .ok r') :
    r'.capabilities.sessionRecovery = (acks.any FeatureAck.carriesOver || r.capabilities.sessionRecovery) := by
  induction acks generalizing r with
  | nil =>
    cases h
    rfl
  | cons ack acks ih =>
    rw [List.foldlM_cons] at h
    obtain ⟨mid, hmid, h⟩ := Op.except_bind_eq_ok.mp h
    have hfirst : mid.capabilities.sessionRecovery = (ack.carriesOver || r.capabilities.sessionRecovery) := by
      obtain ⟨capabilities, hcapabilities, hmid⟩ := Op.except_bind_eq_ok.mp hmid
      rw [← Capabilities.sessionRecovery_of_acceptFeature hcapabilities]
      split at hmid
      · obtain ⟨session, -, hmid⟩ := Op.except_bind_eq_ok.mp hmid
        cases hmid
        rfl
      · cases hmid
        rfl
    rw [ih h, hfirst, List.any_cons, ← Bool.or_assoc, Bool.or_comm (acks.any _)]

/-- Each record adds what it tells. -/
theorem gathers_of_take (h : r.take record = .ok step) : r.Gathers [record] (step.response r) := by
  -- all but changes and acknowledgements tell no more than their code
  have plain {r' : Response} {kind : Option RecordKind} (hkind : RecordKind.ofCode? record.code = kind)
      (hchange : kind ≠ some .envChange) (hack : kind ≠ some .featureExtAck)
      (packetSize? : r'.packetSize? = r.packetSize?) (accepted : r'.accepted = (kind == some .loginAck || r.accepted))
      (sessionRecovery : r'.capabilities.sessionRecovery = r.capabilities.sessionRecovery) :
      r.Gathers [record] r' := by
    subst hkind
    refine .singleton ?_ accepted ?_
    · rw [Record.packetSize?, Record.change?_eq_none hchange, packetSize?]
      rfl
    · rw [Record.carriesOver, Record.acks_eq_nil hack, sessionRecovery]
      rfl
  unfold take at h
  split at h <;> rename_i hkind
  · cases h
    exact plain hkind nofun nofun rfl rfl rfl
  · obtain ⟨⟨ack, _⟩, -, h⟩ := Op.except_bind_eq_ok.mp h
    obtain ⟨r', hr', h⟩ := Op.except_bind_eq_ok.mp h
    cases h
    obtain ⟨⟨capabilities, g⟩, hcapabilities, hr'⟩ := Op.except_bind_eq_ok.mp hr'
    obtain ⟨-, rfl⟩ := Capabilities.eq_of_acceptLogin hcapabilities
    cases hr'
    exact plain hkind nofun nofun rfl rfl rfl
  · obtain ⟨⟨acks, _⟩, hread, h⟩ := Op.except_bind_eq_ok.mp h
    obtain ⟨r', hr', h⟩ := Op.except_bind_eq_ok.mp h
    cases h
    have hrecovery := sessionRecovery_of_takeFeatures hr'
    obtain ⟨capabilities, session, rfl⟩ := eq_of_takeFeatures hr'
    refine .singleton ?_ ?_ ?_
    · rw [Record.packetSize?, Record.change?_eq_none (by rw [hkind]; nofun)]
      rfl
    · rw [Record.accepts, hkind]
      rfl
    · rw [Record.carriesOver, Record.acks]
      simp only [hkind, hread]
      exact hrecovery
  · obtain ⟨⟨change, _⟩, hread, h⟩ := Op.except_bind_eq_ok.mp h
    have hchange : record.change? = change := by
      unfold Record.change?
      simp only [hkind, hread]
    have changed {r' : Response} (packetSize? : r'.packetSize? = record.packetSize?.or r.packetSize?)
        (accepted : r'.accepted = r.accepted) (capabilities : r'.capabilities = r.capabilities) :
        r.Gathers [record] r' := by
      refine .singleton packetSize? ?_ ?_
      · rw [Record.accepts, hkind, accepted]
        rfl
      · rw [Record.carriesOver, Record.acks_eq_nil (by rw [hkind]; nofun), capabilities]
        rfl
    unfold Record.packetSize? at changed
    rw [hchange] at changed
    cases change with
    | none =>
      cases h
      exact changed rfl rfl rfl
    | some change =>
      obtain ⟨r', hr', h⟩ := Op.except_bind_eq_ok.mp h
      cases h
      obtain ⟨session, routing?, partner?, userInstance?, events, rfl⟩ := eq_of_takeChange hr'
      exact changed rfl rfl rfl
  · obtain ⟨⟨m, _⟩, -, h⟩ := Op.except_bind_eq_ok.mp h
    cases h
    show r.Gathers [record] (r.takeError m)
    unfold takeError
    split <;> exact plain hkind nofun nofun rfl rfl rfl
  · obtain ⟨m, -, h⟩ := Op.except_bind_eq_ok.mp h
    cases h
    exact plain hkind nofun nofun rfl rfl rfl
  · obtain ⟨⟨token, _⟩, -, h⟩ := Op.except_bind_eq_ok.mp h
    cases h
    exact plain hkind nofun nofun rfl rfl rfl
  · obtain ⟨⟨info, _⟩, -, h⟩ := Op.except_bind_eq_ok.mp h
    cases h
    exact plain hkind nofun nofun rfl rfl rfl
  · obtain ⟨⟨done, _⟩, -, h⟩ := Op.except_bind_eq_ok.mp h
    cases h
    rcases done.status.hasMore with _ | _ <;> exact plain hkind nofun nofun rfl rfl rfl

/-- What records tell, one after the other, is what a response has gathered at their end. -/
theorem gathers_of_advanceAll {records : List Record} (h : r.advanceAll records = .ok r') :
    r.Gathers records r' := by
  induction records generalizing r with
  | nil =>
    cases h
    exact .nil _
  | cons record rest ih =>
    rw [advanceAll_cons] at h
    obtain ⟨mid, hmid, h⟩ := Op.except_bind_eq_ok.mp h
    obtain ⟨step, htake, rfl⟩ := take_of_advance hmid
    exact (gathers_of_take htake).append (ih h)

end Response

end TdsSession
