import TdsSession.Login.Response
import TdsSession.Proofs.Wire.InPlace
import TdsSession.Proofs.Wire.ReadBack

/-!
# Capabilities and session in step

The payload of a session recovery is taken over twice, by the capabilities and by
the session. Both walk over the same records, so neither refuses what the other
accepts (`accepts_iff_records`), and a feature is taken over by both or by neither
(`Response.takeFeatureInPlace_does`). A list of features that is taken over one by one
ends at the first that is refused, and what comes before it has been taken over by
both (`Response.tookOver_of_forM`).
-/

namespace TdsSession

open InPlace

/-! ## The session -/

namespace SessionState

/-- Takes over one slot, where the session stands. -/
def takeSlot (r : StateRecord) : InPlace SessionState Unit := do
  if (← get).recovering then
    if ((← get).changes.get r.slot).any (! ·.recoverable) then
      modify fun s => { s with unrecoverable := s.unrecoverable - 1 }
    modify fun s => { s with changes := s.changes.set r.slot ⟨true, 0, r.data⟩ }
    modify ({ · with dirty := true })
  else modify fun s => { s with initial := s.initial.set r.slot r.data }

/-- Takes over the payload of an acknowledged session recovery, where the session stands. -/
def takeRecords (payload : Bytes) : InPlace SessionState Unit := do
  let records ← (RecordWalk.start payload).items.mapM fun item => (liftM item : InPlace SessionState StateRecord)
  records.forM takeSlot

theorem recount_recoverable (count : Nat) (old : Option SlotChange) :
    recount count old true = if old.any (! ·.recoverable) then count - 1 else count := by
  rcases old with _ | ⟨_ | _, version, data⟩ <;> rfl

theorem takeSlot_does (s : SessionState) (r : StateRecord) : Does s (takeSlot r) (.ok (s.recordSlot r, ())) := by
  unfold takeSlot recordSlot
  refine .get_bind ?_
  split
  · refine .get_bind ?_
    rw [recount_recoverable]
    by_cases hcounted : (s.changes.get r.slot).any (! ·.recoverable) = true
    · simp only [if_pos hcounted]
      rfl
    · simp only [if_neg hcounted]
      rfl
  · rfl

theorem takeSlots_does (s : SessionState) (records : List StateRecord) :
    Does s (records.forM takeSlot) (.ok (records.foldl recordSlot s, ())) := by
  induction records generalizing s with
  | nil => rfl
  | cons r records ih => exact .ok_bind (takeSlot_does s r) (ih (s.recordSlot r))

/-- The payload is taken over as a whole or not at all. -/
theorem takeRecords_does (s : SessionState) (payload : Bytes) :
    Does s (takeRecords payload) ((s.record payload).map (·, ())) := by
  unfold takeRecords record
  refine .after id ?_ (takeSlots_does s)
  rw [mapM_liftM_apply, RecordWalk.readAll_eq]
  cases (RecordWalk.start payload).items.mapM id <;> rfl

end SessionState

theorem Capabilities.acceptFeature_sessionRecovery {c : Capabilities} (payload : Bytes)
    (h : c.requested.contains Feature.sessionRecovery.flag = true) :
    c.acceptFeature ⟨Feature.sessionRecovery.id, payload⟩ =
      (StateRecord.readAll payload).map fun _ => { c with sessionRecovery := true } := by
  have hrequested : c.requireRequested .sessionRecovery = .ok () := if_pos h
  change c.acceptKnown .sessionRecovery payload = _
  unfold acceptKnown
  dsimp only
  rw [hrequested]
  cases StateRecord.readAll payload <;> rfl

theorem SessionState.record_eq (s : SessionState) (payload : Bytes) :
    s.record payload = (StateRecord.readAll payload).map fun records => records.foldl recordSlot s := by
  unfold record
  cases StateRecord.readAll payload <;> rfl

/-- Where session recovery has been requested, the capabilities and the session accept the same payloads of it. -/
theorem accepts_iff_records {c : Capabilities} (s : SessionState) (payload : Bytes)
    (h : c.requested.contains Feature.sessionRecovery.flag = true) :
    (∃ c', c.acceptFeature ⟨Feature.sessionRecovery.id, payload⟩ = .ok c') ↔ ∃ s', s.record payload = .ok s' := by
  rw [Capabilities.acceptFeature_sessionRecovery payload h, s.record_eq]
  cases StateRecord.readAll payload with
  | error e => exact ⟨fun ⟨_, h⟩ => (nomatch h), fun ⟨_, h⟩ => (nomatch h)⟩
  | ok records => exact ⟨fun _ => ⟨_, rfl⟩, fun _ => ⟨_, rfl⟩⟩

/-- What the capabilities have accepted, the session does not refuse. -/
theorem record_of_acceptFeature {c c' : Capabilities} {ack : FeatureAck} (h : c.acceptFeature ack = .ok c')
    (hid : ack.id = Feature.sessionRecovery.id) (s : SessionState) : ∃ s', s.record ack.payload = .ok s' := by
  obtain ⟨id, payload⟩ := ack
  obtain rfl : id = Feature.sessionRecovery.id := hid
  have haccepts : c.Accepts .sessionRecovery payload c' := Capabilities.accepts_of_acceptKnown h
  cases haccepts with
  | sessionRecovery hrequested => exact (accepts_iff_records s payload hrequested).mp ⟨_, h⟩

namespace Response

variable {r r' : Response} {ack : FeatureAck} {acks before after : List FeatureAck} {α : Type}

/-! ## Both together -/

/-- Runs an operation where the capabilities of a response stand. -/
def onCapabilities (m : InPlace Capabilities α) : InPlace Response α := fun r =>
  ((m r.capabilities).1, { r with capabilities := (m r.capabilities).2 })

/-- Runs an operation where the session of a response stands. -/
def onSession (m : InPlace SessionState α) : InPlace Response α := fun r =>
  ((m r.session).1, { r with session := (m r.session).2 })

/-- Takes over an acknowledged feature, where the response stands: first the capabilities, then the session. -/
def takeFeatureInPlace (ack : FeatureAck) : InPlace Response Unit := do
  onCapabilities (Capabilities.takeFeature ack)
  if ack.id = Feature.sessionRecovery.id then onSession (SessionState.takeRecords ack.payload)

/-- Reads a list of features and takes them over, one by one. -/
def takeListInPlace (body : Bytes) : InPlace Response Unit := do
  let (acks, _) ← FeatureAck.readList body
  acks.forM takeFeatureInPlace

theorem onCapabilities_does {m : InPlace Capabilities α} {x : Except ProtocolError (Capabilities × α)}
    (h : Does r.capabilities m x) :
    Does r (onCapabilities m) (x.map fun p => ({ r with capabilities := p.1 }, p.2)) := by
  unfold Does onCapabilities
  rw [h]
  cases x <;> rfl

theorem onSession_does {m : InPlace SessionState α} {x : Except ProtocolError (SessionState × α)}
    (h : Does r.session m x) : Does r (onSession m) (x.map fun p => ({ r with session := p.1 }, p.2)) := by
  unfold Does onSession
  rw [h]
  cases x <;> rfl

/-- A feature is taken over by the capabilities and by the session, or by neither. -/
theorem takeFeatureInPlace_does (r : Response) (ack : FeatureAck) :
    Does r (takeFeatureInPlace ack) ((r.takeFeature ack).map (·, ())) := by
  have hcapabilities := onCapabilities_does (r.capabilities.takeFeature_does ack)
  unfold takeFeatureInPlace takeFeature
  rcases haccept : r.capabilities.acceptFeature ack with e | c' <;> rw [haccept] at hcapabilities
  · exact Op.bind_of_error hcapabilities _
  · by_cases hid : ack.id = Feature.sessionRecovery.id
    · obtain ⟨s', hrecord⟩ := record_of_acceptFeature haccept hid r.session
      have hsession : Does { r with capabilities := c' } (onSession (SessionState.takeRecords ack.payload)) _ :=
        onSession_does (SessionState.takeRecords_does r.session ack.payload)
      rw [hrecord] at hsession
      simp only [if_pos hid, hrecord]
      exact .ok_bind hcapabilities hsession
    · simp only [if_neg hid]
      exact .ok_bind hcapabilities rfl

/-! ## One after the other -/

/-- The response with other capabilities and another session. -/
def withBoth (r : Response) (capabilities : Capabilities) (session : SessionState) : Response :=
  { r with capabilities, session }

/-- What the session takes over of features: the payloads of those that are about it. -/
def recordFeatures (s : SessionState) (acks : List FeatureAck) : Except ProtocolError SessionState :=
  (acks.filter (·.id = Feature.sessionRecovery.id)).foldlM (fun s ack => s.record ack.payload) s

/-- Of the features `before ++ after`, those `before` have been taken over, by the capabilities and by the session, and
those `after` by neither. -/
structure TookOver (r : Response) (before after : List FeatureAck) (outcome : Except ProtocolError Unit × Response) :
    Prop where
  capabilities : before.foldlM Capabilities.acceptFeature r.capabilities = .ok outcome.2.capabilities
  session : recordFeatures r.session before = .ok outcome.2.session
  others : outcome.2 = r.withBoth outcome.2.capabilities outcome.2.session
  /-- It ends behind the last feature, or at the first that the capabilities refuse. -/
  ending : match outcome.1 with
    | .ok () => after = []
    | .error e => ∃ ack more, after = ack :: more ∧ outcome.2.capabilities.acceptFeature ack = .error e

/-- A feature that has been taken over has been taken over by both. -/
theorem tookOver_of_takeFeature (h : r.takeFeature ack = .ok r') : r.TookOver [ack] [] (.ok (), r') := by
  obtain ⟨capabilities, hcapabilities, h⟩ := Op.except_bind_eq_ok.mp h
  have hfold : [ack].foldlM Capabilities.acceptFeature r.capabilities = .ok capabilities := by
    rw [List.foldlM_cons, hcapabilities]
    rfl
  split at h
  · rename_i hid
    obtain ⟨session, hsession, h⟩ := Op.except_bind_eq_ok.mp h
    cases h
    refine ⟨hfold, ?_, rfl, rfl⟩
    rw [recordFeatures, List.filter_cons_of_pos (by simpa using hid), List.foldlM_cons, hsession]
    rfl
  · rename_i hid
    cases h
    refine ⟨hfold, ?_, rfl, rfl⟩
    rw [recordFeatures, List.filter_cons_of_neg (by simpa using hid)]
    rfl

/-- A feature that is refused has been refused by the capabilities. -/
theorem acceptFeature_of_takeFeature {e : ProtocolError} (h : r.takeFeature ack = .error e) :
    r.capabilities.acceptFeature ack = .error e := by
  unfold takeFeature at h
  rcases haccept : r.capabilities.acceptFeature ack with e' | c' <;> rw [haccept] at h
  · cases h
    rfl
  · exfalso
    by_cases hid : ack.id = Feature.sessionRecovery.id
    · obtain ⟨s', hrecord⟩ := record_of_acceptFeature haccept hid r.session
      simp only [if_pos hid, hrecord] at h
      cases h
    · simp only [if_neg hid] at h
      cases h

theorem TookOver.append {front : List FeatureAck} {outcome : Except ProtocolError Unit × Response}
    (h : r.TookOver front [] (.ok (), r')) (hmore : r'.TookOver before after outcome) :
    r.TookOver (front ++ before) after outcome where
  capabilities := by
    rw [List.foldlM_append, h.capabilities]
    exact hmore.capabilities
  session := by
    rw [recordFeatures, List.filter_append, List.foldlM_append, ← recordFeatures, h.session]
    exact hmore.session
  others := by
    have hothers : r' = r.withBoth r'.capabilities r'.session := h.others
    refine hmore.others.trans ?_
    rw [hothers]
    rfl
  ending := hmore.ending

theorem forM_of_error {e : ProtocolError} (h : r.takeFeature ack = .error e) (acks : List FeatureAck) :
    (ack :: acks).forM takeFeatureInPlace r = (.error e, r) := by
  have hdoes := takeFeatureInPlace_does r ack
  rw [h] at hdoes
  exact Op.bind_of_error hdoes _

theorem forM_of_ok (h : r.takeFeature ack = .ok r') (acks : List FeatureAck) :
    (ack :: acks).forM takeFeatureInPlace r = acks.forM takeFeatureInPlace r' := by
  have hdoes := takeFeatureInPlace_does r ack
  rw [h] at hdoes
  exact Op.bind_of_ok hdoes _

/-- Features are taken over in step, up to the first that is refused. -/
theorem tookOver_of_forM (acks : List FeatureAck) (r : Response) :
    ∃ before after, acks = before ++ after ∧ r.TookOver before after (acks.forM takeFeatureInPlace r) := by
  induction acks generalizing r with
  | nil => exact ⟨[], [], rfl, rfl, rfl, rfl, rfl⟩
  | cons ack acks ih =>
    rcases htake : r.takeFeature ack with e | r'
    · refine ⟨[], ack :: acks, rfl, ?_⟩
      rw [forM_of_error htake]
      exact ⟨rfl, rfl, rfl, ack, acks, rfl, acceptFeature_of_takeFeature htake⟩
    · obtain ⟨before, after, rfl, hmore⟩ := ih r'
      refine ⟨ack :: before, after, rfl, ?_⟩
      rw [forM_of_ok htake]
      exact (tookOver_of_takeFeature htake).append hmore

/-- Read to its end, a list leaves what the features of it make of a response. -/
theorem result_forM (acks : List FeatureAck) (r : Response) :
    result (acks.forM takeFeatureInPlace) r = acks.foldlM takeFeature r := by
  induction acks generalizing r with
  | nil => rfl
  | cons ack acks ih =>
    rw [List.foldlM_cons, result]
    rcases htake : r.takeFeature ack with e | r'
    · rw [forM_of_error htake]
      rfl
    · rw [forM_of_ok htake]
      exact ih r'

theorem takeListInPlace_apply (r : Response) (body : Bytes) :
    takeListInPlace body r = match FeatureAck.readList body with
      | .ok (acks, _) => acks.forM takeFeatureInPlace r
      | .error e => (.error e, r) := by
  unfold takeListInPlace
  rw [Op.bind_apply, liftM_apply]
  cases FeatureAck.readList body <;> rfl

theorem take_featureExtAck (r : Response) (body : Bytes) :
    r.take (.ofKind .featureExtAck body) = (result (takeListInPlace body) r).map ResponseStep.more := by
  have htake : r.take (.ofKind .featureExtAck body) =
      FeatureAck.readList body >>= fun p => p.1.foldlM takeFeature r >>= fun r' => .ok (ResponseStep.more r') := rfl
  rw [htake, result, takeListInPlace_apply]
  rcases FeatureAck.readList body with e | ⟨acks, rest⟩
  · rfl
  · change _ = (result (acks.forM takeFeatureInPlace) r).map ResponseStep.more
    rw [result_forM]
    change (acks.foldlM takeFeature r >>= fun r' => .ok (ResponseStep.more r')) = _
    cases acks.foldlM takeFeature r <;> rfl

end Response

/-! ## What acknowledgements change -/

/-- A feature is acknowledged to capabilities as a whole or not at all, and nothing but its own fields changes. -/
structure FeatureAck.Confined (ack : FeatureAck) : Prop where
  atomic : Atomic (Capabilities.takeFeature ack) fun c => (c.acceptFeature ack).map (·, ())
  /-- In its own fields is what the payload says, whatever the capabilities have been. -/
  own : ∀ f, Feature.ofId? ack.id = some f → ∀ c c' d d' : Capabilities,
    c.acceptFeature ack = .ok c' → d.acceptFeature ack = .ok d' → c' = c.withFields f d'
  unknown : Feature.ofId? ack.id = none → ∀ c : Capabilities, c.acceptFeature ack = .ok c

/-- So is a login, which has three fields of its own. -/
structure LoginAck.Confined (ack : LoginAck) : Prop where
  atomic : Atomic (Capabilities.takeLogin ack) (·.acceptLogin ack)
  own : ∀ (c c' : Capabilities) g, c.acceptLogin ack = .ok (c', g) → c' =
    { c with
      protocolVersion := some ack.version
      serverVersion := some ack.serverVersion
      serverName := ack.program }

/-- The payload of a session recovery is taken over by a session as a whole or not at all, and accepted by it exactly if
it is accepted by capabilities for which that has been requested. -/
structure SessionState.Agrees (payload : Bytes) : Prop where
  atomic : Atomic (SessionState.takeRecords payload) fun s => (s.record payload).map (·, ())
  accepted : ∀ (c : Capabilities) (s : SessionState), c.requested.contains Feature.sessionRecovery.flag = true →
    ((∃ c', c.acceptFeature ⟨Feature.sessionRecovery.id, payload⟩ = .ok c') ↔ ∃ s', s.record payload = .ok s')

/-- A list of features leaves capabilities and session in step, also where it is refused. -/
structure Response.InStep (r : Response) (body : Bytes) : Prop where
  step : r.take (.ofKind .featureExtAck body) = (result (takeListInPlace body) r).map ResponseStep.more
  unread : ∀ e, FeatureAck.readList body = .error e → takeListInPlace body r = (.error e, r)
  read : ∀ acks rest, FeatureAck.readList body = .ok (acks, rest) →
    ∃ before after, acks = before ++ after ∧ r.TookOver before after (takeListInPlace body r)

/-- Whatever is acknowledged is taken over as a whole or not at all, and changes nothing but what it is about; so a
list of features that is taken over one by one leaves capabilities and session in step. -/
theorem acknowledgements_inStep :
    (∀ ack : FeatureAck, ack.Confined) ∧ (∀ ack : LoginAck, ack.Confined) ∧
      (∀ payload, SessionState.Agrees payload) ∧ ∀ (r : Response) body, r.InStep body := by
  refine ⟨fun ack => ⟨?_, ?_, ?_⟩, fun ack => ⟨?_, ?_⟩, fun payload => ⟨?_, ?_⟩, fun r body => ⟨?_, ?_, ?_⟩⟩
  · exact atomic_of_does fun c => c.takeFeature_does ack
  · exact fun f hf c c' d d' h h' => Capabilities.eq_withFields_of_acceptFeature h h' hf
  · exact fun hunknown c => c.acceptFeature_of_unknown hunknown
  · exact atomic_of_does fun c => c.takeLogin_does ack
  · exact fun c c' g h => (Capabilities.eq_of_acceptLogin h).2
  · exact atomic_of_does fun s => s.takeRecords_does payload
  · exact fun c s hrequested => accepts_iff_records s payload hrequested
  · exact r.take_featureExtAck body
  · intro e he
    rw [r.takeListInPlace_apply body, he]
  · intro acks rest hread
    rw [r.takeListInPlace_apply body, hread]
    exact Response.tookOver_of_forM acks r

/-- Capabilities that differ accept the same payload, a session recovery is accepted by both consumers of it, and a list
with a feature that is refused is taken over up to there. -/
theorem someRefused_inStep :
    let c := Capabilities.empty .all
    let d : Capabilities := { c with azureSql := true, utf8 := true }
    let azure : FeatureAck := ⟨Feature.azureSqlSupport.id, [3]⟩
    let slots : Bytes := StateRecord.writeAll [⟨3, [7]⟩]
    let acks : List FeatureAck := [⟨Feature.sessionRecovery.id, slots⟩, ⟨Feature.json.id, [9]⟩]
    (∃ c' d', c.acceptFeature azure = .ok c' ∧ d.acceptFeature azure = .ok d' ∧
      c' = c.withFields .azureSqlSupport d' ∧ c' ≠ d') ∧
    (∃ c', c.acceptFeature ⟨Feature.sessionRecovery.id, slots⟩ = .ok c') ∧
    ∀ r : Response, ∃ before after, acks = before ++ after ∧
      r.TookOver before after (Response.takeListInPlace (FeatureAck.writeList acks) r) := by
  intro c d azure slots acks
  obtain ⟨hfeatures, -, hpayloads, hlists⟩ := acknowledgements_inStep
  have hc : c.acceptFeature azure = .ok { c with azureSql := true, readOnlyFailover := true } := by rfl
  have hd : d.acceptFeature azure = .ok { d with azureSql := true, readOnlyFailover := true } := by rfl
  have hrecord : SessionState.new.record slots = .ok (SessionState.new.recordSlot ⟨3, [7]⟩) := by
    rw [SessionState.record_eq, StateRecord.readAll_writeAll (by decide)]
    rfl
  have hread : FeatureAck.readList (FeatureAck.writeList acks) = .ok (acks, []) :=
    (FeatureAck.reads_writeList (by decide)).whole
  refine ⟨⟨_, _, hc, hd, ?_, by decide⟩, ?_, fun r => (hlists r _).read acks [] hread⟩
  · exact (hfeatures azure).own .azureSqlSupport rfl _ _ _ _ hc hd
  · exact ((hpayloads slots).accepted c SessionState.new (by decide)).mpr ⟨_, hrecord⟩

end TdsSession
