import Mathlib.Order.Defs.Unbundled
import TdsSession.Proofs.Login.Records

/-!
# What a response says about a session

The records of a response change the state of the session that they are about.
They leave alone what the session began with, once it is being carried over, and
every slot that has changed by then has been reported by one of them
(`Response.alters_of_advanceAll`).
-/

namespace TdsSession

/-- A record reports that a slot has changed: with the acknowledgement of session recovery, or with a token. -/
inductive Record.Reports (record : Record) (slot : UInt8) : SlotChange → Prop
  | acknowledged {acks : List FeatureAck} {rest : Bytes} {ack : FeatureAck} {slots : List StateRecord} {r : StateRecord}
      (hkind : RecordKind.ofCode? record.code = some .featureExtAck)
      (hread : FeatureAck.readList record.body = .ok (acks, rest)) (hack : ack ∈ acks)
      (hid : ack.id = Feature.sessionRecovery.id) (hslots : StateRecord.readAll ack.payload = .ok slots)
      (hr : r ∈ slots) (hslot : r.slot = slot) : Reports record slot ⟨true, 0, r.data⟩
  | told {token : StateToken} {rest : Bytes} {r : StateRecord}
      (hkind : RecordKind.ofCode? record.code = some .sessionState)
      (hread : StateToken.read record.body = .ok (token, rest)) (hr : r ∈ token.records) (hslot : r.slot = slot) :
      Reports record slot ⟨token.recoverable, token.sequence, r.data⟩

namespace SessionState

/-- From `s` to `s'`, the session has become what `Q` allows: other slots may have changed, and other settings. What
it began with changes only while it begins, and whether it is encrypted does not change at all. -/
structure Alters (Q : UInt8 → SlotChange → Prop) (s s' : SessionState) : Prop where
  baseline : s'.baseline = s.baseline
  aliases : s'.aliases = s.aliases
  recovering : s'.recovering = s.recovering
  encrypted : s'.encrypted = s.encrypted
  initial : s.recovering = true → s'.initial = s.initial
  changes : ∀ slot change, s'.changes.get slot = some change → s.changes.get slot = some change ∨ Q slot change

namespace Alters

variable {Q Q' : UInt8 → SlotChange → Prop} {s s' s'' : SessionState}

theorem refl (s : SessionState) : Alters Q s s := ⟨rfl, rfl, rfl, rfl, fun _ => rfl, fun _ _ => .inl⟩

theorem trans (h : Alters Q s s') (h' : Alters Q s' s'') : Alters Q s s'' where
  baseline := h'.baseline.trans h.baseline
  aliases := h'.aliases.trans h.aliases
  recovering := h'.recovering.trans h.recovering
  encrypted := h'.encrypted.trans h.encrypted
  initial hs := (h'.initial (h.recovering.trans hs)).trans (h.initial hs)
  changes slot change hc := (h'.changes slot change hc).elim (h.changes slot change) .inr

instance : IsPreorder SessionState (Alters Q) where
  refl := refl
  trans _ _ _ := trans

theorem mono (h : Alters Q s s') (hQ : ∀ slot change, Q slot change → Q' slot change) : Alters Q' s s' :=
  { h with changes := fun slot change hc => (h.changes slot change hc).imp_right (hQ slot change) }

/-- What each step of a loop does, the loop does. -/
theorem foldl {ρ : Type} {f : SessionState → ρ → SessionState} {rs : List ρ}
    (h : ∀ s, ∀ r ∈ rs, Alters Q s (f s r)) (s : SessionState) : Alters Q s (rs.foldl f s) := by
  induction rs generalizing s with
  | nil => exact refl s
  | cons r rs ih =>
    exact (h s r List.mem_cons_self).trans (ih (fun s r hr => h s r (List.mem_cons_of_mem _ hr)) (f s r))

/-- The settings that a session has now are not among what is kept. -/
theorem of_settings (s : SessionState) (current : SessionSettings) : Alters Q s { s with current } :=
  ⟨rfl, rfl, rfl, rfl, fun _ => rfl, fun _ _ => .inl⟩

theorem setVersion (s : SessionState) (version : TdsVersion) : Alters Q s (s.setVersion version) :=
  ⟨rfl, rfl, rfl, rfl, fun _ => rfl, fun _ _ => .inl⟩

/-- Going back to the baseline undoes changes, and makes none. -/
theorem reset (s : SessionState) : Alters Q s s.reset := by
  unfold SessionState.reset
  split
  · refine ⟨rfl, rfl, rfl, rfl, fun _ => rfl, fun slot change hc => ?_⟩
    rw [Slots.get_empty] at hc
    cases hc
  · exact of_settings s {}

/-- A slot that is set is the only one that has changed. -/
theorem setSlot {slot : UInt8} {change : SlotChange} (hQ : Q slot change) (s : SessionState) (unrecoverable : Nat)
    (dirty : Bool) : Alters Q s { s with unrecoverable, changes := s.changes.set slot change, dirty } := by
  refine ⟨rfl, rfl, rfl, rfl, fun _ => rfl, fun other change' hc => ?_⟩
  rw [Slots.get_set] at hc
  split at hc
  · rename_i hslot
    cases hc
    exact .inr (hslot ▸ hQ)
  · exact .inl hc

theorem recordSlot {r : StateRecord} (hQ : Q r.slot ⟨true, 0, r.data⟩) (s : SessionState) :
    Alters Q s (s.recordSlot r) := by
  unfold SessionState.recordSlot
  split
  · exact setSlot hQ s _ true
  · rename_i hbegins
    exact ⟨rfl, rfl, rfl, rfl, fun hs => absurd hs hbegins, fun _ _ => .inl⟩

/-- An acknowledgement reports slots that can be carried over. -/
theorem record {payload : Bytes} (h : s.record payload = .ok s')
    (hQ : ∀ slots, StateRecord.readAll payload = .ok slots → ∀ r ∈ slots, Q r.slot ⟨true, 0, r.data⟩) :
    Alters Q s s' := by
  obtain ⟨slots, hslots, h⟩ := Op.except_bind_eq_ok.mp h
  cases h
  exact foldl (fun s r hr => recordSlot (hQ slots hslots r hr) s) s

theorem applySlot {sequence : UInt32} {recoverable : Bool} {r : StateRecord}
    (hQ : Q r.slot ⟨recoverable, sequence, r.data⟩) (s : SessionState) :
    Alters Q s (s.applySlot sequence recoverable r) := by
  unfold SessionState.applySlot
  dsimp only
  split
  · exact refl s
  · exact setSlot hQ s _ s.dirty

/-- A token reports slots, and whether they can be carried over. -/
theorem apply {token : StateToken} (hQ : ∀ r ∈ token.records, Q r.slot ⟨token.recoverable, token.sequence, r.data⟩)
    (s : SessionState) : Alters Q s (s.apply token) := by
  unfold SessionState.apply
  dsimp only
  have hpool : Alters Q s (if token.sequence = StateToken.untracked then { s with poolable := false } else s) := by
    split
    · exact ⟨rfl, rfl, rfl, rfl, fun _ => rfl, fun _ _ => .inl⟩
    · exact refl s
  obtain ⟨hbaseline, haliases, hrecovering, hencrypted, hinitial, hchanges⟩ :=
    hpool.trans (foldl (fun s r hr => applySlot (hQ r hr) s) _)
  exact ⟨hbaseline, haliases, hrecovering, hencrypted, hinitial, hchanges⟩

end Alters

end SessionState

namespace Response

open SessionState (Alters)

variable {r r' : Response} {record : Record} {step : ResponseStep} {Q : UInt8 → SlotChange → Prop}

/-- No change in the environment is about a slot. -/
theorem alters_of_takeChange {change : EnvChange} (h : r.takeChange change = .ok r') :
    Alters Q r.session r'.session := by
  unfold takeChange at h
  split at h
  · cases h
    exact .of_settings ..
  · cases h
    exact .of_settings ..
  · obtain ⟨size, -, h⟩ := Op.except_bind_eq_ok.mp h
    cases h
    exact .refl _
  · obtain ⟨collation, -, h⟩ := Op.except_bind_eq_ok.mp h
    cases collation <;> cases h
    · exact .refl _
    · exact .of_settings ..
  · cases h
    split <;> exact .refl _
  · cases h
    exact .reset _
  · cases h
    exact .refl _
  · split at h
    · obtain ⟨⟨⟩, -, h⟩ := Op.except_bind_eq_ok.mp h
      cases h
      exact .refl _
    · cases h
      exact .refl _
  · cases h
    split <;> exact .refl _

/-- Of the features that are acknowledged, session recovery is the one that is about slots. -/
theorem alters_of_takeFeatures {acks : List FeatureAck} (h : acks.foldlM takeFeature r = .ok r')
    (hQ : ∀ ack ∈ acks, ack.id = Feature.sessionRecovery.id → ∀ slots, StateRecord.readAll ack.payload = .ok slots →
      ∀ r ∈ slots, Q r.slot ⟨true, 0, r.data⟩) : Alters Q r.session r'.session := by
  induction acks generalizing r with
  | nil =>
    cases h
    exact .refl _
  | cons ack acks ih =>
    rw [List.foldlM_cons] at h
    obtain ⟨mid, hmid, h⟩ := Op.except_bind_eq_ok.mp h
    refine trans_of (Alters Q) ?_ (ih h fun ack hack => hQ ack (List.mem_cons_of_mem _ hack))
    obtain ⟨capabilities, -, hmid⟩ := Op.except_bind_eq_ok.mp hmid
    split at hmid
    · rename_i hid
      obtain ⟨session, hsession, hmid⟩ := Op.except_bind_eq_ok.mp hmid
      cases hmid
      exact .record hsession (hQ ack List.mem_cons_self hid)
    · cases hmid
      exact .refl _

/-- A record reports what it changes. -/
theorem alters_of_take (h : r.take record = .ok step) :
    Alters (record.Reports · ·) r.session (step.response r).session := by
  unfold take at h
  split at h <;> rename_i hkind
  · cases h
    exact .refl _
  · obtain ⟨⟨ack, _⟩, -, h⟩ := Op.except_bind_eq_ok.mp h
    obtain ⟨r', hr', h⟩ := Op.except_bind_eq_ok.mp h
    cases h
    obtain ⟨capabilities, rfl⟩ := eq_of_takeLoginAck hr'
    exact .setVersion ..
  · obtain ⟨⟨acks, _⟩, hread, h⟩ := Op.except_bind_eq_ok.mp h
    obtain ⟨r', hr', h⟩ := Op.except_bind_eq_ok.mp h
    cases h
    exact alters_of_takeFeatures hr' fun ack hack hid slots hslots r hr => .acknowledged hkind hread hack hid hslots hr rfl
  · obtain ⟨⟨change, _⟩, -, h⟩ := Op.except_bind_eq_ok.mp h
    cases change with
    | none =>
      cases h
      exact .refl _
    | some change =>
      obtain ⟨r', hr', h⟩ := Op.except_bind_eq_ok.mp h
      cases h
      exact alters_of_takeChange hr'
  · obtain ⟨⟨m, _⟩, -, h⟩ := Op.except_bind_eq_ok.mp h
    cases h
    show Alters _ r.session (r.takeError m).session
    unfold takeError
    split <;> exact .refl _
  · obtain ⟨m, -, h⟩ := Op.except_bind_eq_ok.mp h
    cases h
    exact .refl _
  · obtain ⟨⟨token, _⟩, hread, h⟩ := Op.except_bind_eq_ok.mp h
    cases h
    exact .apply (fun r hr => .told hkind hread hr rfl) _
  · obtain ⟨⟨info, _⟩, -, h⟩ := Op.except_bind_eq_ok.mp h
    cases h
    exact .refl _
  · obtain ⟨⟨done, _⟩, -, h⟩ := Op.except_bind_eq_ok.mp h
    cases h
    rcases done.status.hasMore with _ | _ <;> exact .refl _

/-- Every slot that has changed in the course of a response has been reported by one of its records. -/
theorem alters_of_advanceAll {records : List Record} (h : r.advanceAll records = .ok r') :
    Alters (fun slot change => ∃ record ∈ records, record.Reports slot change) r.session r'.session := by
  induction records generalizing r with
  | nil =>
    cases h
    exact .refl _
  | cons record records ih =>
    rw [advanceAll_cons] at h
    obtain ⟨mid, hmid, h⟩ := Op.except_bind_eq_ok.mp h
    obtain ⟨step, htake, rfl⟩ := take_of_advance hmid
    refine ((alters_of_take htake).mono fun slot change hr => ⟨record, List.mem_cons_self, hr⟩).trans ?_
    exact (ih h).mono fun slot change ⟨record, hrecord, hr⟩ => ⟨record, List.mem_cons_of_mem _ hrecord, hr⟩

end Response

end TdsSession
