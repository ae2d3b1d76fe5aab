import TdsSession.Proofs.Login.Frame

/-!
# The first failure in a response

A response may report many errors. Of those that are more than warnings the
first is kept, and no other record changes it (`error?_of_take`).
-/

namespace TdsSession

/-! ## The errors that records report -/

/-- The error that a record reports, if it reports one and that is more than a warning. -/
def Record.failure? (record : Record) : Option Error :=
  match RecordKind.ofCode? record.code, ServerMessage.read record.body with
  | some .error, .ok (m, _) => if Response.maxWarning < m.severity then some (.ofMessage m) else none
  | _, _ => none

/-- The error that an event reports: that of a record that is received. -/
def Event.failure? : Event → Option Error
  | .received _ record => record.failure?
  | _ => none

/-- Whatever fails in a response is something that the server says. -/
theorem Event.failure?_eq_ofMessage {event : Event} {e : Error} (h : event.failure? = some e) :
    ∃ m : ServerMessage, e = .ofMessage m := by
  unfold Event.failure? at h
  split at h
  · unfold Record.failure? at h
    split at h
    · split at h <;> cases h
      exact ⟨_, rfl⟩
    · cases h
  · cases h

/-- The failure that was reported first, by events of which the newest is the first. -/
def firstFailure? (events : List (Moment × Event)) : Option Error :=
  events.reverse.findSome? fun e => e.2.failure?

/-- A response has been read to its end. -/
def Answered (events : List (Moment × Event)) : Prop := ∃ e ∈ events, ∃ n, e.2 = .answered n

theorem answered_append {later earlier : List (Moment × Event)} :
    Answered (later ++ earlier) ↔ Answered later ∨ Answered earlier := by
  simp only [Answered, List.mem_append, or_and_right, exists_or]

theorem not_answered {events : List (Moment × Event)} (h : ∀ e ∈ events, ∀ n, e.2 ≠ .answered n) :
    ¬ Answered events := fun ⟨e, he, n, hn⟩ => h e he n hn

/-! ## What is kept of the errors -/

namespace Response

variable {r r' : Response}

/-- An accepted login tells the version and what the server can do. -/
theorem eq_of_takeLoginAck {ack : LoginAck} (h : r.takeLoginAck ack = .ok r') :
    ∃ capabilities, r' = { r with capabilities, session := r.session.setVersion ack.version, accepted := true } := by
  obtain ⟨⟨capabilities, _⟩, -, h⟩ := Op.except_bind_eq_ok.mp h
  cases h
  exact ⟨capabilities, rfl⟩

/-- Features that are acknowledged tell what the server can do, and what it keeps for the session. -/
theorem eq_of_takeFeatures {acks : List FeatureAck} (h : acks.foldlM takeFeature r = .ok r') :
    ∃ capabilities session, r' = { r with capabilities, session } := by
  induction acks generalizing r with
  | nil =>
    cases h
    exact ⟨r'.capabilities, r'.session, rfl⟩
  | cons ack acks ih =>
    rw [List.foldlM_cons] at h
    obtain ⟨mid, hmid, h⟩ := Op.except_bind_eq_ok.mp h
    obtain ⟨capabilities, session, rfl⟩ := ih h
    obtain ⟨_, -, hmid⟩ := Op.except_bind_eq_ok.mp hmid
    split at hmid
    · obtain ⟨_, -, hmid⟩ := Op.except_bind_eq_ok.mp hmid
      cases hmid
      exact ⟨capabilities, session, rfl⟩
    · cases hmid
      exact ⟨capabilities, session, rfl⟩

theorem error?_of_takeChange {change : EnvChange} (h : r.takeChange change = .ok r') :
    r'.error? = r.error? := by
  unfold takeChange at h
  split at h
  · cases h
    rfl
  · cases h
    rfl
  · obtain ⟨size, -, h⟩ := Op.except_bind_eq_ok.mp h
    cases h
    rfl
  · obtain ⟨collation, -, h⟩ := Op.except_bind_eq_ok.mp h
    cases collation <;> cases h <;> rfl
  · cases h
    split <;> rfl
  · cases h
    rfl
  · cases h
    rfl
  · split at h
    · obtain ⟨⟨⟩, -, h⟩ := Op.except_bind_eq_ok.mp h
      cases h
      rfl
    · cases h
      rfl
  · cases h
    split <;> rfl

theorem error?_takeError (r : Response) (m : ServerMessage) :
    (r.takeError m).error? = r.error?.or (if maxWarning < m.severity then some (.ofMessage m) else none) := by
  unfold takeError
  rcases herror : r.error? with _ | e
  · by_cases hm : maxWarning < m.severity
    · rw [if_pos ⟨hm, rfl⟩, if_pos hm]
      rfl
    · rw [if_neg fun h => hm h.1, if_neg hm, herror]
      rfl
  · rw [if_neg fun h => nomatch h.2]
    exact herror

/-- Each record adds the failure that it reports, if none has been kept before. -/
theorem error?_of_take {record : Record} {step : ResponseStep} : r.take record = .ok step →
    match step with
    | .more r' => r'.error? = r.error?.or record.failure?
    | .complete r' => r' = r ∧ record.failure? = none
    | .wantsToken _ => record.failure? = none := by
  intro h
  unfold take at h
  unfold Record.failure?
  split at h <;> rename_i hkind <;> simp only [hkind, Option.or_none, and_true]
  · cases h
    rfl
  · obtain ⟨⟨ack, _⟩, -, h⟩ := Op.except_bind_eq_ok.mp h
    obtain ⟨r', hr', h⟩ := Op.except_bind_eq_ok.mp h
    cases h
    obtain ⟨capabilities, rfl⟩ := eq_of_takeLoginAck hr'
    rfl
  · obtain ⟨⟨acks, _⟩, -, h⟩ := Op.except_bind_eq_ok.mp h
    obtain ⟨r', hr', h⟩ := Op.except_bind_eq_ok.mp h
    cases h
    obtain ⟨capabilities, session, rfl⟩ := eq_of_takeFeatures hr'
    rfl
  · obtain ⟨⟨change, _⟩, -, h⟩ := Op.except_bind_eq_ok.mp h
    cases change with
    | none =>
      cases h
      rfl
    | some change =>
      obtain ⟨r', hr', h⟩ := Op.except_bind_eq_ok.mp h
      cases h
      exact error?_of_takeChange hr'
  · obtain ⟨⟨m, _⟩, hm, h⟩ := Op.except_bind_eq_ok.mp h
    cases h
    simp only [hm]
    exact error?_takeError r m
  · obtain ⟨m, -, h⟩ := Op.except_bind_eq_ok.mp h
    cases h
    rfl
  · obtain ⟨⟨token, _⟩, -, h⟩ := Op.except_bind_eq_ok.mp h
    cases h
    rfl
  · obtain ⟨⟨info, _⟩, -, h⟩ := Op.except_bind_eq_ok.mp h
    cases h
    trivial
  · obtain ⟨⟨done, _⟩, -, h⟩ := Op.except_bind_eq_ok.mp h
    cases h
    rcases done.status.hasMore with _ | _ <;> rfl

end Response

end TdsSession
