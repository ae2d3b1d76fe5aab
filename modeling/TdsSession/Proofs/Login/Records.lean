import TdsSession.Proofs.Login.Response

/-!
# Responses, record by record

What a response comes to is what its records say, one after the other
(`Response.advanceAll`). Of the partners that records name, and of the targets
that they send a login on to, the last one is kept (`named_of_take`,
`routing?_of_advanceAll`), and of the failures the first
(`error?_of_advanceAll`); a target that cannot be connected to is refused,
whatever came before it (`take_of_routing`).
-/

namespace TdsSession

/-! ## The changes that records report -/

namespace EnvChange

/-- The failover partner that a change names. -/
def partner? (c : EnvChange) : Option String :=
  if c.kind = .mirroringPartner ∧ (c.new.text?.getD "").isEmpty = false then some (c.new.text?.getD "") else none

/-- The target that a change sends a login on to. -/
def target? (c : EnvChange) : Option Routing := if c.kind = .routing then c.routing? else none

end EnvChange

namespace Record

/-- The change in the environment that a record reports, if it can be read. -/
def change? (record : Record) : Option EnvChange :=
  match RecordKind.ofCode? record.code, EnvChange.read record.body with
  | some .envChange, .ok (change, _) => change
  | _, _ => none

/-- The failover partner that a record names. -/
def partner? (record : Record) : Option String := record.change?.bind EnvChange.partner?

/-- The target that a record sends a login on to, whether it can be connected to or not. -/
def routing? (record : Record) : Option Routing := record.change?.bind EnvChange.target?

end Record

/-- The response after a step. -/
def ResponseStep.response (r : Response) : ResponseStep → Response
  | .more r' | .complete r' => r'
  | .wantsToken _ => r

namespace Response

variable {r r' : Response} {record : Record} {step : ResponseStep}

/-- The response after a record; a request for a token leaves it as it is. -/
def advance (r : Response) (record : Record) : Except ProtocolError Response :=
  (r.take record).map (ResponseStep.response r)

/-- The response after records, one after the other. -/
def advanceAll (r : Response) (records : List Record) : Except ProtocolError Response := records.foldlM advance r

theorem advance_of_take (h : r.take record = .ok step) : r.advance record = .ok (step.response r) := by
  unfold advance
  rw [h]
  rfl

theorem take_of_advance (h : r.advance record = .ok r') :
    ∃ step, r.take record = .ok step ∧ step.response r = r' := by
  unfold advance at h
  rcases htake : r.take record with e | step <;> rw [htake] at h <;> cases h
  exact ⟨step, rfl, rfl⟩

theorem advanceAll_cons (r : Response) (record : Record) (records : List Record) :
    r.advanceAll (record :: records) = r.advance record >>= fun r' => r'.advanceAll records := by
  unfold advanceAll
  rw [List.foldlM_cons]

/-! ## What a record changes -/

/-- A change that can be read is taken over. -/
theorem take_of_change {change : EnvChange} (h : record.change? = some change) :
    r.take record = (r.takeChange change).map .more := by
  unfold Record.change? at h
  split at h
  · rename_i found _ hkind hread
    cases h
    unfold take
    simp only [hkind, hread]
    show (r.takeChange change >>= fun r' => pure (ResponseStep.more r')) = _
    rcases r.takeChange change with e | r' <;> rfl
  · cases h

/-- What a record that reports no change leaves alone. -/
theorem kept_of_take (h : record.change? = none) (ht : r.take record = .ok step) :
    (step.response r).partner? = r.partner? ∧ (step.response r).routing? = r.routing? ∧
      (step.response r).events = r.events := by
  unfold Record.change? at h
  unfold take at ht
  split at ht <;> rename_i hkind <;> simp only [hkind] at h
  · cases ht
    exact ⟨rfl, rfl, rfl⟩
  · obtain ⟨⟨ack, _⟩, -, ht⟩ := Op.except_bind_eq_ok.mp ht
    obtain ⟨r', hr', ht⟩ := Op.except_bind_eq_ok.mp ht
    obtain ⟨capabilities, rfl⟩ := eq_of_takeLoginAck hr'
    cases ht
    exact ⟨rfl, rfl, rfl⟩
  · obtain ⟨⟨acks, _⟩, -, ht⟩ := Op.except_bind_eq_ok.mp ht
    obtain ⟨r', hr', ht⟩ := Op.except_bind_eq_ok.mp ht
    cases ht
    obtain ⟨capabilities, session, rfl⟩ := eq_of_takeFeatures hr'
    exact ⟨rfl, rfl, rfl⟩
  · obtain ⟨⟨change, _⟩, hread, ht⟩ := Op.except_bind_eq_ok.mp ht
    rw [hread] at h
    cases h
    cases ht
    exact ⟨rfl, rfl, rfl⟩
  · obtain ⟨⟨m, _⟩, -, ht⟩ := Op.except_bind_eq_ok.mp ht
    cases ht
    show (r.takeError m).partner? = r.partner? ∧ (r.takeError m).routing? = r.routing? ∧
      (r.takeError m).events = r.events
    unfold takeError
    split <;> exact ⟨rfl, rfl, rfl⟩
  · obtain ⟨m, -, ht⟩ := Op.except_bind_eq_ok.mp ht
    cases ht
    exact ⟨rfl, rfl, rfl⟩
  · obtain ⟨⟨token, _⟩, -, ht⟩ := Op.except_bind_eq_ok.mp ht
    cases ht
    exact ⟨rfl, rfl, rfl⟩
  · obtain ⟨⟨info, _⟩, -, ht⟩ := Op.except_bind_eq_ok.mp ht
    cases ht
    exact ⟨rfl, rfl, rfl⟩
  · obtain ⟨⟨done, _⟩, -, ht⟩ := Op.except_bind_eq_ok.mp ht
    cases ht
    rcases done.status.hasMore with _ | _ <;> exact ⟨rfl, rfl, rfl⟩

/-- A change that names a partner is taken over. -/
theorem takeChange_of_partner {change : EnvChange} {name : String} (h : change.partner? = some name) :
    r.takeChange change = .ok { r with partner? := some name } := by
  unfold EnvChange.partner? at h
  split at h
  · rename_i hname
    cases h
    unfold takeChange
    simp only [hname.1]
    rw [if_neg (by rw [hname.2]; exact Bool.false_ne_true)]
  · cases h

/-- A target that a change names is taken over, if it can be connected to. -/
theorem takeChange_of_target {change : EnvChange} {target : Routing} (h : change.target? = some target) :
    r.takeChange change = target.validate.map fun _ => { r with routing? := some target } := by
  unfold EnvChange.target? at h
  split at h
  · rename_i hkind
    unfold takeChange
    simp only [hkind, h]
    rcases target.validate with e | _ <;> rfl
  · cases h

/-- What a change that names nobody leaves alone. -/
theorem kept_of_takeChange {change : EnvChange} (hp : change.partner? = none) (ht : change.target? = none)
    (h : r.takeChange change = .ok r') : r'.partner? = r.partner? ∧ r'.routing? = r.routing? := by
  unfold takeChange at h
  split at h <;> rename_i hkind
  · cases h
    exact ⟨rfl, rfl⟩
  · cases h
    exact ⟨rfl, rfl⟩
  · obtain ⟨size, -, h⟩ := Op.except_bind_eq_ok.mp h
    cases h
    exact ⟨rfl, rfl⟩
  · obtain ⟨collation, -, h⟩ := Op.except_bind_eq_ok.mp h
    cases collation <;> cases h <;> exact ⟨rfl, rfl⟩
  · cases h
    unfold EnvChange.partner? at hp
    split
    · exact ⟨rfl, rfl⟩
    · rename_i hname
      rw [if_pos ⟨hkind, Bool.eq_false_iff.mpr hname⟩] at hp
      cases hp
  · cases h
    exact ⟨rfl, rfl⟩
  · cases h
    exact ⟨rfl, rfl⟩
  · unfold EnvChange.target? at ht
    rw [if_pos hkind] at ht
    rw [ht] at h
    cases h
    exact ⟨rfl, rfl⟩
  · cases h
    split <;> exact ⟨rfl, rfl⟩

/-- A record that names a partner is taken over. -/
theorem take_of_partner {name : String} (h : record.partner? = some name) :
    r.take record = .ok (.more { r with partner? := some name }) := by
  obtain ⟨change, hchange, hname⟩ := Option.bind_eq_some_iff.mp h
  rw [take_of_change hchange, takeChange_of_partner hname]
  rfl

/-- A record that sends the login on is taken over, if its target can be connected to. -/
theorem take_of_routing {target : Routing} (h : record.routing? = some target) :
    r.take record = target.validate.map fun _ => .more { r with routing? := some target } := by
  obtain ⟨change, hchange, htarget⟩ := Option.bind_eq_some_iff.mp h
  rw [take_of_change hchange, takeChange_of_target htarget]
  rcases target.validate with e | _ <;> rfl

/-- A record that names a partner or a target replaces the one before, and no other record does. -/
theorem named_of_take (h : r.take record = .ok step) :
    (step.response r).partner? = record.partner?.or r.partner? ∧
      (step.response r).routing? = record.routing?.or r.routing? := by
  unfold Record.partner? Record.routing?
  rcases hchange : record.change? with _ | change
  · obtain ⟨hpartner, hrouting, -⟩ := kept_of_take hchange h
    exact ⟨hpartner, hrouting⟩
  rw [take_of_change hchange] at h
  rcases htake : r.takeChange change with e | r' <;> rw [htake] at h <;> cases h
  simp only [Option.bind_some]
  rcases hpartner : change.partner? with _ | name
  · rcases htarget : change.target? with _ | target
    · exact kept_of_takeChange hpartner htarget htake
    · rw [takeChange_of_target htarget] at htake
      rcases hvalid : target.validate with e | _ <;> rw [hvalid] at htake <;> cases htake
      exact ⟨rfl, rfl⟩
  · have htarget : change.target? = none := by
      unfold EnvChange.partner? at hpartner
      unfold EnvChange.target?
      split at hpartner
      · rename_i hkind
        rw [hkind.1]
        rfl
      · cases hpartner
    rw [takeChange_of_partner hpartner] at htake
    cases htake
    rw [htarget]
    exact ⟨rfl, rfl⟩

/-- Only a record that is taken over and read past names a partner. -/
theorem partner?_eq_none (h : ∀ r', r.take record ≠ .ok (.more r')) : record.partner? = none := by
  rcases hpartner : record.partner? with _ | name
  · rfl
  · exact absurd (take_of_partner hpartner) (h _)

/-! ## What is left of records in a row -/

theorem advanceAll_append (r : Response) (first second : List Record) :
    r.advanceAll (first ++ second) = r.advanceAll first >>= fun r' => r'.advanceAll second := by
  unfold advanceAll
  rw [List.foldlM_append]

/-- The first failure is kept. -/
theorem error?_of_advanceAll {records : List Record} (h : r.advanceAll records = .ok r') :
    r'.error? = r.error?.or (records.findSome? Record.failure?) := by
  induction records generalizing r with
  | nil =>
    cases h
    exact (Option.or_none).symm
  | cons record rest ih =>
    rw [advanceAll_cons] at h
    obtain ⟨mid, hmid, h⟩ := Op.except_bind_eq_ok.mp h
    obtain ⟨step, htake, rfl⟩ := take_of_advance hmid
    have hstep : (step.response r).error? = r.error?.or record.failure? := by
      have hkept := error?_of_take htake
      cases step with
      | more r' => exact hkept
      | complete r' =>
        obtain ⟨rfl, hnone⟩ := hkept
        rw [hnone, Option.or_none]
        rfl
      | wantsToken info =>
        rw [show record.failure? = none from hkept, Option.or_none]
        rfl
    rw [ih h, hstep, Option.or_assoc, List.findSome?_cons]
    cases record.failure? <;> rfl

/-- The last target that the login was sent on to is kept. -/
theorem routing?_of_advanceAll {records : List Record} (h : r.advanceAll records = .ok r') :
    r'.routing? = (records.reverse.findSome? Record.routing?).or r.routing? := by
  induction records generalizing r with
  | nil =>
    cases h
    rfl
  | cons record rest ih =>
    rw [advanceAll_cons] at h
    obtain ⟨mid, hmid, h⟩ := Op.except_bind_eq_ok.mp h
    obtain ⟨step, htake, rfl⟩ := take_of_advance hmid
    rw [ih h, (named_of_take htake).2, List.reverse_cons, List.findSome?_append, List.findSome?_singleton,
      Option.or_assoc]

/-- Each of the records has been taken. -/
theorem exists_take_of_advanceAll {records : List Record} (h : r.advanceAll records = .ok r')
    (hrecord : record ∈ records) : ∃ (before : Response) (step : ResponseStep), before.take record = .ok step := by
  induction records generalizing r with
  | nil => cases hrecord
  | cons first rest ih =>
    rw [advanceAll_cons] at h
    obtain ⟨mid, hmid, h⟩ := Op.except_bind_eq_ok.mp h
    rcases List.mem_cons.mp hrecord with rfl | hrest
    · obtain ⟨step, htake, -⟩ := take_of_advance hmid
      exact ⟨r, step, htake⟩
    · exact ih h hrest

/-- Every target that records have sent the login on to can be connected to, or it would have been the end of
the response. -/
theorem validate_of_advanceAll {records : List Record} (h : r.advanceAll records = .ok r') {target : Routing}
    (hrecord : record ∈ records) (htarget : record.routing? = some target) : target.validate = .ok () := by
  obtain ⟨before, step, htake⟩ := exists_take_of_advanceAll h hrecord
  rw [take_of_routing htarget] at htake
  rcases hvalid : target.validate with e | ⟨⟩
  · rw [hvalid] at htake
    cases htake
  · rfl

end Response

end TdsSession
