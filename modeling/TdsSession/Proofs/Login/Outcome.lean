import TdsSession.Proofs.Login.Completion
import TdsSession.Proofs.Login.Verdict

/-!
# How an attempt ends

An attempt that gets so far as to read a response, and is not cut off, ends by the
verdict on the records of its line (`attempt_verdict`). It hears the records one
by one (`LoginM.hear`), up to one that decides (`LoginM.readResponse_hears`); what
it has gathered when the final DONE comes is judged by what those records say
(`LoginM.conclude_verdict`).
-/

namespace TdsSession

open Op (Ends Keeps Stops)

variable {σ α : Type}

theorem Stop.eq_failed {s : Stop} (h : ¬ s.IsOther) : ∃ e, s = .failed e := by
  cases s with
  | failed e => exact ⟨e, rfl⟩
  | _ => exact absurd (fun _ => nofun) h

/-! ## One record -/

namespace LoginM

/-- Takes a record, and does what it asks for. -/
def heed (p : AttemptPlan) (t : Transport) (r : Response) (record : Record) : LoginM σ Response := do
  match r.take record with
  | .error e => fail (.protocol e)
  | .ok (.more r) => do
    notePartner r
    return r
  | .ok (.complete r) => return r
  | .ok (.wantsToken info) => do
    showToken p t info
    return r

/-- Receives one record, and heeds it. -/
def hear (p : AttemptPlan) (t : Transport) (r : Response) (record : Delayed Record) : LoginM σ Response := do
  inWorld (WorldM.wait record.delay p.deadline)
  inWorld (WorldM.note (.received t.number record.value))
  heed p t r record.value

variable {p : AttemptPlan} {t : Transport} {run run' : LoginRun σ}

/-- A response is read by hearing its records up to the final DONE. -/
theorem readResponse_cons_eq (p : AttemptPlan) (t : Transport) (record : Delayed Record) (rest : List (Delayed Record))
    (r : Response) :
    (readResponse p t (record :: rest) r : LoginM σ (Response × List (Delayed Record))) =
      hear p t r record >>= fun r' =>
        if record.value.finalDone?.isSome then inWorld (WorldM.note (.answered t.number)) >>= fun _ => pure (r', rest)
        else readResponse p t rest r' := by
  unfold hear heed
  rw [readResponse]
  simp only [bind_assoc]
  refine bind_congr fun _ => bind_congr fun _ => ?_
  have hopen (h : ∀ r', r.take record.value ≠ .ok (.complete r')) : record.value.finalDone? = none :=
    Response.finalDone?_eq_none h
  rcases htake : r.take record.value with e | r' | r' | info <;> rw [htake] at hopen <;> dsimp only
  · rfl
  · rw [hopen fun _ heq => by cases heq]
    simp only [bind_assoc, pure_bind]
    rfl
  · obtain ⟨-, done, hdone⟩ := Response.step_of_take htake
    rw [hdone]
    rfl
  · rw [hopen fun _ heq => by cases heq]
    simp only [bind_assoc, pure_bind]
    rfl

theorem inWorld_other {m : WorldM σ α} (h : Stops (fun _ => True) Stop.IsOther m) :
    Stops (fun _ => True) Stop.IsOther (inWorld m : LoginM σ α) := Ends.inWorld h

/-- The attempt fails at a record for which no token can be shown, if it has not failed for having none at all. -/
theorem failure?_of_failed {record : Record} {info : FedAuthInfo} {e : Error} {noted : LoginRun σ}
    (hinfo : record.tokenRequest? = some info)
    (hfault : p.fault? record = if p.provided.isSome then none else some (.unrequestedFeature Feature.fedAuth.id))
    (h : showToken p t info noted = (.error (.failed e), run')) : p.failure? ⟨record, some e⟩ = some e := by
  unfold AttemptPlan.failure?
  rw [hfault, hinfo]
  rcases hprovided : p.provided with _ | method
  · rw [showToken_of_none hprovided] at h
    cases h
    rfl
  · rfl

theorem fault?_of_shown {record : Record} {info : FedAuthInfo} {noted : LoginRun σ}
    (hfault : p.fault? record = if p.provided.isSome then none else some (.unrequestedFeature Feature.fedAuth.id))
    (h : showToken p t info noted = (.ok (), run')) : p.fault? record = none := by
  rcases hprovided : p.provided with _ | method
  · rw [showToken_of_none hprovided] at h
    cases h
  · rw [hfault, hprovided]
    rfl

/-- The attempt fails at a record that is not refused only if no token can be shown. -/
theorem failure?_of_fault?_eq_none {record : Record} (h : p.fault? record = none) :
    p.failure? ⟨record, none⟩ = none := by
  unfold AttemptPlan.failure?
  rw [h]
  cases record.tokenRequest? <;> rfl

theorem heed_grows (p : AttemptPlan) (t : Transport) (r : Response) (record : Record) :
    Keeps (TraceGrows Event.ofToken) (heed p t r record : LoginM σ Response) := by
  unfold heed
  split
  · exact Keeps.fail _
  · exact Keeps.bind (fun _ => .refl _) fun _ => Keeps.pure _
  · exact Keeps.pure _
  · exact Keeps.bind (fun run => (showToken_notes p t _ run).trace) fun _ => Keeps.pure _

/-- The attempt fails at a record, or takes it. -/
theorem heed_cases {r : Response} {record : Record} {res : Except Stop Response}
    (h : heed p t r record run = (res, run')) (hr : r.capabilities.requested = p.config.loginFeatures)
    (hend : ∀ s, res = .error s → ¬ s.IsOther) :
    ∃ a : Reception, a.record = record ∧
      ((∃ e, p.failure? a = some e ∧ res = .error (.failed e)) ∨
        p.failure? a = none ∧ ∃ r', r.advance record = .ok r' ∧ res = .ok r') := by
  unfold heed at h
  have hfault := AttemptPlan.fault?_eq hr record
  rcases htake : r.take record with e | step <;> rw [htake] at h hfault
  · cases h
    refine ⟨⟨record, none⟩, rfl, .inl ⟨.protocol e, ?_, rfl⟩⟩
    unfold AttemptPlan.failure?
    rw [hfault]
  have hadvance := Response.advance_of_take htake
  cases step with
  | more r' =>
    cases h
    exact ⟨⟨record, none⟩, rfl, .inr ⟨failure?_of_fault?_eq_none hfault, r', hadvance, rfl⟩⟩
  | complete r' =>
    cases h
    exact ⟨⟨record, none⟩, rfl, .inr ⟨failure?_of_fault?_eq_none hfault, r', hadvance, rfl⟩⟩
  | wantsToken info =>
    have hinfo := Response.take_eq_wantsToken_iff.mp htake
    rcases Op.bind_cases h with ⟨s, hs, rfl⟩ | ⟨⟨⟩, shown, hs, h⟩
    · obtain ⟨e, rfl⟩ := Stop.eq_failed (hend s rfl)
      exact ⟨⟨record, some e⟩, rfl, .inl ⟨e, failure?_of_failed hinfo hfault hs, rfl⟩⟩
    · cases h
      exact ⟨⟨record, none⟩, rfl, .inr ⟨failure?_of_fault?_eq_none (fault?_of_shown hfault hs), r, hadvance, rfl⟩⟩

/-- A record is received. The attempt fails there, or takes it. -/
theorem hear_cases {r : Response} {record : Delayed Record} {res : Except Stop Response}
    (h : hear p t r record run = (res, run')) (hr : r.capabilities.requested = p.config.loginFeatures)
    (hend : ∀ s, res = .error s → ¬ s.IsOther) :
    ∃ a : Reception, a.record = record.value ∧
      (∃ added, run'.world.trace = added ++ run.world.trace ∧ received added = [record.value]) ∧
      ((∃ e, p.failure? a = some e ∧ res = .error (.failed e)) ∨
        p.failure? a = none ∧ ∃ r', r.advance record.value = .ok r' ∧ res = .ok r') := by
  unfold hear at h
  rcases Op.bind_cases h with ⟨s, hwait, rfl⟩ | ⟨⟨⟩, waited, hwait, h⟩
  · exact absurd ((inWorld_other (WorldM.wait_other _ _)).reason trivial hwait) (hend s rfl)
  have hsame : Notes (fun _ => False) run waited := (wait_notes record.delay p.deadline).of_eq hwait
  let first : Moment × Event := (waited.world.now, .received t.number record.value)
  obtain ⟨noted, hnote, hfirst⟩ : ∃ noted,
      inWorld (WorldM.note (.received t.number record.value)) waited = (.ok (), noted) ∧
        noted.world.trace = [first] ++ run.world.trace := ⟨_, rfl, congrArg (first :: ·) hsame.trace_eq⟩
  rw [Op.bind_of_ok hnote] at h
  obtain ⟨added, hadded, htoken⟩ := (heed_grows p t r record.value).of_eq h
  obtain ⟨a, ha, hcases⟩ := heed_cases h hr hend
  refine ⟨a, ha, ⟨added ++ [first], ?_, ?_⟩, hcases⟩
  · rw [hadded, hfirst, List.append_assoc]
  · rw [received_append, received_eq_nil fun e he => (htoken e he).readsNothing]
    rfl

end LoginM

/-! ## All records of a line -/

/-- The failure that the end of a line comes to. -/
def Line.endError (line : Line) : Error :=
  match line.ending.value with
  | .error e => e
  | .ok () => .connectionClosed

/-- What is heard over `t`, from `run` on: records one by one, up to one that decides. Whether the attempt fails at a
record is what comes of hearing it in the state in which the records before it have left the login. -/
inductive AttemptPlan.Hears (p : AttemptPlan) (t : Transport) :
    Response → LoginRun σ → List (Delayed Record) → List Reception → Prop
  | nil (r : Response) (run : LoginRun σ) : Hears p t r run [] []
  | decides {r : Response} {run : LoginRun σ} {record : Delayed Record} {rest : List (Delayed Record)} {a : Reception}
      {all : List Reception} (ha : a.record = record.value) (hdecides : p.decides a = true)
      (hhears : (LoginM.hear p t r record run).1 = match p.failure? a with
        | some e => .error (.failed e)
        | none => .ok r)
      (hrest : all.map Reception.record = rest.map Delayed.value) : Hears p t r run (record :: rest) (a :: all)
  | passes {r r' : Response} {run mid : LoginRun σ} {record : Delayed Record} {rest : List (Delayed Record)}
      {a : Reception} {all : List Reception} (ha : a.record = record.value) (hdecides : p.decides a = false)
      (hhears : LoginM.hear p t r record run = (.ok r', mid)) (hrest : Hears p t r' mid rest all) :
      Hears p t r run (record :: rest) (a :: all)

/-- What reading the records of a line comes to, from what has been gathered in `r` so far on. -/
def AttemptPlan.reading (p : AttemptPlan) (t : Transport) (r : Response) (all : List Reception)
    (records : List (Delayed Record)) : Except Stop (Response × List (Delayed Record)) :=
  match p.breaksOff? t.line.endError all with
  | some e => .error (.failed e)
  | none => .ok (r.past (p.passed all), records.drop ((p.passed all).length + 1))

namespace AttemptPlan

variable {p : AttemptPlan} {t : Transport} {a : Reception} {all : List Reception} {record : Delayed Record}
  {rest : List (Delayed Record)} {r r' : Response}

/-- Every record of the line is there, whether it is received or not. -/
theorem Hears.same {run : LoginRun σ} {records : List (Delayed Record)} (h : p.Hears t r run records all) :
    all.map Reception.record = records.map Delayed.value := by
  induction h with
  | nil => rfl
  | decides ha _ _ hrest => rw [List.map_cons, List.map_cons, ha, hrest]
  | passes ha _ _ _ ih => rw [List.map_cons, List.map_cons, ha, ih]

theorem reading_cons_of_decides (h : p.decides a = true) :
    p.reading t r (a :: all) (record :: rest) = match p.failure? a with
      | some e => .error (.failed e)
      | none => .ok (r, rest) := by
  unfold reading
  rw [breaksOff?_cons_of_decides h, passed_cons_of_decides h]
  rfl

theorem reading_cons_of_not_decides (h : p.decides a = false) (hadvance : r.advance a.record = .ok r') :
    p.reading t r (a :: all) (record :: rest) = p.reading t r' all rest := by
  unfold reading
  rw [breaksOff?_cons_of_not_decides h, passed_cons_of_not_decides h, Response.past_cons, hadvance]
  rfl

end AttemptPlan

namespace LoginM

variable {p : AttemptPlan} {t : Transport} {run run' : LoginRun σ}

/-- Without records, reading comes to the end of the stream, unless it is cut off. -/
theorem readResponse_nil_other (p : AttemptPlan) (t : Transport) (r : Response) :
    Stops (fun _ => True) (fun s => s.IsOther ∨ s = .failed t.line.endError)
      (readResponse p t [] r : LoginM σ (Response × List (Delayed Record))) := by
  refine Ends.bind (Stops.mono (inWorld_other (WorldM.wait_other _ _)) fun _ => .inl) fun _ _ => ?_
  unfold Line.endError
  rcases t.line.ending.value with e | ⟨⟩
  · exact Ends.bind (P := fun _ => False) (Ends.throw (.inr rfl)) fun _ h => h.elim
  · exact Ends.bind (P := fun _ => True) (Ends.pure trivial) fun _ _ => Ends.fail (.inr rfl)

/-- Reading goes through the records of a line, up to one that decides. -/
theorem readResponse_hears {records : List (Delayed Record)} {r : Response}
    {res : Except Stop (Response × List (Delayed Record))} (h : readResponse p t records r run = (res, run'))
    (hr : r.capabilities.requested = p.config.loginFeatures) (hend : ∀ s, res = .error s → ¬ s.IsOther) :
    ∃ all, p.Hears t r run records all ∧ res = p.reading t r all records ∧
      ∃ added, run'.world.trace = added ++ run.world.trace ∧ received added = (p.heard all).map Reception.record := by
  -- the response so far is arbitrary, but for what has been requested: a record is refused for nothing else
  induction records generalizing r run with
  | nil =>
    obtain ⟨hsame, s, rfl⟩ := readResponse_nil h
    refine ⟨[], .nil r run, ?_, [], hsame.trace_eq, rfl⟩
    have hs := ((readResponse_nil_other p t r).reason trivial h).resolve_left (hend s rfl)
    rw [hs]
    rfl
  | cons record rest ih =>
    let unread : List Reception := rest.map fun record => ⟨record.value, none⟩
    have hunread : unread.map Reception.record = rest.map Delayed.value := List.map_map
    rw [readResponse_cons_eq] at h
    rcases Op.bind_cases h with ⟨s, hhears, rfl⟩ | ⟨r', mid, hhears, h⟩
    · obtain ⟨a, ha, ⟨first, hfirst, hone⟩, ⟨e, hfails, hs⟩ | ⟨-, _, -, hs⟩⟩ := hear_cases hhears hr fun s' hs' => by
        cases hs'
        exact hend s rfl
      · cases hs
        have hdecides := AttemptPlan.decides_of_failure? hfails
        refine ⟨a :: unread, .decides ha hdecides ?_ hunread, ?_, first, hfirst, ?_⟩
        · rw [hhears, hfails]
        · rw [AttemptPlan.reading_cons_of_decides hdecides, hfails]
        · rw [AttemptPlan.heard_cons_of_decides hdecides, List.map_singleton, ha]
          exact hone
      · cases hs
    obtain ⟨a, ha, ⟨first, hfirst, hone⟩, ⟨e, -, hs⟩ | ⟨hnone, r'', hadvance, hs⟩⟩ := hear_cases hhears hr nofun
    · cases hs
    cases hs
    have hdecides := AttemptPlan.decides_eq hnone
    rw [ha] at hdecides
    rcases hdone : record.value.finalDone? with _ | done <;> rw [hdone] at h hdecides
    · obtain ⟨step, htake, rfl⟩ := Response.take_of_advance hadvance
      obtain ⟨all, hhear, hres, later, hlater, hheard⟩ := ih h ((Response.takes_of_take htake).requested.trans hr)
      refine ⟨a :: all, .passes ha hdecides hhears hhear, ?_, later ++ first, ?_, ?_⟩
      · rw [AttemptPlan.reading_cons_of_not_decides hdecides (by rw [ha, hadvance])]
        exact hres
      · rw [hlater, hfirst, List.append_assoc]
      · rw [received_append, hone, hheard, AttemptPlan.heard_cons_of_not_decides hdecides, List.map_cons, ha]
        rfl
    · cases (Response.advance_of_finalDone? r hdone).symm.trans hadvance
      cases h
      let last : Moment × Event := (mid.world.now, .answered t.number)
      refine ⟨a :: unread, .decides ha hdecides ?_ hunread, ?_, [last] ++ first, congrArg (last :: ·) hfirst, ?_⟩
      · rw [hhears, hnone]
      · rw [AttemptPlan.reading_cons_of_decides hdecides, hnone]
      · rw [received_append, hone, AttemptPlan.heard_cons_of_decides hdecides, List.map_singleton, ha]
        rfl

end LoginM

/-! ## The whole attempt -/

/-- The end of an attempt over `t` by a verdict. -/
def Verdict.result (v : Verdict) (p : AttemptPlan) (t : Transport) : Except Stop AttemptEnd :=
  match v with
  | .failed e => .error (.failed e)
  | .routed target => .ok (.routed target)
  | .opened r => .ok (.opened (p.established t r))

namespace LoginM

variable {p : AttemptPlan} {t : Transport} {server : Server σ} {run start run' : LoginRun σ}

/-- What a final DONE ends is judged by the records before it. -/
theorem conclude_verdict {base : SessionState} {ack : HandshakeAnswer} {r : Response} {records : List Record}
    {res : Except Stop AttemptEnd} (h : conclude p t r run = (res, run'))
    (hr : (p.firstResponse base ack).advanceAll records = .ok r) (hend : ∀ s, res = .error s → ¬ s.IsOther) :
    res = (p.conclusion (p.firstResponse base ack) records).result p t := by
  have herror : r.error? = records.findSome? Record.failure? := Response.error?_of_advanceAll hr
  have hrouting : r.routing? = records.reverse.findSome? Record.routing? := by
    rw [Response.routing?_of_advanceAll hr]
    exact Option.or_none
  have hgathers := Response.gathers_of_advanceAll hr
  have haccepted : r.accepted = records.any Record.accepts := by
    rw [hgathers.accepted]
    exact Bool.or_false _
  have hrecovery : r.capabilities.sessionRecovery = records.any Record.carriesOver := by
    rw [hgathers.sessionRecovery]
    exact Bool.or_false _
  have discarded {s : Stop} (hs : inWorld (WorldM.discard t p.deadline) run = (.error s, run')) : s.IsOther :=
    (inWorld_other (WorldM.discard_other t p.deadline)).reason trivial hs
  unfold AttemptPlan.conclusion
  rw [← herror, ← hrouting, ← haccepted, ← hrecovery, Response.past_of_advanceAll hr]
  rcases hfailed : r.error? with _ | e
  · rcases hrouted : r.routing? with _ | target
    · rw [conclude_of_not_explains (Response.explains_eq_false.mpr ⟨hfailed, hrouted⟩)] at h
      cases h
      unfold Response.unfinished?
      rcases r.accepted with _ | _
      · rfl
      · rcases p.recovery.isSome && !r.capabilities.sessionRecovery with _ | _ <;> rfl
    · unfold conclude at h
      rw [hfailed, hrouted] at h
      rcases Op.bind_cases h with ⟨s, hs, rfl⟩ | ⟨_, after, -, h⟩
      · exact absurd (discarded hs) (hend s rfl)
      · cases h
        rfl
  · unfold conclude at h
    rw [hfailed] at h
    rcases Op.bind_cases h with ⟨s, hs, rfl⟩ | ⟨_, after, -, h⟩
    · exact absurd (discarded hs) (hend s rfl)
    · cases h
      rfl

/-- Reading a response, and what comes after it, ends by the verdict on the records. -/
theorem read_verdict {base : SessionState} {ack : HandshakeAnswer} {res : Except Stop AttemptEnd}
    (h : (readResponse p t t.line.records (p.firstResponse base ack) >>= fun read =>
      conclude p { t with line := { t.line with records := read.2 } } read.1) run = (res, run'))
    (hend : ∀ s, res = .error s → ¬ s.IsOther) :
    ∃ all, p.Hears t (p.firstResponse base ack) run t.line.records all ∧
      (∃ added, run'.world.trace = added ++ run.world.trace ∧ received added = (p.heard all).map Reception.record) ∧
      res = (p.verdict (p.firstResponse base ack) t.line.endError all).result p
        { t with line := { t.line with records := t.line.records.drop ((p.passed all).length + 1) } } := by
  unfold AttemptPlan.verdict
  rcases Op.bind_cases h with ⟨s, hread, rfl⟩ | ⟨⟨r, rest⟩, after, hread, h⟩
  · obtain ⟨all, hhears, hres, hreceived⟩ := readResponse_hears hread rfl fun s' hs' => by
      cases hs'
      exact hend s rfl
    refine ⟨all, hhears, hreceived, ?_⟩
    unfold AttemptPlan.reading at hres
    rcases hbreaks : p.breaksOff? t.line.endError all with _ | e <;> rw [hbreaks] at hres <;> cases hres
    rfl
  · obtain ⟨all, hhears, hres, added, hadded, hreceived⟩ := readResponse_hears hread rfl nofun
    obtain ⟨-, -, closing, hclosing, hquiet⟩ :=
      (conclude_notes p { t with line := { t.line with records := rest } } r).of_eq h
    refine ⟨all, hhears, ⟨closing ++ added, ?_, ?_⟩, ?_⟩
    · rw [hclosing, hadded, List.append_assoc]
    · rw [received_append, received_eq_nil fun e he => (hquiet e he).readsNothing, List.append_nil, hreceived]
    · unfold AttemptPlan.reading at hres
      rcases hbreaks : p.breaksOff? t.line.endError all with _ | e <;> rw [hbreaks] at hres <;> cases hres
      exact conclude_verdict h (AttemptPlan.advanceAll_passed rfl all) hend

/-- What an attempt does up to the first record of the response: it gives its transport, and what is known then. -/
def begin (server : Server σ) (p : AttemptPlan) : LoginM σ (Transport × Response) := do
  requireProvider p
  enter .connecting
  let t ← inWorld (WorldM.connect server p.target p.timeout p.deadline)
  enter .handshakeNegotiation
  let ack ← inWorld (WorldM.handshake t p.handshake p.deadline)
  let session := (← get).base.setEncrypted ack.encryption
  enter .loggingIn
  inWorld (WorldM.sendLogin t p.login p.deadline)
  enter .awaitingFeatureAcks
  return (t, { capabilities := .empty p.config.loginFeatures, session })

/-- After that, an attempt reads the response and concludes. -/
theorem attempt_eq (server : Server σ) (p : AttemptPlan) :
    attempt server p = begin server p >>= fun begun =>
      readResponse p begun.1 begun.1.line.records begun.2 >>= fun read =>
        conclude p { begun.1 with line := { begun.1.line with records := read.2 } } read.1 := by
  unfold attempt logIn begin
  simp only [bind_assoc, pure_bind]

/-- What a call comes to over an open transport is what it is answered with. -/
theorem value_of_call {answer : Call α} {a : α} {event : Bool → Event} {deadline : Option Moment} {w w' : World σ}
    (hopen : t.isOpen = true) (h : WorldM.call t answer event deadline w = (.ok a, w')) : answer.value = .ok a := by
  have hanswered : t.answered answer = answer := if_pos (by rw [hopen]; rfl)
  unfold WorldM.call at h
  rw [hanswered] at h
  obtain ⟨_, _, -, h⟩ := Op.bind_eq_ok.mp h
  obtain ⟨_, _, -, h⟩ := Op.bind_eq_ok.mp h
  rcases hvalue : answer.value with e | b <;> rw [hvalue] at h <;> cases h
  rfl

/-- What is left of connecting gives a transport over the line that the server has given. -/
theorem value_of_awaitLine {answer : Delayed (Except Error Line)} {n : Nat} {deadline : Option Moment}
    (h : inWorld (awaitLine answer n deadline) run = (.ok t, run')) : answer.value = .ok t.line := by
  obtain ⟨_, _, -, h⟩ := Op.bind_eq_ok.mp (inWorld_eq h).1
  rcases hvalue : answer.value with e | line <;> rw [hvalue] at h <;> cases h
  rfl

/-- The line is what the server gives for the attempt, and what is known before the first record is no more than what
the session starts from. -/
theorem begin_eq_ok {first : Response} (h : begin server p run = (.ok (t, first), start)) :
    t.number = run.world.connects + 1 ∧
      (server.connect run.world.server (run.world.connects + 1) p.target p.timeout).1.value = .ok t.line ∧
      ∃ ack, (t.line.handshake p.handshake).value = .ok ack ∧ first = p.firstResponse run.base ack := by
  obtain ⟨⟨⟩, run₁, hprovided, h⟩ := Op.bind_eq_ok.mp h
  rcases requireProvider_cases p run with hok | ⟨m, -, hmissing⟩
  · cases hok.symm.trans hprovided
    rw [Op.bind_of_ok (enter_apply ..)] at h
    obtain ⟨t', connected, hconnect, h⟩ := Op.bind_eq_ok.mp h
    have hawait : inWorld (awaitLine (server.connect run.world.server (run.world.connects + 1) p.target p.timeout).1
        (run.world.connects + 1) p.deadline) (run.connecting server p) = (.ok t', connected) := hconnect
    have hbase : connected.base = run.base := by rw [(inWorld_eq hconnect).2]
    rw [Op.bind_of_ok (enter_apply ..)] at h
    obtain ⟨ack, asked, hack, h⟩ := Op.bind_eq_ok.mp h
    have hkept : asked.base = connected.base := by rw [(inWorld_eq hack).2]
    obtain ⟨ack', _, hcall, hnoted⟩ := Op.bind_eq_ok.mp (inWorld_eq hack).1
    obtain rfl : ack = ack' := (Except.ok.inj (Prod.mk.inj hnoted).1).symm
    rw [Op.bind_of_ok (Op.get_apply asked), Op.bind_of_ok (enter_apply ..)] at h
    obtain ⟨⟨⟩, sent, -, h⟩ := Op.bind_eq_ok.mp h
    rw [Op.bind_of_ok (enter_apply ..)] at h
    cases h
    obtain ⟨hnumber, hopen⟩ := transport_of_awaitLine hawait
    refine ⟨hnumber, value_of_awaitLine hawait, ack, value_of_call hopen hcall, ?_⟩
    rw [hkept, hbase]
    rfl
  · cases hmissing.symm.trans hprovided

end LoginM

/-- Whatever records a line holds, and whatever session is to be carried over: an attempt that begins to read them, and
is not cut off, ends by the verdict on them, with what is heard of each in its turn. It receives no record after the
one that decides; if it opens a session, the records after that are unread. And records that say nothing have no part
in the verdict. -/
theorem attempt_verdict {server : Server σ} {p : AttemptPlan} {run start run' : LoginRun σ} {t : Transport}
    {first : Response} {res : Except Stop AttemptEnd} (hbegin : LoginM.begin server p run = (.ok (t, first), start))
    (h : LoginM.attempt server p run = (res, run')) (hend : ∀ s, res = .error s → ¬ s.IsOther) :
    (t.number = run.world.connects + 1 ∧
      (server.connect run.world.server (run.world.connects + 1) p.target p.timeout).1.value = .ok t.line ∧
      ∃ ack, (t.line.handshake p.handshake).value = .ok ack ∧ first = p.firstResponse run.base ack) ∧
    ∃ all, all.map Reception.record = t.line.records.map Delayed.value ∧ p.Hears t first start t.line.records all ∧
      (∃ added, run'.world.trace = added ++ start.world.trace ∧
        received added = (p.heard all).map Reception.record) ∧
      res = (p.verdict first t.line.endError all).result p
        { t with line := { t.line with records := t.line.records.drop ((p.passed all).length + 1) } } ∧
      p.verdict first t.line.endError (all.filter fun a => !a.record.isIdle) =
        p.verdict first t.line.endError all := by
  obtain ⟨hnumber, hline, ack, hack, rfl⟩ := LoginM.begin_eq_ok hbegin
  refine ⟨⟨hnumber, hline, ack, hack, rfl⟩, ?_⟩
  rw [LoginM.attempt_eq, Op.bind_of_ok hbegin] at h
  obtain ⟨all, hhears, hreceived, hres⟩ := LoginM.read_verdict h hend
  exact ⟨all, hhears.same, hhears, hreceived, hres, p.verdict_filter _ _ all⟩

/-- Where an attempt is sent on to, if it ends so. -/
def AttemptEnd.next? : AttemptEnd → Option Routing
  | .routed target => some target
  | .opened _ => none

/-- A login is sent on, and is sent on again after a warning; after the final DONE a failure is reported. -/
def detour : List Record :=
  [.routing ⟨0, 1433, "first", none⟩, .error 5701 10 "changed", .routing ⟨0, 1434, "second", none⟩, .done,
    .error 18456 14 "late"]

/-- A login of which the first attempt meets with such records. -/
def detouredRun : LoginRun LoginScript := mirroredLogin.begun { server := { queue := [.respond detour false] } }

/-- The first attempt. -/
def detouredPlan : AttemptPlan := mirroredLogin.planFor ⟨"primary", "primary", none, none, none, none, none, none⟩

/-- It is sent on to the second target: neither the warning counts, nor what is reported after the end. -/
theorem detouredRun_verdict : ∃ t first start all,
    LoginM.begin (LineFaults.server {}) detouredPlan detouredRun = (.ok (t, first), start) ∧
    detouredPlan.Hears t first start t.line.records all ∧
    detouredPlan.verdict first t.line.endError all = .routed ⟨0, 1434, "second", none⟩ := by
  have hrouted : (LoginM.attempt (LineFaults.server {}) detouredPlan detouredRun).1.toOption.bind AttemptEnd.next? =
      some ⟨0, 1434, "second", none⟩ := by decide +kernel
  have hbegins : (LoginM.begin (LineFaults.server {}) detouredPlan detouredRun).1.isOk = true := by decide +kernel
  rcases hbegin : LoginM.begin (LineFaults.server {}) detouredPlan detouredRun with ⟨s | ⟨t, first⟩, start⟩
  · rw [hbegin] at hbegins
    cases hbegins
  rcases hattempt : LoginM.attempt (LineFaults.server {}) detouredPlan detouredRun with ⟨s | e | target, run'⟩ <;>
    rw [hattempt] at hrouted
  · cases hrouted
  · cases hrouted
  obtain rfl := Option.some.inj hrouted
  obtain ⟨-, all, -, hhears, -, hres, -⟩ := attempt_verdict hbegin hattempt nofun
  refine ⟨t, first, start, all, rfl, hhears, ?_⟩
  rcases hverdict : detouredPlan.verdict first t.line.endError all with e | next | r <;> rw [hverdict] at hres <;>
    cases hres
  rfl

end TdsSession
