import TdsSession.Proofs.Login.Records

/-!
# What passes over a connection

An attempt that has connected asks for a handshake, logs in, and reads the
response record by record. `attempt_exchange` says how far it can get, and what
it has heard by then (`Exchange`): what it comes to depends on the answer to the
handshake and on the records that have been received, and on nothing that was
received before it connected.
-/

namespace TdsSession

open Relation (ReflTransGen)
open Op (Keeps)

variable {σ α : Type}

/-! ## What events show -/

namespace Event

def record? : Event → Option Record
  | .received _ record => some record
  | _ => none

def answer? : Event → Option HandshakeAnswer
  | .acknowledged _ answer => some answer
  | _ => none

def handshake? : Event → Option HandshakeRequest
  | .handshake _ request _ => some request
  | _ => none

def login? : Event → Option LoginRequest
  | .login _ request _ => some request
  | _ => none

/-- The failover partner that a server names. -/
def partner? (e : Event) : Option String := e.record?.bind Record.partner?

/-- The target that a server sends the login on to. -/
def routing? (e : Event) : Option Routing := e.record?.bind Record.routing?

/-- The event of getting a token and showing it. -/
def ofToken : Event → Prop
  | .asked _ | .slept _ | .tokenObtained _ | .token .. => True
  | _ => False

/-- The event of reading a response, with the token that it asks for. -/
def ofReading : Event → Prop
  | .received .. | .answered _ => True
  | e => e.ofToken

/-- The event of asking for a handshake and logging in. -/
def ofOpening : Event → Prop
  | .handshake .. | .acknowledged .. | .login .. => True
  | _ => False

/-- The event of closing a transport. -/
def ofClosing : Event → Prop
  | .disconnected .. => True
  | _ => False

/-- No record is received, and no response ends. -/
structure ReadsNothing (e : Event) : Prop where
  record : e.record? = none
  ends : ∀ n, e ≠ .answered n

/-- Neither is anything requested nor is a request answered. -/
structure AsksNothing (e : Event) : Prop where
  answer : e.answer? = none
  handshake : e.handshake? = none
  login : e.login? = none

variable {e : Event}

theorem ofAcquisition.ofToken (h : e.ofAcquisition) : e.ofToken := by
  cases e <;> first | exact h | exact h.elim

theorem ofToken.ofReading (h : e.ofToken) : e.ofReading := by
  cases e <;> first | exact h | exact h.elim

theorem ofToken.readsNothing (h : e.ofToken) : e.ReadsNothing := by
  cases e <;> first | exact False.elim h | exact ⟨rfl, nofun⟩

theorem ofReading.asksNothing (h : e.ofReading) : e.AsksNothing := by
  cases e <;> first | exact False.elim h | exact ⟨rfl, rfl, rfl⟩

theorem ofOpening.readsNothing (h : e.ofOpening) : e.ReadsNothing := by
  cases e <;> first | exact False.elim h | exact ⟨rfl, nofun⟩

theorem ofClosing.readsNothing (h : e.ofClosing) : e.ReadsNothing := by
  cases e <;> first | exact False.elim h | exact ⟨rfl, nofun⟩

theorem ofClosing.asksNothing (h : e.ofClosing) : e.AsksNothing := by
  cases e <;> first | exact False.elim h | exact ⟨rfl, rfl, rfl⟩

end Event

/-- What events of which the newest is the first show, oldest first. -/
def shown (f : Event → Option α) (events : List (Moment × Event)) : List α :=
  events.reverse.filterMap fun e => f e.2

/-- The records that have been received, oldest first. -/
abbrev received (events : List (Moment × Event)) : List Record := shown Event.record? events

/-- The partner that a server has named last. -/
def namedPartner? (events : List (Moment × Event)) : Option String := events.findSome? fun e => e.2.partner?

/-- The target that a server has sent the login on to last. -/
def sentTo? (events : List (Moment × Event)) : Option Routing := events.findSome? fun e => e.2.routing?

theorem mem_shown {f : Event → Option α} {a : α} {events : List (Moment × Event)} :
    a ∈ shown f events ↔ ∃ t e, (t, e) ∈ events ∧ f e = some a := by
  unfold shown
  rw [List.mem_filterMap]
  constructor
  · rintro ⟨⟨t, e⟩, he, ha⟩
    exact ⟨t, e, List.mem_reverse.mp he, ha⟩
  · rintro ⟨t, e, he, ha⟩
    exact ⟨(t, e), List.mem_reverse.mpr he, ha⟩

theorem shown_append (f : Event → Option α) (later earlier : List (Moment × Event)) :
    shown f (later ++ earlier) = shown f earlier ++ shown f later := by
  unfold shown
  rw [List.reverse_append, List.filterMap_append]

theorem received_append (later earlier : List (Moment × Event)) :
    received (later ++ earlier) = received earlier ++ received later := shown_append _ later earlier

theorem shown_cons (f : Event → Option α) (e : Moment × Event) (earlier : List (Moment × Event)) :
    shown f (e :: earlier) = shown f earlier ++ (f e.2).toList := by
  unfold shown
  rw [List.reverse_cons, List.filterMap_append, List.filterMap_cons]
  cases f e.2 <;> rfl

theorem shown_eq_nil {f : Event → Option α} {events : List (Moment × Event)} (h : ∀ e ∈ events, f e.2 = none) :
    shown f events = [] := by
  unfold shown
  rw [List.filterMap_eq_nil_iff]
  exact fun e he => h e (List.mem_reverse.mp he)

theorem namedPartner?_append (later earlier : List (Moment × Event)) :
    namedPartner? (later ++ earlier) = (namedPartner? later).or (namedPartner? earlier) :=
  List.findSome?_append

theorem namedPartner?_singleton (e : Moment × Event) : namedPartner? [e] = e.2.partner? := List.findSome?_singleton

section

variable {events : List (Moment × Event)} (h : ∀ e ∈ events, e.2.ReadsNothing)

include h

theorem received_eq_nil : received events = [] := shown_eq_nil fun e he => (h e he).record

theorem namedPartner?_eq_none : namedPartner? events = none := by
  refine List.findSome?_eq_none_iff.mpr fun e he => ?_
  unfold Event.partner?
  rw [(h e he).record]
  rfl

theorem not_answered_of_readsNothing : ¬ Answered events := not_answered fun e he => (h e he).ends

end

/-! ## Waiting, and getting a token -/

/-- A trace that may not grow is as it was. -/
theorem Grows.eq_of_false {old new : List (Moment × Event)} (h : Grows (fun _ => False) old new) : new = old := by
  obtain ⟨added, htrace, hadded⟩ := h
  cases added with
  | nil => exact htrace
  | cons e added => exact (hadded e List.mem_cons_self).elim

/-- What an operation over a connection leaves alone; it adds only what `P` allows. -/
structure Notes (P : Event → Prop) (run run' : LoginRun σ) : Prop where
  base : run'.base = run.base
  partner : run'.partner = run.partner
  trace : TraceGrows P run run'

namespace Notes

variable {P : Event → Prop} {run run' : LoginRun σ}

instance : IsPreorder (LoginRun σ) (Notes P) where
  refl _ := ⟨rfl, rfl, .refl _⟩
  trans _ _ _ h₁ h₂ := ⟨h₂.base.trans h₁.base, h₂.partner.trans h₁.partner, h₁.trace.trans h₂.trace⟩

theorem inWorld {deadline : Option Moment} {m : WorldM σ α}
    (h : Keeps (ReflTransGen (WorldStep P deadline)) m) : Keeps (Notes P) (LoginM.inWorld m) :=
  Keeps.inWorld h fun _ _ hw => ⟨rfl, rfl, WorldStep.grows hw⟩

theorem trace_eq (h : Notes (fun _ => False) run run') : run'.world.trace = run.world.trace :=
  Grows.eq_of_false h.trace

end Notes

namespace LoginM

variable {p : AttemptPlan} {run run' : LoginRun σ}

theorem fetchToken_notes (p : AttemptPlan) (method : AuthMethod) (info : FedAuthInfo) :
    Keeps (Notes Event.ofToken) (fetchToken p method info : LoginM σ BearerToken) := by
  refine (Keeps.askBudget _).bind fun until? => ?_
  intro run
  rw [Op.bind_of_ok (Op.get_apply run)]
  simp only []
  rw [Op.bind_of_ok (Op.set_apply ..)]
  let looked : LoginRun σ := { run with
    group := { run.group with cache := (run.group.cache.lookUp ⟨info.stsUrl, info.spn⟩ run.world.wallTime).1 } }
  have hlooked : Notes Event.ofToken run looked := ⟨rfl, rfl, .refl _⟩
  refine trans_of (Notes Event.ofToken) hlooked ?_
  rcases (run.group.cache.lookUp ⟨info.stsUrl, info.spn⟩ run.world.wallTime).2 with token | claim
  · exact refl_of (Notes Event.ofToken) looked
  simp only []
  rcases acquire_snd p method
      (TokenRequest.withCredentials { authority := info.stsUrl, resource := info.spn } p.config.credentials)
      until? ⟨info.stsUrl, info.spn⟩ claim looked with hsame | ⟨events, t, providers, cache, hsnd, he, -⟩
  · rw [hsame]
    exact refl_of (Notes Event.ofToken) looked
  · rw [hsnd]
    exact ⟨rfl, rfl, events, rfl, fun e h => (he e h).ofToken⟩

theorem showToken_notes (p : AttemptPlan) (t : Transport) (info : FedAuthInfo) :
    Keeps (Notes Event.ofToken) (showToken p t info : LoginM σ Unit) := by
  unfold showToken
  split
  · exact Keeps.fail _
  · refine (fetchToken_notes p _ info).bind fun token => ?_
    refine Keeps.bind (fun run => ⟨rfl, rfl, .cons trivial _⟩) fun _ => ?_
    exact Notes.inWorld (WorldM.call_keeps fun _ => trivial)

theorem wait_notes {P : Event → Prop} (delay : Option Span) (deadline : Option Moment) :
    Keeps (Notes P) (inWorld (WorldM.wait delay deadline) : LoginM σ Unit) :=
  Notes.inWorld (WorldM.wait_keeps delay)

end LoginM

/-! ## Reading a response -/

/-- What comes of reading a response over connection `n`, from what has been gathered in `r` so far on, with
the events that reading adds. -/
inductive Reading (n : Nat) (r : Response) :
    List (Moment × Event) → Except Stop (Response × List (Delayed Record)) → Prop
  /-- The reading breaks off before the end of the response. -/
  | brokenOff {added : List (Moment × Event)} {r' : Response} (s : Stop)
      (hread : r.advanceAll (received added) = .ok r') (hopen : ¬ Answered added) : Reading n r added (.error s)
  /-- The last record is refused. -/
  | refused {earlier : List (Moment × Event)} {record : Record} {r' : Response} {e : ProtocolError} (t : Moment)
      (hread : r.advanceAll (received earlier) = .ok r') (hopen : ¬ Answered earlier)
      (hrefused : r'.take record = .error e) :
      Reading n r ((t, .received n record) :: earlier) (.error (.failed (.protocol e)))
  /-- The response has been read to its end. -/
  | complete {earlier : List (Moment × Event)} {r' : Response} (t : Moment) (rest : List (Delayed Record))
      (hread : r.advanceAll (received earlier) = .ok r') (hopen : ¬ Answered earlier) :
      Reading n r ((t, .answered n) :: earlier) (.ok (r', rest))

namespace Reading

variable {n : Nat} {r r' : Response} {later earlier : List (Moment × Event)}
  {res : Except Stop (Response × List (Delayed Record))}

/-- Reading goes on from what earlier records have come to. -/
theorem after (hread : r.advanceAll (received earlier) = .ok r') (hopen : ¬ Answered earlier)
    (h : Reading n r' later res) : Reading n r (later ++ earlier) res := by
  have both {events : List (Moment × Event)} {r'' : Response} (h : r'.advanceAll (received events) = .ok r'') :
      r.advanceAll (received (events ++ earlier)) = .ok r'' := by
    rw [received_append, Response.advanceAll_append, hread]
    exact h
  have still {events : List (Moment × Event)} (h : ¬ Answered events) : ¬ Answered (events ++ earlier) :=
    fun hans => (answered_append.mp hans).elim h hopen
  cases h with
  | brokenOff s hread hopen => exact .brokenOff s (both hread) (still hopen)
  | refused t hread hopen hrefused => exact .refused t (both hread) (still hopen) hrefused
  | complete t rest hread hopen => exact .complete t rest (both hread) (still hopen)

/-- The end of a response is noted last. -/
theorem of_ok {rest : List (Delayed Record)} (h : Reading n r later (.ok (r', rest))) :
    ∃ t earlier, later = (t, .answered n) :: earlier ∧ ¬ Answered earlier ∧ r.advanceAll (received later) = .ok r' := by
  cases h with
  | @complete earlier _ t rest hread hopen =>
    have hsame : received ((t, .answered n) :: earlier) = received earlier :=
      (shown_cons _ _ _).trans (List.append_nil _)
    exact ⟨t, earlier, rfl, hopen, hsame ▸ hread⟩

/-- A response that is broken off has not been read to its end. -/
theorem not_answered_of_error {s : Stop} (h : Reading n r later (.error s)) : ¬ Answered later := by
  cases h with
  | brokenOff s hread hopen => exact hopen
  | refused t hread hopen hrefused =>
    rintro ⟨e, he, k, hk⟩
    rcases List.mem_cons.mp he with rfl | he
    · cases hk
    · exact hopen ⟨e, he, k, hk⟩

end Reading

namespace LoginM

variable {p : AttemptPlan} {t : Transport} {run run' : LoginRun σ}

/-- What becomes of a record: it does not come, or it is noted, and then it is refused, or read past, or the last, or a
token is shown after it. -/
theorem readResponse_cons {record : Delayed Record} {rest : List (Delayed Record)} {r : Response}
    {res : Except Stop (Response × List (Delayed Record))}
    (h : readResponse p t (record :: rest) r run = (res, run')) :
    (Notes (fun _ => False) run run' ∧ ∃ s, res = .error s) ∨
    ∃ noted : LoginRun σ, noted.world.trace = (noted.world.now, .received t.number record.value) :: run.world.trace ∧
      noted.partner = run.partner ∧
      match r.take record.value with
      | .error e => res = .error (.failed (.protocol e)) ∧ run' = noted
      | .ok (.more r') =>
        readResponse p t rest r' { noted with partner := r'.partner?.or noted.partner } = (res, run')
      | .ok (.complete r') =>
        res = .ok (r', rest) ∧ run' = { noted with world := noted.world.record (.answered t.number) }
      | .ok (.wantsToken info) =>
        (∃ s, showToken p t info noted = (.error s, run') ∧ res = .error s) ∨
          ∃ mid, showToken p t info noted = (.ok (), mid) ∧ readResponse p t rest r mid = (res, run') := by
  rw [readResponse] at h
  rcases Op.bind_cases h with ⟨s, hwait, rfl⟩ | ⟨⟨⟩, waited, hwait, h⟩ <;>
    have hsame : Notes (fun _ => False) run _ := (wait_notes record.delay p.deadline).of_eq hwait
  · exact .inl ⟨hsame, s, rfl⟩
  right
  obtain ⟨noted, hnote, htrace, hnoted⟩ : ∃ noted,
      inWorld (WorldM.note (.received t.number record.value)) waited = (.ok (), noted) ∧
        noted.world.trace = (noted.world.now, .received t.number record.value) :: run.world.trace ∧
          noted.partner = run.partner :=
    ⟨_, rfl, congrArg (_ :: ·) hsame.trace_eq, hsame.partner⟩
  refine ⟨noted, htrace, hnoted, ?_⟩
  rw [Op.bind_of_ok hnote] at h
  rcases htake : r.take record.value with e | r' | r' | info <;> rw [htake] at h
  · cases h
    exact ⟨rfl, rfl⟩
  · exact h
  · cases h
    exact ⟨rfl, rfl⟩
  · rcases Op.bind_cases h with ⟨s, hs, rfl⟩ | ⟨⟨⟩, mid, hs, h⟩
    · exact .inl ⟨s, hs, rfl⟩
    · exact .inr ⟨mid, hs, h⟩

/-- A record is noted and taken. Reading goes on after it, or is over. -/
theorem readResponse_cons_cases {record : Delayed Record} {rest : List (Delayed Record)} {r : Response}
    {res : Except Stop (Response × List (Delayed Record))}
    (h : readResponse p t (record :: rest) r run = (res, run'))
    (hpartner : r.partner?.or run.partner = run.partner) :
    ∃ added mid, mid.world.trace = added ++ run.world.trace ∧
      mid.partner = (namedPartner? added).or run.partner ∧ (∀ e ∈ added, e.2.ofReading) ∧
      (mid = run' ∧ Reading t.number r added res ∨
        ∃ r', readResponse p t rest r' mid = (res, run') ∧ ¬ Answered added ∧
          r.advanceAll (received added) = .ok r' ∧ r'.partner?.or mid.partner = mid.partner) := by
  rcases readResponse_cons h with ⟨hsame, s, rfl⟩ | ⟨noted, htrace, hnoted, h⟩
  · exact ⟨[], run', hsame.trace_eq, hsame.partner, List.forall_mem_nil _,
      .inl ⟨rfl, .brokenOff s rfl (not_answered (List.forall_mem_nil _))⟩⟩
  let first : Moment × Event := (noted.world.now, .received t.number record.value)
  have hopen : ¬ Answered [first] := not_answered (List.forall_mem_singleton.mpr fun n hn => nomatch hn)
  have hfirst : ∀ e ∈ [first], e.2.ofReading := List.forall_mem_singleton.mpr trivial
  have hnamed : namedPartner? [first] = record.value.partner? := namedPartner?_singleton first
  rcases htake : r.take record.value with e | step <;> rw [htake] at h
  · obtain ⟨rfl, rfl⟩ := h
    have hnone : record.value.partner? = none := Response.partner?_eq_none (r := r) fun r' hr' => by
      rw [htake] at hr'
      cases hr'
    refine ⟨[first], run', htrace, ?_, hfirst,
      .inl ⟨rfl, .refused _ rfl (not_answered (List.forall_mem_nil _)) htake⟩⟩
    rw [hnamed, hnone]
    exact hnoted
  have hread : r.advanceAll (received [first]) = .ok (step.response r) := by
    rw [show received [first] = [record.value] from rfl, Response.advanceAll_cons, Response.advance_of_take htake]
    rfl
  -- only a record that is read past may name a partner
  have hnone (hstep : ∀ r', step ≠ .more r') : record.value.partner? = none :=
    Response.partner?_eq_none (r := r) fun r' hr' => by
      rw [htake] at hr'
      cases hr'
      exact hstep r' rfl
  cases step with
  | more r' =>
    have hlast : r'.partner? = record.value.partner?.or r.partner? := (Response.named_of_take htake).1
    refine ⟨[first], { noted with partner := r'.partner?.or noted.partner }, htrace, ?_, hfirst,
      .inr ⟨r', h, hopen, hread, ?_⟩⟩
    · show r'.partner?.or noted.partner = _
      rw [hnamed, hnoted, hlast, Option.or_assoc, hpartner]
    · show r'.partner?.or (r'.partner?.or noted.partner) = r'.partner?.or noted.partner
      rw [← Option.or_assoc, Option.or_self]
  | complete r' =>
    obtain ⟨rfl, rfl⟩ := h
    let last : Moment × Event := (noted.world.now, .answered t.number)
    refine ⟨[last] ++ [first], _, congrArg (last :: ·) htrace, ?_, ?_,
      .inl ⟨rfl, .complete _ rest hread hopen⟩⟩
    · rw [namedPartner?_append, hnamed, hnone fun r' => nofun]
      exact hnoted
    · exact List.forall_mem_append.mpr ⟨List.forall_mem_singleton.mpr trivial, hfirst⟩
  | wantsToken info =>
    have quiet {mid : LoginRun σ} (hshow : Notes Event.ofToken noted mid) : ∃ added,
        mid.world.trace = added ++ run.world.trace ∧ mid.partner = run.partner ∧ namedPartner? added = none ∧
          (∀ e ∈ added, e.2.ofReading) ∧ ¬ Answered added ∧ r.advanceAll (received added) = .ok r := by
      obtain ⟨-, hkept, added, hadded, htoken⟩ := hshow
      have hquiet : ∀ e ∈ added, e.2.ReadsNothing := fun e he => (htoken e he).readsNothing
      refine ⟨added ++ [first], ?_, hkept.trans hnoted, ?_, ?_, ?_, ?_⟩
      · rw [hadded, htrace, List.append_assoc]
        rfl
      · rw [namedPartner?_append, namedPartner?_eq_none hquiet, hnamed, hnone fun r' => nofun]
        rfl
      · exact List.forall_mem_append.mpr ⟨fun e he => (htoken e he).ofReading, hfirst⟩
      · exact fun hans => (answered_append.mp hans).elim (not_answered_of_readsNothing hquiet) hopen
      · rw [received_append, received_eq_nil hquiet, List.append_nil]
        exact hread
    rcases h with ⟨s, hs, rfl⟩ | ⟨mid, hs, h⟩ <;>
      obtain ⟨added, hadded, hkept, hnone, hevents, hnot, hsame⟩ := quiet ((showToken_notes p t info).of_eq hs)
    · exact ⟨added, run', hadded, by rw [hkept, hnone, Option.none_or], hevents,
        .inl ⟨rfl, .brokenOff s hsame hnot⟩⟩
    · refine ⟨added, mid, hadded, by rw [hkept, hnone, Option.none_or], hevents, .inr ⟨r, h, hnot, hsame, ?_⟩⟩
      rw [hkept]
      exact hpartner

/-- Without records nothing is noted, and reading comes to nothing. -/
theorem readResponse_nil {r : Response} {res : Except Stop (Response × List (Delayed Record))}
    (h : readResponse p t [] r run = (res, run')) : Notes (fun _ => False) run run' ∧ ∃ s, res = .error s := by
  have hkeeps : Keeps (Notes fun _ => False) (readResponse p t [] r : LoginM σ _) :=
    (wait_notes _ _).bind fun _ => (Keeps.ofExcept _).bind fun _ => Keeps.fail _
  refine ⟨hkeeps.of_eq h, ?_⟩
  rw [readResponse] at h
  rcases Op.bind_cases h with ⟨s, -, hs⟩ | ⟨_, mid, -, h⟩
  · exact ⟨s, hs⟩
  rcases Op.bind_cases h with ⟨s, -, hs⟩ | ⟨_, mid, -, h⟩
  · exact ⟨s, hs⟩
  · cases h
    exact ⟨_, rfl⟩

/-- What a response comes to depends on the records that have been received, one after the other; and the
partner that they name last is remembered. -/
theorem readResponse_reading {records : List (Delayed Record)} {r : Response}
    {res : Except Stop (Response × List (Delayed Record))} (h : readResponse p t records r run = (res, run'))
    (hpartner : r.partner?.or run.partner = run.partner) :
    ∃ added, run'.world.trace = added ++ run.world.trace ∧ run'.partner = (namedPartner? added).or run.partner ∧
      (∀ e ∈ added, e.2.ofReading) ∧ Reading t.number r added res := by
  -- the response so far is arbitrary, but for the partner it has named: that has been noted
  induction records generalizing r run with
  | nil =>
    obtain ⟨hsame, s, rfl⟩ := readResponse_nil h
    exact ⟨[], hsame.trace_eq, hsame.partner, List.forall_mem_nil _,
      .brokenOff s rfl (not_answered (List.forall_mem_nil _))⟩
  | cons record rest ih =>
    obtain ⟨first, mid, hfirst, hnamed, hevents, ⟨rfl, hreading⟩ | ⟨r', h, hopen, hread, hpartner'⟩⟩ :=
      readResponse_cons_cases h hpartner
    · exact ⟨first, hfirst, hnamed, hevents, hreading⟩
    · obtain ⟨added, hadded, hlast, hlater, hreading⟩ := ih h hpartner'
      refine ⟨added ++ first, ?_, ?_, List.forall_mem_append.mpr ⟨hlater, hevents⟩, hreading.after hread hopen⟩
      · rw [hadded, hfirst, List.append_assoc]
      · rw [hlast, hnamed, namedPartner?_append, Option.or_assoc]

end LoginM

/-! ## The whole attempt -/

/-- What has been gathered before the first record of a response. -/
def AttemptPlan.firstResponse (p : AttemptPlan) (base : SessionState) (ack : HandshakeAnswer) : Response :=
  { capabilities := .empty p.config.loginFeatures, session := base.setEncrypted ack.encryption }

/-- The session that a response opens over a transport. -/
def AttemptPlan.established (p : AttemptPlan) (t : Transport) (r : Response) : Established where
  transport := t
  target := p.target
  capabilities := r.capabilities
  state := r.session
  packetSize := r.packetSize?.getD p.config.packetSize
  partner := r.partner?
  userInstance := r.userInstance?
  events := r.events

/-- The events of a handshake over connection `n` that has been answered, and of the login by `p` that follows. -/
def AttemptPlan.opening (p : AttemptPlan) (n : Nat) (t t' t'' : Moment) (asked sent : Bool) (ack : HandshakeAnswer) :
    List (Moment × Event) :=
  [(t'', .login n p.login sent), (t', .acknowledged n ack), (t, .handshake n p.handshake asked)]

/-- What an attempt by `p` has added, as to what it asks for over connection `n`: nothing, a handshake, or a handshake
and, as soon as that has been answered, a login. Nothing is asked for after that. -/
inductive Requests (p : AttemptPlan) (n : Nat) : List (Moment × Event) → Prop
  | nothing : Requests p n []
  | handshake (t : Moment) (asked : Bool) : Requests p n [(t, .handshake n p.handshake asked)]
  | login (t t' t'' : Moment) (asked sent : Bool) (ack : HandshakeAnswer) (later : List (Moment × Event))
      (hlater : ∀ e ∈ later, e.2.AsksNothing) : Requests p n (later ++ p.opening n t t' t'' asked sent ack)

namespace Requests

variable {p : AttemptPlan} {n : Nat} {added later : List (Moment × Event)}

/-- What has asked for a login asks for nothing more. -/
theorem append (h : Requests p n added) (hlogin : shown Event.login? added = [p.login])
    (hlater : ∀ e ∈ later, e.2.AsksNothing) : Requests p n (later ++ added) := by
  cases h with
  | nothing => cases hlogin
  | handshake t asked => cases hlogin
  | login t t' t'' asked sent ack later' hlater' =>
    rw [← List.append_assoc]
    exact .login t t' t'' asked sent ack (later ++ later') (List.forall_mem_append.mpr ⟨hlater, hlater'⟩)

/-- Where an event stands among the requests: it is one of them or the answer to the first, or it comes after all. -/
theorem event_cases {e : Moment × Event} {older : List (Moment × Event)} (h : Requests p n added)
    (he : e :: older <:+ added) :
    (∃ t asked, e = (t, .handshake n p.handshake asked) ∧ older = []) ∨
    ∃ t t' t'' asked sent ack,
      (e :: older = (p.opening n t t' t'' asked sent ack).tail ∧ p.opening n t t' t'' asked sent ack <:+ added) ∨
      e :: older = p.opening n t t' t'' asked sent ack ∨
      e.2.AsksNothing ∧ p.opening n t t' t'' asked sent ack <:+ older := by
  cases h with
  | nothing => cases List.suffix_nil.mp he
  | handshake t asked =>
    rcases List.suffix_cons_iff.mp he with heq | hnil
    · cases heq
      exact .inl ⟨t, asked, rfl, rfl⟩
    · cases List.suffix_nil.mp hnil
  | login t t' t'' asked sent ack later hlater =>
    have hgrows : Grows Event.AsksNothing (p.opening n t t' t'' asked sent ack)
        (later ++ p.opening n t t' t'' asked sent ack) := ⟨later, rfl, hlater⟩
    rcases hgrows.cons_suffix_cases he with ⟨hnothing, hafter⟩ | hopening
    · exact .inr ⟨t, t', t'', asked, sent, ack, .inr (.inr ⟨hnothing, hafter⟩)⟩
    rcases List.suffix_cons_iff.mp hopening with heq | htail
    · exact .inr ⟨t, t', t'', asked, sent, ack, .inr (.inl heq)⟩
    rcases List.suffix_cons_iff.mp htail with heq | hlast
    · exact .inr ⟨t, t', t'', asked, sent, ack, .inl ⟨heq, List.suffix_append _ _⟩⟩
    rcases List.suffix_cons_iff.mp hlast with heq | hnil
    · cases heq
      exact .inl ⟨t, asked, rfl, rfl⟩
    · cases List.suffix_nil.mp hnil

/-- A login is that of the plan, and it follows the answer to the handshake at once. -/
theorem of_login {t : Moment} {k : Nat} {q : LoginRequest} {sent : Bool} {older : List (Moment × Event)}
    (h : Requests p n added) (he : (t, .login k q sent) :: older <:+ added) :
    k = n ∧ q = p.login ∧ ∃ t' ack earlier, older = (t', .acknowledged n ack) :: earlier := by
  rcases h.event_cases he with ⟨t, asked, heq, -⟩ | ⟨t, t', t'', asked, sent, ack, ⟨heq, -⟩ | heq | ⟨hnothing, -⟩⟩
  · cases heq
  · cases heq
  · cases heq
    exact ⟨rfl, rfl, t', ack, _, rfl⟩
  · cases hnothing.login

end Requests

/-- Among the events that an attempt over connection `n` adds, the end of its response is the last before `mid`, and
all that follows is that a transport is closed. -/
def EndsReading (n : Nat) (mid : LoginRun σ) (added : List (Moment × Event)) (run' : LoginRun σ) : Prop :=
  ∃ closing t earlier, added = closing ++ (t, .answered n) :: earlier ∧ ¬ Answered earlier ∧
    run'.world.trace = closing ++ mid.world.trace ∧ ∀ e ∈ closing, e.2.ofClosing

namespace EndsReading

variable {n : Nat} {mid run' : LoginRun σ} {added : List (Moment × Event)}

theorem answered (h : EndsReading n mid added run') : Answered added := by
  obtain ⟨closing, t, earlier, rfl, -⟩ := h
  exact ⟨_, List.mem_append_right _ List.mem_cons_self, n, rfl⟩

/-- A response ends once. -/
theorem eq_of_answered {t : Moment} {k : Nat} {older : List (Moment × Event)} (h : EndsReading n mid added run')
    (ht : (t, .answered k) :: older <:+ added) :
    ∃ closing, added = closing ++ (t, .answered k) :: older ∧ run'.world.trace = closing ++ mid.world.trace ∧
      ∀ e ∈ closing, e.2.ofClosing := by
  obtain ⟨closing, t', earlier, rfl, hfirst, htrace, hclosing⟩ := h
  have hgrows : Grows Event.ofClosing ((t', .answered n) :: earlier) (closing ++ (t', .answered n) :: earlier) :=
    ⟨closing, rfl, hclosing⟩
  rcases hgrows.cons_suffix_cases ht with ⟨hno, -⟩ | hlast
  · exact hno.elim
  rcases List.suffix_cons_iff.mp hlast with heq | hearlier
  · rw [heq]
    exact ⟨closing, rfl, htrace, hclosing⟩
  · exact absurd ⟨_, hearlier.subset List.mem_cons_self, k, rfl⟩ hfirst

end EndsReading

/-- What an attempt by `p` over connection `n`, which starts from the session state `base`, has come to with
the events that it adds. -/
inductive Exchange (p : AttemptPlan) (n : Nat) (base : SessionState) (added : List (Moment × Event)) :
    Except Stop AttemptEnd → LoginRun σ → Prop
  /-- The attempt stops before the end of its response, or before its beginning. -/
  | stopped {s : Stop} {run' : LoginRun σ} (first : Response) (hread : Reading n first added (.error s)) :
      Exchange p n base added (.error s) run'
  /-- The response has been read to its end, and ends the attempt. -/
  | concluded {res : Except Stop AttemptEnd} {run' : LoginRun σ} (ack : HandshakeAnswer) (r : Response)
      (t : Transport) (mid : LoginRun σ) (hack : shown Event.answer? added = [ack])
      (hhandshake : shown Event.handshake? added = [p.handshake]) (hlogin : shown Event.login? added = [p.login])
      (hread : (p.firstResponse base ack).advanceAll (received added) = .ok r)
      (hend : EndsReading n mid added run') (ht : t.number = n ∧ t.isOpen = true)
      (hconclude : LoginM.conclude p t r mid = (res, run')) :
      Exchange p n base added res run'

namespace WorldM

variable {t : Transport} {deadline : Option Moment} {w w' : World σ}

/-- A call is noted, whatever comes of it. -/
theorem call_trace {answer : Call α} {event : Bool → Event} {res : Except Stop α}
    (h : call t answer event deadline w = (res, w')) :
    w'.trace = (w.now, event (t.answered answer).delivered) :: w.trace := by
  have hrest : Keeps (ReflTransGen (WorldStep (fun _ => False) deadline))
      (wait (t.answered answer).delay deadline >>= fun _ => ofExcept (t.answered answer).value : WorldM σ α) :=
    (wait_keeps _).bind fun _ => ofExcept_keeps _
  exact (WorldStep.grows (hrest.of_eq h)).eq_of_false

/-- A handshake is noted, and its answer if there is one. -/
theorem handshake_trace {request : HandshakeRequest} {res : Except Stop HandshakeAnswer}
    (h : handshake t request deadline w = (res, w')) :
    ∃ delivered, match res with
      | .error _ => w'.trace = (w.now, .handshake t.number request delivered) :: w.trace
      | .ok ack => w'.trace =
          [(w'.now, .acknowledged t.number ack), (w.now, .handshake t.number request delivered)] ++ w.trace := by
  refine ⟨(t.answered (t.line.handshake request)).delivered, ?_⟩
  rcases Op.bind_cases h with ⟨s, hcall, rfl⟩ | ⟨ack, mid, hcall, h⟩
  · exact call_trace hcall
  · cases h
    exact congrArg ((mid.now, .acknowledged t.number ack) :: ·) (call_trace hcall)

end WorldM

namespace LoginM

variable {p : AttemptPlan} {t : Transport} {run run' : LoginRun σ}

theorem inWorld_eq {m : WorldM σ α} {res : Except Stop α} (h : inWorld m run = (res, run')) :
    m run.world = (res, run'.world) ∧ run' = { run with world := run'.world } := by
  rw [inWorld_apply, Prod.mk.injEq] at h
  obtain ⟨hres, rfl⟩ := h
  exact ⟨Prod.ext hres rfl, rfl⟩

/-- A response that has been read to its end is concluded; all that follows is that a transport is closed. -/
theorem conclude_notes (p : AttemptPlan) (t : Transport) (r : Response) :
    Keeps (Notes Event.ofClosing) (conclude p t r : LoginM σ AttemptEnd) := by
  have discarded : Keeps (Notes Event.ofClosing) (inWorld (WorldM.discard t p.deadline) : LoginM σ Unit) :=
    Notes.inWorld (WorldM.discard_notes fun _ => trivial)
  unfold conclude
  dsimp only
  split
  · exact discarded.bind fun _ => Keeps.fail _
  split
  · exact discarded.bind fun _ => Keeps.pure _
  split
  · exact Keeps.fail _
  split
  · exact Keeps.fail _
  · exact Keeps.pure _

/-- A response that opens a session is free of failures, sends the login nowhere, and lets the client in. -/
theorem conclude_eq_opened {r : Response} {e : Established} (h : conclude p t r run = (.ok (.opened e), run')) :
    r.error? = none ∧ r.routing? = none ∧ r.accepted = true ∧ e = p.established t r := by
  unfold conclude at h
  rcases herror : r.error? with _ | err <;> rw [herror] at h
  · rcases hrouting : r.routing? with _ | next <;> rw [hrouting] at h
    · simp only [] at h
      split at h
      · cases h
      rename_i haccepted
      split at h
      · cases h
      cases h
      exact ⟨rfl, rfl, by simpa using haccepted, rfl⟩
    · obtain ⟨_, _, -, h⟩ := Op.bind_eq_ok.mp h
      cases h
  · obtain ⟨_, _, -, h⟩ := Op.bind_eq_ok.mp h
    cases h

/-- A response that sends the login on is free of failures, and names where. -/
theorem conclude_eq_routed {r : Response} {next : Routing} (h : conclude p t r run = (.ok (.routed next), run')) :
    r.error? = none ∧ r.routing? = some next := by
  unfold conclude at h
  rcases herror : r.error? with _ | err <;> rw [herror] at h
  · rcases hrouting : r.routing? with _ | target <;> rw [hrouting] at h
    · simp only [] at h
      split at h
      · cases h
      split at h <;> cases h
    · obtain ⟨_, _, -, h⟩ := Op.bind_eq_ok.mp h
      cases h
      exact ⟨rfl, rfl⟩
  · obtain ⟨_, _, -, h⟩ := Op.bind_eq_ok.mp h
    cases h

/-- Before it reads a response, an attempt has asked for a handshake and has logged in, or has stopped. -/
theorem logIn_cases {res : Except Stop AttemptEnd} (h : logIn p t run = (res, run')) :
    ∃ opening mid, mid.world.trace = opening ++ run.world.trace ∧ mid.partner = run.partner ∧
      Requests p t.number opening ∧ (∀ e ∈ opening, e.2.ofOpening) ∧
      ((mid = run' ∧ ∃ s, res = .error s) ∨
        ∃ ack, shown Event.answer? opening = [ack] ∧ shown Event.handshake? opening = [p.handshake] ∧
          shown Event.login? opening = [p.login] ∧
          (do
            let read ← readResponse p t t.line.records (p.firstResponse run.base ack)
            conclude p { t with line := { t.line with records := read.2 } } read.1) mid = (res, run')) := by
  unfold logIn at h
  rw [Op.bind_of_ok (enter_apply ..)] at h
  rcases Op.bind_cases h with ⟨s, hs, rfl⟩ | ⟨ack, mid, hack, h⟩
  · obtain ⟨hworld, hrun⟩ := inWorld_eq hs
    obtain ⟨delivered, htrace⟩ := WorldM.handshake_trace hworld
    exact ⟨[_], run', htrace, by rw [hrun], .handshake _ _, List.forall_mem_singleton.mpr trivial, .inl ⟨rfl, s, rfl⟩⟩
  obtain ⟨hworld, hmid⟩ := inWorld_eq hack
  obtain ⟨delivered, hasked⟩ := WorldM.handshake_trace hworld
  have hbase : mid.base = run.base := by rw [hmid]
  have hpartner : mid.partner = run.partner := by rw [hmid]
  rw [Op.bind_of_ok (Op.get_apply mid), Op.bind_of_ok (enter_apply ..)] at h
  let opening (got : Bool) : List (Moment × Event) :=
    p.opening t.number run.world.now mid.world.now mid.world.now delivered got ack
  have hevents (got : Bool) : ∀ e ∈ opening got, e.2.ofOpening :=
    List.forall_mem_cons.mpr ⟨trivial, List.forall_mem_cons.mpr ⟨trivial, List.forall_mem_singleton.mpr trivial⟩⟩
  have hrequests (got : Bool) : Requests p t.number (opening got) :=
    .login _ _ _ delivered got ack [] (List.forall_mem_nil _)
  have logged {sendRes : Except Stop Unit} {sent : LoginRun σ}
      (hsend : inWorld (WorldM.sendLogin t p.login p.deadline) { mid with phase := .loggingIn } = (sendRes, sent)) :
      ∃ got, sent.world.trace = opening got ++ run.world.trace ∧ sent.partner = run.partner := by
    obtain ⟨hworld, hsent⟩ := inWorld_eq hsend
    refine ⟨(t.answered (t.line.login p.login)).delivered, ?_, by rw [hsent]; exact hpartner⟩
    have hsent : sent.world.trace = _ := WorldM.call_trace hworld
    rw [hsent]
    exact congrArg (_ :: ·) hasked
  rcases Op.bind_cases h with ⟨s, hs, rfl⟩ | ⟨⟨⟩, sent, hs, h⟩ <;> obtain ⟨got, htrace, hnamed⟩ := logged hs
  · exact ⟨opening got, run', htrace, hnamed, hrequests got, hevents got, .inl ⟨rfl, s, rfl⟩⟩
  · rw [Op.bind_of_ok (enter_apply ..)] at h
    refine ⟨opening got, { sent with phase := .awaitingFeatureAcks }, htrace, hnamed, hrequests got, hevents got,
      .inr ⟨ack, rfl, rfl, rfl, ?_⟩⟩
    rw [← hbase]
    exact h

/-- What has been received decides what comes of logging in over a connection. -/
theorem logIn_exchange {res : Except Stop AttemptEnd} (hisOpen : t.isOpen = true) (h : logIn p t run = (res, run')) :
    ∃ added, run'.world.trace = added ++ run.world.trace ∧ run'.partner = (namedPartner? added).or run.partner ∧
      Requests p t.number added ∧ Exchange p t.number run.base added res run' := by
  obtain ⟨opening, mid, hopening, hmid, hrequests, hevents, hcases⟩ := logIn_cases h
  have hquiet : ∀ e ∈ opening, e.2.ReadsNothing := fun e he => (hevents e he).readsNothing
  have hopen := not_answered_of_readsNothing hquiet
  have hnothing (r : Response) : r.advanceAll (received opening) = .ok r := by
    rw [received_eq_nil hquiet]
    rfl
  rcases hcases with ⟨rfl, s, rfl⟩ | ⟨ack, hack, hhandshake, hlogin, h⟩
  · refine ⟨opening, hopening, ?_, hrequests,
      .stopped _ (.brokenOff s (hnothing (p.firstResponse run.base ⟨false, false⟩)) hopen)⟩
    rw [hmid, namedPartner?_eq_none hquiet, Option.none_or]
  have reads {read : Except Stop (Response × List (Delayed Record))} {after : LoginRun σ}
      (hread : readResponse p t t.line.records (p.firstResponse run.base ack) mid = (read, after)) :
      ∃ reading, after.world.trace = (reading ++ opening) ++ run.world.trace ∧
        after.partner = (namedPartner? (reading ++ opening)).or run.partner ∧ (∀ e ∈ reading, e.2.AsksNothing) ∧
        Reading t.number (p.firstResponse run.base ack) (reading ++ opening) read := by
    obtain ⟨reading, htrace, hlast, hevents, hreading⟩ := readResponse_reading hread Option.none_or
    refine ⟨reading, ?_, ?_, fun e he => (hevents e he).asksNothing, hreading.after (hnothing _) hopen⟩
    · rw [htrace, hopening, List.append_assoc]
    · rw [hlast, hmid, namedPartner?_append, namedPartner?_eq_none hquiet, Option.or_none]
  rcases Op.bind_cases h with ⟨s, hs, rfl⟩ | ⟨⟨r, rest⟩, after, hs, h⟩ <;>
    obtain ⟨reading, htrace, hlast, hread, hreading⟩ := reads hs
  · exact ⟨reading ++ opening, htrace, hlast, hrequests.append hlogin hread, .stopped _ hreading⟩
  obtain ⟨ended, earlier, hadded, hfirst, hrecords⟩ := hreading.of_ok
  let t' : Transport := { t with line := { t.line with records := rest } }
  obtain ⟨-, hkept, closing, hclosing, hclosed⟩ := (conclude_notes p t' r).of_eq h
  have hno : ∀ e ∈ closing, e.2.ReadsNothing := fun e he => (hclosed e he).readsNothing
  have hafter : ∀ e ∈ closing ++ reading, e.2.AsksNothing :=
    List.forall_mem_append.mpr ⟨fun e he => (hclosed e he).asksNothing, hread⟩
  have hshown {β : Type} {f : Event → Option β} (hf : ∀ e : Event, e.AsksNothing → f e = none) :
      shown f (closing ++ reading ++ opening) = shown f opening := by
    rw [shown_append, shown_eq_nil fun e he => hf e.2 (hafter e he), List.append_nil]
  refine ⟨closing ++ reading ++ opening, ?_, ?_, ?_,
    .concluded ack r t' after ((hshown fun e => (·.answer)).trans hack)
      ((hshown fun e => (·.handshake)).trans hhandshake) ((hshown fun e => (·.login)).trans hlogin) ?_
      ⟨closing, ended, earlier, ?_, hfirst, hclosing, hclosed⟩ ⟨rfl, hisOpen⟩ h⟩
  · rw [hclosing, htrace, List.append_assoc, List.append_assoc, List.append_assoc]
  · rw [hkept, hlast, List.append_assoc, namedPartner?_append closing, namedPartner?_eq_none hno, Option.none_or]
  · exact hrequests.append hlogin hafter
  · rw [List.append_assoc, received_append, received_eq_nil hno, List.append_nil]
    exact hrecords
  · rw [List.append_assoc, hadded]

/-- What has been received decides what an attempt comes to, and which partner is remembered after it. -/
theorem attempt_exchange {server : Server σ} {res : Except Stop AttemptEnd}
    (h : attempt server p run = (res, run')) :
    (run' = run ∧ ∃ m : AuthMethod, res = .error (.failed (.authentication (.unsupportedMethod m.toText)))) ∨
    ∃ added, run'.world.trace = added ++ (run.connecting server p).world.trace ∧
      run'.partner = (namedPartner? added).or run.partner ∧ Requests p (run.world.connects + 1) added ∧
      Exchange p (run.world.connects + 1) run.base added res run' := by
  rcases attempt_apply server p run with ⟨m, hmissing⟩ | ⟨answer, happly⟩
  · rw [hmissing] at h
    cases h
    exact .inl ⟨rfl, m, rfl⟩
  right
  rw [happly] at h
  rcases Op.bind_cases h with ⟨s, hs, rfl⟩ | ⟨t, mid, ht, h⟩
  · have hsame : Notes (fun _ => False) _ _ := (Notes.inWorld (awaitLine_keeps answer _ p.deadline)).of_eq hs
    exact ⟨[], hsame.trace_eq, hsame.partner, .nothing,
      .stopped (p.firstResponse run.base ⟨false, false⟩) (.brokenOff s rfl (not_answered (List.forall_mem_nil _)))⟩
  · have hsame : Notes (fun _ => False) _ _ := (Notes.inWorld (awaitLine_keeps answer _ p.deadline)).of_eq ht
    obtain ⟨hnumber, hisOpen⟩ := transport_of_awaitLine ht
    obtain ⟨added, htrace, hlast, hrequests, hexchange⟩ := logIn_exchange hisOpen h
    rw [hnumber] at hrequests
    rw [hnumber, hsame.base] at hexchange
    rw [hsame.trace_eq] at htrace
    rw [hsame.partner] at hlast
    exact ⟨added, htrace, hlast, hrequests, hexchange⟩

end LoginM

/-- The failure that was reported first is that of the first record that reports one. -/
theorem firstFailure?_eq (events : List (Moment × Event)) :
    firstFailure? events = (received events).findSome? Record.failure? := by
  have hfailure : (fun e : Moment × Event => e.2.failure?) = fun e => e.2.record?.bind Record.failure? := by
    funext e
    cases e.2 <;> rfl
  unfold firstFailure? received shown
  rw [← List.head?_filterMap, ← List.head?_filterMap, List.filterMap_filterMap, hfailure]

/-- The target that the login was sent on to last is that of the last record that names one. -/
theorem sentTo?_eq (events : List (Moment × Event)) :
    sentTo? events = (received events).reverse.findSome? Record.routing? := by
  unfold sentTo? received shown
  rw [List.filterMap_reverse, List.reverse_reverse, ← List.head?_filterMap, ← List.head?_filterMap,
    List.filterMap_filterMap]
  rfl

namespace Exchange

variable {p : AttemptPlan} {n : Nat} {base : SessionState} {added : List (Moment × Event)} {run' : LoginRun σ}

/-- An attempt that has read its response to the end is concluded from the first failure, and from the target
that the login was sent on to last. -/
theorem of_answered {res : Except Stop AttemptEnd} (h : Exchange p n base added res run')
    (hans : Answered added) :
    ∃ r t mid, t.number = n ∧ r.error? = firstFailure? added ∧ r.routing? = sentTo? added ∧
      LoginM.conclude p t r mid = (res, run') := by
  cases h with
  | stopped first hread => exact absurd hans hread.not_answered_of_error
  | concluded ack r t mid hack hhandshake hlogin hread hend ht hconclude =>
    refine ⟨r, t, mid, ht.1, ?_, ?_, hconclude⟩
    · rw [Response.error?_of_advanceAll hread, firstFailure?_eq]
      exact Option.none_or
    · rw [Response.routing?_of_advanceAll hread, sentTo?_eq]
      exact Option.or_none

/-- What an attempt has received decides which session it opens. -/
theorem of_opened {e : Established} (h : Exchange p n base added (.ok (.opened e)) run') :
    ∃ ack r t, shown Event.answer? added = [ack] ∧ shown Event.handshake? added = [p.handshake] ∧
      shown Event.login? added = [p.login] ∧ (p.firstResponse base ack).advanceAll (received added) = .ok r ∧
      e = p.established t r := by
  cases h with
  | concluded ack r t mid hack hhandshake hlogin hread hend ht hconclude =>
    exact ⟨ack, r, t, hack, hhandshake, hlogin, hread, (LoginM.conclude_eq_opened hconclude).2.2.2⟩

/-- A login is sent on to the last target that a record names, and it can be connected to. -/
theorem of_routed {next : Routing} (h : Exchange p n base added (.ok (.routed next)) run') :
    Answered added ∧ sentTo? added = some next ∧ next.validate = .ok () := by
  cases h with
  | concluded ack r t mid hack hhandshake hlogin hread hend ht hconclude =>
    have hlast := Response.routing?_of_advanceAll hread
    rw [(LoginM.conclude_eq_routed hconclude).2, show (p.firstResponse base ack).routing? = none from rfl,
      Option.or_none] at hlast
    obtain ⟨record, hrecord, hnext⟩ := List.exists_of_findSome?_eq_some hlast.symm
    refine ⟨hend.answered, (sentTo?_eq added).trans hlast.symm, ?_⟩
    exact Response.validate_of_advanceAll hread (List.mem_reverse.mp hrecord) hnext

/-- A record that sends the login on to a target that cannot be connected to ends the attempt. -/
theorem of_invalid {res : Except Stop AttemptEnd} {t : Moment} {k : Nat} {record : Record} {next : Routing}
    {e : ProtocolError} (h : Exchange p n base added res run') (hrecord : (t, .received k record) ∈ added)
    (hnext : record.routing? = some next) (hinvalid : next.validate = .error e) :
    res = .error (.failed (.protocol e)) := by
  have mem {events : List (Moment × Event)} (h : (t, .received k record) ∈ events) : record ∈ received events :=
    mem_shown.mpr ⟨t, _, h, rfl⟩
  have impossible {first r : Response} {events : List (Moment × Event)}
      (hread : first.advanceAll (received events) = .ok r) (h : (t, .received k record) ∈ events) : False := by
    have hvalid := Response.validate_of_advanceAll hread (mem h) hnext
    rw [hinvalid] at hvalid
    cases hvalid
  cases h with
  | stopped first hread =>
    cases hread with
    | brokenOff s hread hopen => exact (impossible hread hrecord).elim
    | refused t' hread hopen hrefused =>
      rcases List.mem_cons.mp hrecord with heq | hearlier
      · cases heq
        rw [Response.take_of_routing hnext, hinvalid] at hrefused
        cases hrefused
        rfl
      · exact (impossible hread hearlier).elim
  | concluded ack r t' mid hack hhandshake hlogin hread hend ht hconclude =>
    exact (impossible hread hrecord).elim

end Exchange

end TdsSession
