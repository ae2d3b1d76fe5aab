import Mathlib.Data.List.Chain
import TdsSession.Proofs.Login.Closing
import TdsSession.Proofs.Login.Heard
import TdsSession.Proofs.Login.Partner
import TdsSession.Proofs.Login.Redirects

/-!
# What completes a login

A response ends with a final DONE, which has flags of its own: the server can
say with it that the batch has failed (`DoneStatus.isError`). Whether a session
is opened is decided by what came before: `LoginStart.Admits` says what that
must be, and `opened_iff_admits` that nothing else matters. Each round that is
followed by another connects once (`LoginM.connects_of_before`), so the number
of a transport tells which round it belongs to (`LoginStart.eq_of_connects`).
-/

namespace TdsSession

variable {σ : Type}

/-! ## The numbers of the connections -/

namespace LoginM

variable {x : LoginContext σ} {r r' : RoundStart σ}

theorem connects_of_before (h : r.Before x r') : r'.run.world.connects = r.run.world.connects + 1 := by
  obtain ⟨ended, mid, ha, hc⟩ := before_cases h
  obtain ⟨target, timeout, hconnects⟩ := connects_of_continues ha hc
  rw [← hconnects.connects]
  generalize r.plan = plan, r'.plan = plan', r'.run = run' at hc
  cases hc <;> rfl

/-- Of all ends of an attempt only a session is recorded as one. -/
theorem afterAttempt_eq_opened {c : Config} {target : Target} {after mid : LoginRun σ} {res : Except Stop AttemptEnd}
    {e : Established} (h : afterAttempt c target after res = (.ok (.opened e), mid)) : res = .ok (.opened e) := by
  rcases res with s | e' | next
  · cases s <;> cases h
  · cases h
    rfl
  · unfold afterAttempt at h
    dsimp only at h
    rcases hr : followRedirect c target next after with ⟨s | ended, last⟩ <;> rw [hr] at h <;> cases h
    rcases followRedirect_cases hr with ⟨hend, -⟩ | ⟨hend, -⟩ | ⟨hend, -⟩ | ⟨hend, -⟩ <;> cases hend

/-- The transport of a session is the one that its round has connected. -/
theorem number_of_round {plan : LoginPlan} {run run' : LoginRun σ} {e : Established}
    (h : round x plan run = (.ok (.opened e), run')) : e.transport.number = run.world.connects + 1 := by
  obtain ⟨e₀, onPartner, target, timeout, ha, rfl, hconnects⟩ := round_eq_opened h
  obtain ⟨aliases, res, after, last, hleads, hexchange⟩ := roundAttempt_leads ha hconnects
  cases hleads
  cases hexchange with
  | concluded ack response t mid hack hhandshake hlogin hread hend ht hconclude =>
    obtain ⟨-, -, -, rfl⟩ := conclude_eq_opened hconclude
    exact ht.1

end LoginM

namespace LoginStart

variable {s : LoginStart} {server : Server σ} {attempts : Nat} {w : World σ} {r r' : RoundStart σ}

/-- Each round has more connections behind it than the one before. -/
theorem course_connects (s : LoginStart) (server : Server σ) (attempts : Nat) (w : World σ) :
    (s.course server attempts w).Pairwise fun r r' => r.run.world.connects < r'.run.world.connects := by
  have : IsTrans (RoundStart σ) fun r r' => r.run.world.connects < r'.run.world.connects := ⟨fun _ _ _ => Nat.lt_trans⟩
  refine List.isChain_iff_pairwise.mp (List.isChain_iff_forall_rel_of_append_cons_cons.mpr fun r r' before after h => ?_)
  have hadjacent : [r, r'] <:+: s.course server attempts w := ⟨before, after, by rw [h, List.append_assoc]; rfl⟩
  rw [LoginM.connects_of_before (before_of_adjacent hadjacent)]
  exact Nat.lt_succ_self _

/-- Rounds of a login that connect under the same number are the same. -/
theorem eq_of_connects (hr : r ∈ s.course server attempts w) (hr' : r' ∈ s.course server attempts w)
    (h : r.run.world.connects = r'.run.world.connects) : r = r' := by
  have hnodup : ((s.course server attempts w).map (·.run.world.connects)).Nodup :=
    List.pairwise_map.mpr ((course_connects s server attempts w).imp Nat.ne_of_lt)
  exact List.inj_on_of_nodup_map hnodup hr hr' h

end LoginStart

/-! ## The final DONE -/

/-- The final DONE ends a response, whatever its flags are, and adds nothing to it. -/
theorem Response.advance_of_finalDone? {record : Record} {done : Done} (r : Response)
    (h : record.finalDone? = some done) : r.advance record = .ok r := advance_of_take (take_of_finalDone? h r)

/-! ## What a response must say -/

namespace Response

variable {r : Response} {recovers : Bool}

theorem explains_eq_false : r.explains = false ↔ r.error? = none ∧ r.routing? = none := by
  unfold explains
  rw [Bool.or_eq_false_iff, Option.isSome_eq_false_iff, Option.isSome_eq_false_iff, Option.isNone_iff_eq_none,
    Option.isNone_iff_eq_none]

theorem unfinished?_eq_none :
    r.unfinished? recovers = none ↔
      r.accepted = true ∧ (recovers = true → r.capabilities.sessionRecovery = true) := by
  unfold unfinished?
  rcases r.accepted with _ | _
  · exact ⟨nofun, nofun⟩
  rcases recovers with _ | _
  · exact ⟨fun _ => ⟨rfl, nofun⟩, fun _ => rfl⟩
  rcases r.capabilities.sessionRecovery with _ | _
  · exact ⟨nofun, fun h => nomatch h.2 rfl⟩
  · exact ⟨fun _ => ⟨rfl, fun _ => rfl⟩, fun _ => rfl⟩

end Response

/-- A response that opens a session lacks nothing. -/
theorem LoginM.unfinished?_of_opened {p : AttemptPlan} {t : Transport} {r : Response} {run run' : LoginRun σ}
    {e : Established} (h : conclude p t r run = (.ok (.opened e), run')) :
    r.unfinished? p.recovery.isSome = none := by
  obtain ⟨herror, hrouting, -, -⟩ := conclude_eq_opened h
  rw [conclude_of_not_explains (Response.explains_eq_false.mpr ⟨herror, hrouting⟩)] at h
  rcases hlacks : r.unfinished? p.recovery.isSome with _ | e'
  · rfl
  · rw [hlacks] at h
    cases h

/-- What a response opens a session by, in a round with the given plan. -/
structure LoginStart.Admits (s : LoginStart) (plan : LoginPlan) (r : Response) : Prop where
  /-- No failure has been reported. -/
  error? : r.error? = none
  /-- The login has not been sent on. -/
  routing? : r.routing? = none
  /-- The client is let in. -/
  accepted : r.accepted = true
  /-- A session that is carried over can be. -/
  recovered : s.recovery.isSome = true → r.capabilities.sessionRecovery = true
  /-- A partner names a partner itself. -/
  named : plan.onPartner = true → r.partner?.isSome
  /-- The session can be used with the partner that has been named. -/
  usable : r.partner?.isSome →
    s.config.multiSubnet = false ∧ (s.config.readOnly = true → r.capabilities.readOnlyFailover = true)

namespace LoginStart

variable {s : LoginStart} {server : Server σ} {attempts : Nat} {w : World σ} {r : RoundStart σ} {target : Target}
  {transport : Transport} {response : Response} {run : LoginRun σ}

/-- The session over a transport whose response has been read to its end has been opened by what that says. -/
theorem admits_of_login {e : Established} (hr : r ∈ s.course server attempts w)
    (h : r.Concludes (s.context server) target transport response run) (he : (login server attempts s w).1 = .ok e)
    (hnumber : e.transport.number = transport.number) : s.Admits r.plan response := by
  obtain ⟨r', hr', run', hround, -⟩ := login_eq_ok he
  have hsame : r'.run.world.connects = r.run.world.connects :=
    Nat.succ.inj ((LoginM.number_of_round hround).symm.trans (hnumber.trans h.number))
  obtain rfl := eq_of_connects hr' hr hsame
  obtain ⟨hturn, hnamed⟩ := LoginM.onPartner_of_round hround
  have husable := Established.partnerConflict?_eq_none.mp (partnerConflict?_of_login he)
  obtain ⟨e₀, onPartner, -, -, ha, rfl, -⟩ := LoginM.round_eq_opened hround
  obtain ⟨timeout, res, after, hconclude, hattempt⟩ := h.goesOn
  rw [ha] at hattempt
  obtain rfl := LoginM.afterAttempt_eq_opened hattempt.symm
  obtain ⟨herror, hrouting, -, rfl⟩ := LoginM.conclude_eq_opened hconclude
  have hcomplete : response.unfinished? s.recovery.isSome = none := LoginM.unfinished?_of_opened hconclude
  obtain ⟨haccepted, hrecovered⟩ := Response.unfinished?_eq_none.mp hcomplete
  exact ⟨herror, hrouting, haccepted, hrecovered, fun hpartner => hnamed (hturn.trans hpartner), husable⟩

/-- A response that admits a session opens one over its transport. -/
theorem login_of_admits (hr : r ∈ s.course server attempts w)
    (h : r.Concludes (s.context server) target transport response run) (hadmits : s.Admits r.plan response) :
    ∃ e, (login server attempts s w).1 = .ok e ∧ e.transport.number = transport.number := by
  obtain ⟨e, mid, ha, -, htransport, hpartner, hcapabilities⟩ := h.opened
    (Response.explains_eq_false.mpr ⟨hadmits.error?, hadmits.routing?⟩)
    (Response.unfinished?_eq_none.mpr ⟨hadmits.accepted, hadmits.recovered⟩)
  rcases LoginM.settle_opened_cases (s.context server) r.plan e mid with ⟨hsilent, -⟩ | ⟨-, onPartner, hsettle⟩
  · obtain ⟨hturn, hnone⟩ := Bool.and_eq_true_iff.mp hsilent
    have hsome := hadmits.named hturn
    rw [← hpartner, Option.isSome_iff_ne_none] at hsome
    exact absurd (Option.isNone_iff_eq_none.mp hnone) hsome
  have hround : LoginM.round (s.context server) r.plan r.run = (.ok (.opened { e with onPartner }), mid) := by
    rw [LoginM.round, Op.bind_of_ok ha, hsettle]
  have husable : Established.partnerConflict? { e with onPartner } s.config = none := by
    rw [Established.partnerConflict?_eq_none]
    dsimp only
    rw [hpartner, hcapabilities]
    exact hadmits.usable
  refine ⟨{ e with onPartner }, ?_, congrArg Transport.number htransport⟩
  rw [login_fst, establish_of_opened hr hround, husable]

/-- What admits a session are not the aliases. -/
theorem Admits.of_bare {plan : LoginPlan} (h : s.Admits plan response.bare) : s.Admits plan response :=
  ⟨h.error?, h.routing?, h.accepted, h.recovered, h.named, h.usable⟩

theorem Admits.bare {plan : LoginPlan} (h : s.Admits plan response) : s.Admits plan response.bare :=
  ⟨h.error?, h.routing?, h.accepted, h.recovered, h.named, h.usable⟩

end LoginStart

/-- Once a login has received a response up to its final DONE, a session is opened over that transport exactly if what
came before the DONE admits one. The DONE itself does not matter: the server may have said with it that the batch has
failed. -/
theorem opened_iff_admits {server : Server σ} {attempts : Nat} {s : LoginStart} {w : World σ} {t : Moment} {n : Nat}
    {older : List (Moment × Event)}
    (h : (t, .answered n) :: older <:+ (login server attempts s w).2.world.trace) (hnew : w.trace <:+ older) :
    ∃ r ∈ s.course server attempts w, ∃ record done earlier target ack response,
      r.run.world.connects + 1 = n ∧ older = (t, .received n record) :: earlier ∧ record.finalDone? = some done ∧
      lastTarget? earlier = some target ∧ shown Event.answer? (sinceConnected earlier) = [ack] ∧
      s.responseTo target ack (received (sinceConnected earlier)) = .ok response ∧
      ((∃ e, (login server attempts s w).1 = .ok e ∧ e.transport.number = n) ↔ s.Admits r.plan response) := by
  obtain ⟨r, hr, target, ack, response, transport, run, hconcludes, hn, -, htarget, hack, hresponse⟩ :=
    LoginStart.concludes_of_answered h hnew
  obtain ⟨record, done, earlier, rfl, hdone⟩ : ∃ record done earlier, older = (t, .received n record) :: earlier ∧
      record.finalDone? = some done := by
    obtain ⟨_, _, _, _, _, _, added, _, -, -, hheard, hanswered, rfl⟩ :=
      LoginStart.heard_of_event (by rintro ⟨⟩) (by rintro ⟨⟩) (by rintro ⟨⟩) rfl h hnew
    obtain ⟨record, done, earlier, rfl, hdone⟩ := hheard.of_answered hanswered
    exact ⟨record, done, _, rfl, hdone⟩
  have hsince : sinceConnected ((t, .received n record) :: earlier) = (t, .received n record) :: sinceConnected earlier :=
    List.takeWhile_cons_of_pos rfl
  rw [hsince] at hack hresponse
  refine ⟨r, hr, record, done, earlier, target, ack, response.bare, hn, rfl, hdone, htarget, ?_, ?_, ?_⟩
  · rw [← hack, shown_cons]
    exact (List.append_nil _).symm
  · -- the last record that is received is the DONE
    rw [LoginStart.responseTo, received, shown_cons, Response.advanceAll_append] at hresponse
    obtain ⟨before, hbefore, hlast⟩ := Op.except_bind_eq_ok.mp hresponse
    rw [show Event.record? (.received n record) = some record from rfl, Option.toList_some, Response.advanceAll_cons,
      Response.advance_of_finalDone? before hdone] at hlast
    cases hlast
    exact hbefore
  · rw [← hn, ← hconcludes.number]
    constructor
    · rintro ⟨e, he, hnumber⟩
      exact (LoginStart.admits_of_login hr hconcludes he hnumber).bare
    · exact fun hadmits => LoginStart.login_of_admits hr hconcludes hadmits.of_bare

/-- A server that lets a client in and says with its final DONE, by the given flags, how that went. -/
def flaggedWorld (status : DoneStatus) : World LoginScript where
  server := { queue := [.respond [.loginAck .v7_4, .doneWith status] false], fallback := .success [] }

/-- What the server says with the last DONE does not keep the session from being opened: all else admits it. -/
theorem flaggedWorld_opened :
    (0, Event.answered 1) :: (login (LineFaults.server {}) 2 plainLogin (flaggedWorld ⟨0x0002⟩)).2.world.trace.drop 2 <:+
      (login (LineFaults.server {}) 2 plainLogin (flaggedWorld ⟨0x0002⟩)).2.world.trace ∧
    ∃ r ∈ plainLogin.course (LineFaults.server {}) 2 (flaggedWorld ⟨0x0002⟩), ∃ target response,
      plainLogin.responseTo target ⟨true, false⟩ [.loginAck .v7_4] = .ok response ∧
      plainLogin.Admits r.plan response := by
  have hanswered : (0, Event.answered 1) ::
      (login (LineFaults.server {}) 2 plainLogin (flaggedWorld ⟨0x0002⟩)).2.world.trace.drop 2 <:+
        (login (LineFaults.server {}) 2 plainLogin (flaggedWorld ⟨0x0002⟩)).2.world.trace := by decide +kernel
  obtain ⟨r, hr, record, done, earlier, target, ack, response, -, holder, -, -, hack, hresponse, hiff⟩ :=
    opened_iff_admits hanswered List.nil_suffix
  have hearlier := congrArg List.tail holder
  have hanswer : shown Event.answer? (sinceConnected ((login (LineFaults.server {}) 2 plainLogin
      (flaggedWorld ⟨0x0002⟩)).2.world.trace.drop 2).tail) = [⟨true, false⟩] := by decide +kernel
  have hreceived : received (sinceConnected ((login (LineFaults.server {}) 2 plainLogin
      (flaggedWorld ⟨0x0002⟩)).2.world.trace.drop 2).tail) = [.loginAck .v7_4] := by decide +kernel
  have hopened : ((login (LineFaults.server {}) 2 plainLogin (flaggedWorld ⟨0x0002⟩)).1.toOption.map
      (·.transport.number)) = some 1 := by decide +kernel
  rw [hearlier] at hanswer hreceived
  dsimp only [List.tail_cons] at hanswer hreceived
  rw [hack] at hanswer
  cases hanswer
  rw [hreceived] at hresponse
  refine ⟨hanswered, r, hr, target, response, hresponse, hiff.mp ?_⟩
  rcases he : (login (LineFaults.server {}) 2 plainLogin (flaggedWorld ⟨0x0002⟩)).1 with t | e
  · rw [he] at hopened
    cases hopened
  · rw [he] at hopened
    exact ⟨e, rfl, Option.some.inj hopened⟩

/-- The session is there, whether the server reports that the batch has failed or that it has ended the batch. -/
theorem opened_by_failed_batch :
    ((Record.doneWith ⟨0x0002⟩).finalDone?.map (·.status.isError) = some true ∧
      [(0, Event.answered 1), (0, Event.received 1 (.doneWith ⟨0x0002⟩))] <:+:
        (login (LineFaults.server {}) 2 plainLogin (flaggedWorld ⟨0x0002⟩)).2.world.trace ∧
      (login (LineFaults.server {}) 2 plainLogin (flaggedWorld ⟨0x0002⟩)).1.isOk = true) ∧
    ((Record.doneWith ⟨0x0100⟩).finalDone?.map (·.status.isError) = some true ∧
      [(0, Event.answered 1), (0, Event.received 1 (.doneWith ⟨0x0100⟩))] <:+:
        (login (LineFaults.server {}) 2 plainLogin (flaggedWorld ⟨0x0100⟩)).2.world.trace ∧
      (login (LineFaults.server {}) 2 plainLogin (flaggedWorld ⟨0x0100⟩)).1.isOk = true) := by
  refine ⟨⟨?_, ?_, ?_⟩, ?_, ?_, ?_⟩ <;> decide +kernel

end TdsSession
