import TdsSession.Proofs.Login.Isolation

/-!
# Transports that are given up

To the server a login is complete when its response has ended. If the transport
does not become that of an open session, the server learns it only when the
transport is closed. That happens at once if the response says why there is no
session, and if the options rule out the partner that it names. It does not
happen if something is missing from a response that says nothing
(`LoginStart.leftOpen?`): then the login fails, and the transport stays open.
-/

namespace TdsSession

variable {σ : Type}

/-! ## What a response lacks -/

namespace Response

/-- The response says why it opens no session: there has been a failure, or the login is sent on. -/
def explains (r : Response) : Bool := r.error?.isSome || r.routing?.isSome

/-- What a response that says nothing lacks to open a session, if `recovers` says whether the session is to be one
that is carried over. -/
def unfinished? (r : Response) (recovers : Bool) : Option Error :=
  if !r.accepted then some (.loginIncomplete "server finished without LOGINACK")
  else if recovers && !r.capabilities.sessionRecovery then
    some (.loginIncomplete "server did not acknowledge session recovery")
  else none

theorem eq_of_unfinished? {r : Response} {recovers : Bool} {e : Error} (h : r.unfinished? recovers = some e) :
    ∃ reason, e = .loginIncomplete reason := by
  unfold unfinished? at h
  split at h
  · cases h
    exact ⟨_, rfl⟩
  split at h
  · cases h
    exact ⟨_, rfl⟩
  · cases h

end Response

/-- Why a login fails and leaves open the transport of a response that has been read to its end, if it does:
something is missing, or the partner has named no partner itself. -/
def LoginStart.leftOpen? (s : LoginStart) (plan : LoginPlan) (r : Response) : Option Error :=
  if r.explains then none
  else match r.unfinished? s.recovery.isSome with
    | some e => some e
    | none =>
      if plan.onPartner && r.partner?.isNone then some (.invalidPartnerConfiguration partnerSilentReason) else none

/-! ## How an attempt is concluded -/

/-- The next thing that happens is that connection `n` is closed. -/
def World.ClosesNext (w : World σ) (n : Nat) (w' : World σ) : Prop :=
  ∃ t delivered, w'.trace = (t, .disconnected n delivered) :: w.trace

/-- A transport that is open is closed first of all when it is given up. -/
theorem WorldM.discard_closesNext {t : Transport} {deadline : Option Moment} {res : Except Stop Unit} {w w' : World σ}
    (hopen : t.isOpen = true) (h : discard t deadline w = (res, w')) : w.ClosesNext t.number w' := by
  unfold discard disconnect at h
  rw [Op.tryCatch_apply, if_pos (by rw [hopen, Bool.true_or])] at h
  rcases hcall : call t t.line.disconnect (.disconnected t.number) deadline w with ⟨s | ⟨⟩, after⟩ <;>
    rw [hcall] at h
  · cases s <;> cases h <;> exact ⟨_, _, call_trace hcall⟩
  · cases h
    exact ⟨_, _, call_trace hcall⟩

namespace LoginM

variable {p : AttemptPlan} {t : Transport} {run' mid : LoginRun σ} {r : Response}

/-- Whatever comes after a transport has been given up, it is closed first. -/
theorem closesNext_of_discard {α : Type} {deadline : Option Moment} {r : Except Stop α} {res : Except Stop α}
    (hopen : t.isOpen = true) (h : (inWorld (WorldM.discard t deadline) >>= fun _ run => (r, run)) mid = (res, run')) :
    mid.world.ClosesNext t.number run'.world := by
  rcases Op.bind_cases h with ⟨s, hstop, -⟩ | ⟨⟨⟩, after, hclosed, h⟩
  · exact WorldM.discard_closesNext hopen (inWorld_eq hstop).1
  · cases h
    exact WorldM.discard_closesNext hopen (inWorld_eq hclosed).1

/-- If the response says why it opens no session, the transport is closed. -/
theorem conclude_of_explains {res : Except Stop AttemptEnd} (hr : r.explains = true) (hopen : t.isOpen = true)
    (h : conclude p t r mid = (res, run')) : mid.world.ClosesNext t.number run'.world := by
  unfold conclude at h
  rcases herror : r.error? with _ | e <;> rw [herror] at h
  · rcases hrouting : r.routing? with _ | next <;> rw [hrouting] at h
    · unfold Response.explains at hr
      rw [herror, hrouting] at hr
      cases hr
    · exact closesNext_of_discard hopen h
  · exact closesNext_of_discard hopen h

/-- If it says nothing, the attempt ends with what it lacks, or with a session; nothing happens to the transport. -/
theorem conclude_of_not_explains (hr : r.explains = false) :
    conclude p t r mid = (match r.unfinished? p.recovery.isSome with
      | some e => .error (.failed e)
      | none => .ok (.opened (p.established t r)), mid) := by
  obtain ⟨herror, hrouting⟩ := Bool.or_eq_false_iff.mp hr
  rw [Option.isSome_eq_false_iff, Option.isNone_iff_eq_none] at herror hrouting
  unfold conclude Response.unfinished?
  rw [herror, hrouting]
  dsimp only
  split
  · rfl
  split <;> rfl

/-- A session that the options rule out is closed. -/
theorem refuse_closesNext {e : Established} {conflict : Error} {res : Except Stop Established}
    (hopen : e.transport.isOpen = true) (h : refuse e conflict mid = (res, run')) :
    mid.world.ClosesNext e.transport.number run'.world := by
  unfold refuse at h
  rw [Op.bind_of_ok (enter_apply ..)] at h
  have hclosed : ({ mid with phase := .failedFatal } : LoginRun σ).world.ClosesNext e.transport.number run'.world :=
    closesNext_of_discard hopen h
  exact hclosed

/-- What a round makes of the end of its attempt leaves the world alone. -/
theorem afterAttempt_world (c : Config) (target : Target) (after : LoginRun σ) (res : Except Stop AttemptEnd) :
    (afterAttempt c target after res).2.world = after.world := by
  rcases res with s | e | next
  · cases s <;> rfl
  · rfl
  · unfold afterAttempt
    dsimp only
    rcases hr : followRedirect c target next after with ⟨s | ended, last⟩ <;>
      have hworld := followRedirect_world hr <;> exact hworld

end LoginM

/-! ## The round that reads a response to its end -/

/-- The attempt of the round from `r`, at `target`, has read `response` to its end over the transport `t`, in state
`run`, and is concluded from there. -/
structure RoundStart.Concludes (r : RoundStart σ) (x : LoginContext σ) (target : Target) (t : Transport)
    (response : Response) (run : LoginRun σ) : Prop where
  number : t.number = r.run.world.connects + 1
  isOpen : t.isOpen = true
  goesOn : ∃ timeout res after,
    LoginM.conclude (x.attempt target timeout r.run.world.now) t response run = (res, after) ∧
      LoginM.roundAttempt x r.plan r.run = LoginM.afterAttempt x.config target after res

namespace RoundStart.Concludes

variable {r : RoundStart σ} {x : LoginContext σ} {target : Target} {t : Transport} {response : Response}
  {run : LoginRun σ}

/-- If the response says why it opens no session, the transport is closed. -/
theorem closesNext (h : r.Concludes x target t response run) (hr : response.explains = true) :
    run.world.ClosesNext t.number (LoginM.roundAttempt x r.plan r.run).2.world := by
  obtain ⟨timeout, res, after, hconclude, ha⟩ := h.goesOn
  rw [ha, LoginM.afterAttempt_world]
  exact LoginM.conclude_of_explains hr h.isOpen hconclude

/-- If it says nothing and lacks something, the attempt fails, and that is all. -/
theorem failed {e : Error} (h : r.Concludes x target t response run) (hr : response.explains = false)
    (he : response.unfinished? x.recovery.isSome = some e) :
    ∃ mid, LoginM.roundAttempt x r.plan r.run = (.ok (.failed e), mid) ∧ mid.world = run.world := by
  obtain ⟨timeout, res, after, hconclude, ha⟩ := h.goesOn
  rw [LoginM.conclude_of_not_explains hr, show (x.attempt target timeout r.run.world.now).recovery = x.recovery from rfl,
    he] at hconclude
  cases hconclude
  exact ⟨_, ha, rfl⟩

/-- If it lacks nothing, the attempt opens a session, and that is all. -/
theorem opened (h : r.Concludes x target t response run) (hr : response.explains = false)
    (he : response.unfinished? x.recovery.isSome = none) :
    ∃ e mid, LoginM.roundAttempt x r.plan r.run = (.ok (.opened e), mid) ∧ mid.world = run.world ∧ e.transport = t ∧
      e.partner = response.partner? ∧ e.capabilities = response.capabilities := by
  obtain ⟨timeout, res, after, hconclude, ha⟩ := h.goesOn
  rw [LoginM.conclude_of_not_explains hr, show (x.attempt target timeout r.run.world.now).recovery = x.recovery from rfl,
    he] at hconclude
  cases hconclude
  exact ⟨_, _, ha, rfl, rfl, rfl, rfl⟩

end RoundStart.Concludes

namespace LoginStart

variable {server : Server σ} {attempts : Nat} {s : LoginStart} {w : World σ}

/-- A response that has been read to its end has been read by a round, and its records have come to it. -/
theorem concludes_of_answered {t : Moment} {n : Nat} {older : List (Moment × Event)}
    (h : (t, .answered n) :: older <:+ (login server attempts s w).2.world.trace) (hnew : w.trace <:+ older) :
    ∃ r ∈ s.course server attempts w, ∃ target ack response transport run,
      r.Concludes (s.context server) target transport response run ∧ r.run.world.connects + 1 = n ∧
      run.world.trace = (t, .answered n) :: older ∧ lastTarget? older = some target ∧
      shown Event.answer? (sinceConnected older) = [ack] ∧
      s.responseTo target ack (received (sinceConnected older)) = .ok response.bare := by
  obtain ⟨r, hr, ended, mid, target, timeout, earlier, ha, hconnects, hheard, rfl⟩ :=
    attempt_of_event (by rintro ⟨⟩) (by rintro ⟨⟩) (by rintro ⟨⟩) rfl h hnew
  obtain ⟨aliases, res, after, -, hattempt, htry, -, -, hexchange⟩ := LoginM.roundAttempt_exchange ha hconnects
  have hover : ∀ e ∈ earlier, e.2.isConnected = false := fun e he =>
    (hconnects.over_of_mem_sinceConnected (hheard.subset (List.mem_cons_of_mem _ he))).isConnected
  have hnumber : r.run.world.connects + 1 = n :=
    (hconnects.over_of_mem_sinceConnected (hheard.subset List.mem_cons_self)).elim Eq.symm nofun
  have hworld := (LoginM.tryTarget_kept htry hattempt).1
  cases hexchange with
  | stopped first hread =>
    exact absurd ⟨_, hheard.subset List.mem_cons_self, n, rfl⟩ hread.not_answered_of_error
  | concluded ack response transport run hack hhandshake hlogin hread hend hopen hconclude =>
    obtain ⟨closing, hadded, hclosing, hclosed⟩ := hend.eq_of_answered hheard
    -- neither the end of the response nor what follows it shows anything of what has been received
    have hshown {β : Type} {f : Event → Option β} (hf : ∀ e : Event, e.ofClosing → f e = none)
        (hanswered : f (.answered n) = none) : shown f (sinceConnected mid.world.trace) = shown f earlier := by
      rw [hadded, shown_append, shown_cons, hanswered, shown_eq_nil fun e he => hf e.2 (hclosed e he),
        List.append_nil]
      exact List.append_nil _
    refine ⟨r, hr, target, ack, response, transport, run, ⟨hopen.1, hopen.2, timeout, res, after, hconclude, ?_⟩,
      hnumber, ?_, lastTarget?_append hover, ?_, ?_⟩
    · rw [ha, ← htry]
      exact LoginM.tryTarget_of_attempt hattempt
    · have htrace := hconnects.trace_eq
      rw [hadded, hworld, hclosing, List.append_assoc] at htrace
      exact List.append_cancel_left htrace
    · rw [sinceConnected_append hover, ← hshown (fun e he => he.asksNothing.answer) rfl]
      exact hack
    · have hrecords : received (sinceConnected mid.world.trace) = received earlier :=
        hshown (fun e he => he.readsNothing.record) rfl
      rw [hrecords] at hread
      rw [sinceConnected_append hover, responseTo, ← base_of_mem_course hr]
      have hread := congrArg (Except.map Response.bare) hread
      rw [← Response.bare_advanceAll] at hread
      exact hread

/-- A round that opens a session ends the login with it and leaves the trace alone, or the transport is closed. -/
theorem login_of_opened {r : RoundStart σ} {e : Established} {mid : LoginRun σ} (hr : r ∈ s.course server attempts w)
    (hround : LoginM.round (s.context server) r.plan r.run = (.ok (.opened e), mid))
    (hopen : e.transport.isOpen = true) :
    (login server attempts s w).1 = .ok e ∨
      ∃ t delivered, (t, .disconnected e.transport.number delivered) :: mid.world.trace <:+
        (login server attempts s w).2.world.trace := by
  have hestablish := establish_of_opened hr hround
  rcases hconflict : e.partnerConflict? s.config with _ | conflict <;> rw [hconflict] at hestablish
  · left
    rw [login_fst, hestablish]
  · right
    dsimp only at hestablish
    rcases hrefuse : LoginM.refuse e conflict mid with ⟨res, after⟩
    obtain ⟨t, delivered, hclosed⟩ := LoginM.refuse_closesNext hopen hrefuse
    have hlast := (login_trace server attempts s w).suffix
    rw [hestablish, hrefuse, hclosed] at hlast
    exact ⟨t, delivered, hlast⟩

variable {r : RoundStart σ} {target : Target} {transport : Transport} {response : Response} {run : LoginRun σ}

/-- A round that has read a response to its end closes the transport, or fails for the reason to leave it open, or opens
a session over it. -/
theorem round_cases (h : r.Concludes (s.context server) target transport response run) :
    (s.leftOpen? r.plan response = none ∧
      run.world.ClosesNext transport.number (LoginM.roundAttempt (s.context server) r.plan r.run).2.world) ∨
    (∃ e mid, s.leftOpen? r.plan response = some e ∧
      LoginM.round (s.context server) r.plan r.run = (.error (.failed e), mid) ∧ mid.world = run.world) ∨
    ∃ e mid, s.leftOpen? r.plan response = none ∧
      LoginM.round (s.context server) r.plan r.run = (.ok (.opened e), mid) ∧ mid.world = run.world ∧
      e.transport = transport := by
  unfold leftOpen?
  rcases hexplains : response.explains with _ | _
  · right
    rw [if_neg Bool.false_ne_true]
    rcases hlacks : response.unfinished? s.recovery.isSome with _ | e
    · obtain ⟨e, mid, ha, hworld, htransport, hpartner, -⟩ := h.opened hexplains hlacks
      rw [← hpartner]
      dsimp only
      rcases LoginM.settle_opened_cases (s.context server) r.plan e mid with ⟨hsilent, hsettle⟩ |
        ⟨hnamed, onPartner, hsettle⟩
      · rw [if_pos hsilent]
        exact .inl ⟨_, mid, rfl, by rw [LoginM.round, Op.bind_of_ok ha, hsettle], hworld⟩
      · rw [if_neg (by rw [hnamed]; exact Bool.false_ne_true)]
        exact .inr ⟨{ e with onPartner }, mid, rfl, by rw [LoginM.round, Op.bind_of_ok ha, hsettle], hworld, htransport⟩
    · obtain ⟨mid, ha, hworld⟩ := h.failed hexplains hlacks
      obtain ⟨reason, rfl⟩ := Response.eq_of_unfinished? hlacks
      exact .inl ⟨_, mid, rfl, LoginM.round_of_final ha rfl rfl, hworld⟩
  · exact .inl ⟨if_pos rfl, h.closesNext hexplains⟩

/-- A transport that is left open is that of the last attempt, and nothing happens after that. -/
theorem failed_of_leftOpen {e : Error} (hr : r ∈ s.course server attempts w)
    (h : r.Concludes (s.context server) target transport response run) (he : s.leftOpen? r.plan response = some e) :
    (login server attempts s w).1 = .error (.failed e) ∧
      ∃ t, (login server attempts s w).2.world.trace = (t, .ended (.failed e)) :: run.world.trace := by
  rcases round_cases h with ⟨hnone, -⟩ | ⟨e', mid, hsome, hround, hworld⟩ | ⟨e', mid, hnone, -⟩
  · rw [hnone] at he
    cases he
  · rw [hsome] at he
    cases he
    rw [login_of_failed hr hround]
    exact ⟨rfl, mid.world.now, by rw [← hworld]; rfl⟩
  · rw [hnone] at he
    cases he

/-- A transport that is not left open is that of the session, or it is closed next. -/
theorem kept_or_closed (hr : r ∈ s.course server attempts w)
    (h : r.Concludes (s.context server) target transport response run) (hnone : s.leftOpen? r.plan response = none) :
    (∃ e, (login server attempts s w).1 = .ok e ∧ e.transport.number = transport.number) ∨
      ∃ t delivered, (t, .disconnected transport.number delivered) :: run.world.trace <:+
        (login server attempts s w).2.world.trace := by
  rcases round_cases h with ⟨-, t, delivered, hclosed⟩ | ⟨e, mid, hsome, -⟩ | ⟨e, mid, -, hround, hworld, rfl⟩
  · right
    rcases ha : LoginM.roundAttempt (s.context server) r.plan r.run with ⟨ended, mid⟩
    rw [ha] at hclosed
    refine ⟨t, delivered, ?_⟩
    rw [← hclosed]
    exact (LoginM.attempt_suffix ha).trans (round_suffix_of_mem hr)
  · rw [hsome] at hnone
    cases hnone
  · rw [← hworld]
    exact (login_of_opened hr hround h.isOpen).imp_left fun hok => ⟨e, hok, rfl⟩

end LoginStart

/-- Once a login has read a response to its end, its transport becomes that of the session that is opened or is closed
before anything else happens, unless the response says nothing and lacks something (`LoginStart.leftOpen?`). Then the
login fails for that reason, and the transport is never closed. -/
theorem closed_iff_not_leftOpen {server : Server σ} {attempts : Nat} {s : LoginStart} {w : World σ} {t : Moment}
    {n : Nat} {older : List (Moment × Event)}
    (h : (t, .answered n) :: older <:+ (login server attempts s w).2.world.trace) (hnew : w.trace <:+ older) :
    ∃ r ∈ s.course server attempts w, ∃ target ack response, r.run.world.connects + 1 = n ∧
      lastTarget? older = some target ∧ shown Event.answer? (sinceConnected older) = [ack] ∧
      s.responseTo target ack (received (sinceConnected older)) = .ok response ∧
      ((∃ e, (login server attempts s w).1 = .ok e ∧ e.transport.number = n) ∨
          (∃ t' delivered, (t', .disconnected n delivered) :: (t, .answered n) :: older <:+
            (login server attempts s w).2.world.trace) ↔
        s.leftOpen? r.plan response = none) ∧
      ∀ e, s.leftOpen? r.plan response = some e →
        (login server attempts s w).1 = .error (.failed e) ∧
          ∃ t', (login server attempts s w).2.world.trace = (t', .ended (.failed e)) :: (t, .answered n) :: older := by
  obtain ⟨r, hr, target, ack, response, transport, run, hconcludes, hn, htrace, htarget, hack, hresponse⟩ :=
    LoginStart.concludes_of_answered h hnew
  have hfailed (e : Error) (he : s.leftOpen? r.plan response = some e) := LoginStart.failed_of_leftOpen hr hconcludes he
  rw [htrace] at hfailed
  refine ⟨r, hr, target, ack, response.bare, hn, htarget, hack, hresponse, ⟨fun hend => ?_, fun hnone => ?_⟩, hfailed⟩
  · by_contra hsome
    obtain ⟨e, he⟩ := Option.ne_none_iff_exists'.mp hsome
    obtain ⟨herror, t', hlast⟩ := hfailed e he
    rcases hend with ⟨e', hok, -⟩ | ⟨t'', delivered, hclosed⟩
    · rw [herror] at hok
      cases hok
    · rw [hlast] at hclosed
      cases hclosed.eq_of_length rfl
  · have hdone := LoginStart.kept_or_closed hr hconcludes hnone
    rw [hconcludes.number, hn, htrace] at hdone
    exact hdone

/-- A server that says nothing about the first login but that it is done, and lets everybody in after that. -/
def lackingWorld : World LoginScript where
  server := { queue := [.respond [.done] false], fallback := .success [] }

/-- The login there, and what has happened in it by the end of the response. -/
def lackingLogin : Except Stop Established × LoginRun LoginScript :=
  login (LineFaults.server {}) 2 plainLogin lackingWorld

def beforeLackingEnd : List (Moment × Event) := lackingLogin.2.world.trace.drop 2

/-- The login ends without anything that happens to its transport. -/
theorem lackingWorld_leftOpen : (0, Event.answered 1) :: beforeLackingEnd <:+ lackingLogin.2.world.trace ∧
    ∃ r ∈ plainLogin.course (LineFaults.server {}) 2 lackingWorld, ∃ target response,
      lastTarget? beforeLackingEnd = some target ∧
      plainLogin.responseTo target ⟨true, false⟩ [.done] = .ok response ∧
      plainLogin.leftOpen? r.plan response = some (.loginIncomplete "server finished without LOGINACK") := by
  have hanswered : (0, Event.answered 1) :: beforeLackingEnd <:+ lackingLogin.2.world.trace := by decide +kernel
  have hack : shown Event.answer? (sinceConnected beforeLackingEnd) = [⟨true, false⟩] := by decide +kernel
  have hrecords : received (sinceConnected beforeLackingEnd) = [.done] := by decide +kernel
  have hfailed : lackingLogin.1.isOk = false := by decide +kernel
  have hreason : lackingLogin.2.world.trace.head? =
      some (0, .ended (.failed (.loginIncomplete "server finished without LOGINACK"))) := by decide +kernel
  have hlength : lackingLogin.2.world.trace.length = beforeLackingEnd.length + 2 := by decide +kernel
  obtain ⟨r, hr, target, ack, response, -, htarget, hanswer, hresponse, hiff, hends⟩ :=
    closed_iff_not_leftOpen hanswered List.nil_suffix
  rw [hack] at hanswer
  cases hanswer
  rw [hrecords] at hresponse
  refine ⟨hanswered, r, hr, target, response, htarget, hresponse, ?_⟩
  rw [show login (LineFaults.server {}) 2 plainLogin lackingWorld = lackingLogin from rfl] at hiff hends
  rcases hlogin : lackingLogin with ⟨res, run'⟩
  rw [hlogin] at hfailed hreason hlength hiff hends
  dsimp only at hfailed hreason hlength hiff hends
  rcases hleft : plainLogin.leftOpen? r.plan response with _ | e
  · rcases hiff.mpr hleft with ⟨e, rfl, -⟩ | ⟨t, delivered, hclosed⟩
    · cases hfailed
    · have hwhole := hclosed.eq_of_length (by rw [List.length_cons, List.length_cons, hlength])
      rw [← hwhole] at hreason
      cases hreason
  · obtain ⟨-, t, hlast⟩ := hends e hleft
    rw [hlast] at hreason
    cases hreason
    rfl

/-- A login that carries a session over. -/
def recoveringLogin : LoginStart := { plainLogin with previous := some .new }

/-- Each of the three ways to leave a transport open: the server does not let the client in, does not carry the session
over, or is a partner that names none. -/
theorem left_open_after_response :
    ((0, Event.answered 1) ∈ lackingLogin.2.world.trace ∧ lackingLogin.1.isOk = false ∧
      ∀ delivered, Event.disconnected 1 delivered ∉ lackingLogin.2.world.trace.map Prod.snd) ∧
    ((0, Event.answered 1) ∈ (login (LineFaults.server {}) 2 recoveringLogin openWorld).2.world.trace ∧
      (login (LineFaults.server {}) 2 recoveringLogin openWorld).1.isOk = false ∧
      ∀ delivered, Event.disconnected 1 delivered ∉
        (login (LineFaults.server {}) 2 recoveringLogin openWorld).2.world.trace.map Prod.snd) ∧
    ((0, Event.answered 2) ∈ (login (LineFaults.server {}) 2 mirroredLogin
        { server := { queue := [.refuse], fallback := .success [] } }).2.world.trace ∧
      (login (LineFaults.server {}) 2 mirroredLogin
        { server := { queue := [.refuse], fallback := .success [] } }).1.isOk = false ∧
      ∀ delivered, Event.disconnected 2 delivered ∉ (login (LineFaults.server {}) 2 mirroredLogin
        { server := { queue := [.refuse], fallback := .success [] } }).2.world.trace.map Prod.snd) := by
  refine ⟨⟨?_, ?_, ?_⟩, ⟨?_, ?_, ?_⟩, ?_, ?_, ?_⟩ <;> decide +kernel

end TdsSession
