import TdsSession.Proofs.Login.Continuation
import TdsSession.Proofs.Login.Exchange
import TdsSession.Script.Server

/-!
# Logins that the server rejects

A server may say more than once in a response why it does not let a client in.
The attempt ends with the first error that is more than a warning, whatever the
errors after it say, and an attempt that is cut off while its transport is being
closed ends as any other that takes too long (`endsWith_firstFailure`). So a
rejection is final if it comes first and the transport is closed in time; behind
an error that may pass, or before a slow close, it counts for nothing.
`rejected_at_once` says when a login goes on after a response that rejects the
client, and that it ends with that response otherwise.
-/

namespace TdsSession

variable {σ : Type}

/-- The last thing that has happened is that connection `n` is being closed. -/
def World.IsClosing (w : World σ) (n : Nat) : Prop :=
  ∃ t delivered older, w.trace = (t, .disconnected n delivered) :: older

namespace WorldM

variable {w w' : World σ} {deadline : Option Moment}

/-- A wait is over, or cut off: by the deadline if that has come, and else by the caller. -/
theorem wait_cases {delay : Option Span} {res : Except Stop Unit} (h : wait delay deadline w = (res, w')) :
    w'.trace = w.trace ∧
      (res = .ok () ∨ (res = .error .cut ∧ ∃ d ∈ deadline, d ≤ w'.now) ∨ res = .error .abandoned) := by
  unfold wait at h
  rw [Op.bind_of_ok (Op.get_apply w)] at h
  rcases hw : waitFrom w.now delay (earlier deadline w.patience) with t | t | _ <;> rw [hw] at h <;> cases h
  · exact ⟨rfl, .inl rfl⟩
  · refine ⟨rfl, .inr ?_⟩
    unfold cutReason
    by_cases hcut : deadline.any (· ≤ t)
    · obtain ⟨d, hd, hle⟩ := Option.any_eq_true _ _ |>.mp hcut
      rw [if_pos hcut]
      exact .inl ⟨rfl, d, hd, of_decide_eq_true hle⟩
    · rw [if_neg hcut]
      exact .inr rfl
  · exact ⟨rfl, .inr (.inr rfl)⟩

/-- A transport is given up, unless the attempt is cut off while it is being closed. -/
theorem discard_cases {t : Transport} {res : Except Stop Unit} (h : discard t deadline w = (res, w')) :
    res = .ok () ∨ (res = .error .cut ∧ (∃ d ∈ deadline, d ≤ w'.now) ∧ w'.IsClosing t.number) ∨
      res = .error .abandoned := by
  unfold discard disconnect at h
  rw [Op.tryCatch_apply] at h
  by_cases hopen : (t.isOpen || !t.line.disconnect.delivered) = true
  · rw [if_pos hopen] at h
    let answer := t.answered t.line.disconnect
    let noted := w.record (.disconnected t.number answer.delivered)
    have hcall : call t t.line.disconnect (.disconnected t.number) deadline w =
        (wait answer.delay deadline >>= fun _ => ofExcept answer.value) noted := rfl
    rw [hcall, Op.bind_apply] at h
    rcases hwait : wait answer.delay deadline noted with ⟨r, waited⟩
    rw [hwait] at h
    obtain ⟨htrace, rfl | ⟨rfl, hd⟩ | rfl⟩ := wait_cases hwait
    · left
      rcases hvalue : answer.value with e | ⟨⟩ <;> rw [hvalue] at h <;> cases h <;> rfl
    · cases h
      exact .inr (.inl ⟨rfl, hd, w.now, answer.delivered, w.trace, htrace⟩)
    · cases h
      exact .inr (.inr rfl)
  · rw [if_neg hopen] at h
    cases h
    exact .inl rfl

end WorldM

namespace LoginM

variable {x : LoginContext σ} {plan : LoginPlan} {run run' mid : LoginRun σ} {target : Target}
  {timeout : Option Span} {e : Error}

/-- What comes after a transport has been given up comes to pass, unless the attempt is cut off meanwhile. -/
theorem after_discard {α : Type} {t : Transport} {deadline : Option Moment} {r : Except Stop α} {res : Except Stop α}
    (h : (inWorld (WorldM.discard t deadline) >>= fun _ run => (r, run)) mid = (res, run')) :
    res = r ∨ (res = .error .cut ∧ (∃ d ∈ deadline, d ≤ run'.world.now) ∧ run'.world.IsClosing t.number) ∨
      res = .error .abandoned := by
  rcases Op.bind_cases h with ⟨s, hstop, rfl⟩ | ⟨⟨⟩, after, hclosed, h⟩
  · rcases WorldM.discard_cases (inWorld_eq hstop).1 with hok | ⟨hcut, hwhen⟩ | habandoned
    · cases hok
    · cases hcut
      exact .inr (.inl ⟨rfl, hwhen⟩)
    · cases habandoned
      exact .inr (.inr rfl)
  · cases h
    exact .inl rfl

/-- With an error in the response, the attempt ends with that error once its transport is closed. -/
theorem conclude_of_error {p : AttemptPlan} {t : Transport} {r : Response} {res : Except Stop AttemptEnd}
    (he : r.error? = some e) (h : conclude p t r mid = (res, run')) :
    res = .error (.failed e) ∨
      (res = .error .cut ∧ (∃ d ∈ p.deadline, d ≤ run'.world.now) ∧ run'.world.IsClosing t.number) ∨
      res = .error .abandoned := by
  unfold conclude at h
  rw [he] at h
  exact after_discard h

/-- How an attempt over connection `n` that has read a response with the first failure `e` to its end comes
to its own: with that failure, cut off while the transport is being closed, or given up by the caller. -/
def EndsWith (e : Error) (target : Target) (timeout : Option Span) (run mid : LoginRun σ)
    (ended : Except Stop RoundEnd) : Prop :=
  ended = .ok (.failed e) ∨
  (ended = .ok (.failed (.connectTimeout target.toText)) ∧
    (∃ span, timeout = some span ∧ run.world.now + span ≤ mid.world.now) ∧
    mid.world.IsClosing (run.world.connects + 1)) ∨
  ended = .error .abandoned

/-- The first failure in a response decides how the attempt ends, whatever comes after it. -/
theorem endsWith_firstFailure {ended : Except Stop RoundEnd} (ha : roundAttempt x plan run = (ended, mid))
    (hc : Connects run mid target timeout) (hans : Answered (sinceConnected mid.world.trace))
    (hfirst : firstFailure? (sinceConnected mid.world.trace) = some e) :
    EndsWith e target timeout run mid ended := by
  obtain ⟨aliases, res, after, -, hattempt, htry, -, -, hexchange⟩ := roundAttempt_exchange ha hc
  obtain ⟨r, t, closing, hnumber, hr, -, hconclude⟩ := hexchange.of_answered hans
  have hworld := (tryTarget_kept htry hattempt).1
  rw [tryTarget_of_attempt hattempt] at htry
  unfold EndsWith
  rw [hworld]
  obtain rfl | ⟨rfl, ⟨d, hd, hle⟩, hclosing⟩ | rfl := conclude_of_error (hr.trans hfirst) hconclude
  · cases htry
    exact .inl rfl
  · obtain ⟨span, hspan, rfl⟩ := Option.map_eq_some_iff.mp hd
    rw [hnumber] at hclosing
    cases htry
    exact .inr (.inl ⟨rfl, ⟨span, hspan, hle⟩, hclosing⟩)
  · cases htry
    exact .inr (.inr rfl)

/-- A failure that neither renews the budget nor may pass ends the login, with one host and with two. -/
theorem round_of_final (ha : roundAttempt x plan run = (.ok (.failed e), mid)) (htimeout : e.isTimeout = false)
    (htransient : e.isTransient = false) : round x plan run = (.error (.failed e), mid) := by
  unfold round
  rw [Op.bind_of_ok ha, settle_failed_apply, if_neg fun h => Bool.false_ne_true (htimeout.symm.trans h.2), htransient]
  rfl

end LoginM

/-- The error that an attempt has ended with, if it has ended with one. -/
def RoundEnd.error? : RoundEnd → Option Error
  | .failed e => some e
  | _ => none

/-- A failure about who the client is neither renews the budget nor may it pass. -/
theorem Error.final_of_authFailure {m : ServerMessage} (hm : m.number ∈ authFailureNumbers) :
    (ofMessage m).isTimeout = false ∧ (ofMessage m).isTransient = false := by
  have hkind : (ofMessage m).kind = .authenticationFailure := if_pos hm
  constructor
  · show (m.number == serverTimeoutNumber) = false
    refine beq_eq_false_iff_ne.mpr fun h => ?_
    rw [h] at hm
    revert hm
    decide
  · rw [isTransient, hkind]
    rfl

/-- No round follows a failure that neither renews the budget nor may pass. -/
theorem Continues.not_final {x : LoginContext σ} {mid run' : LoginRun σ} {plan plan' : LoginPlan} {e : Error}
    (h : Continues x mid plan (.failed e) plan' run') : ¬ (e.isTimeout = false ∧ e.isTransient = false) := by
  rintro ⟨htimeout, htransient⟩
  cases h with
  | renewed _ _ he => exact nomatch htimeout.symm.trans he.2
  | slept _ _ _ ht => exact nomatch htransient.symm.trans ht
  | switched _ _ _ ht => exact nomatch htransient.symm.trans ht
  | alternated _ _ _ ht => exact nomatch htransient.symm.trans ht
  | sleptAlternated _ _ _ ht => exact nomatch htransient.symm.trans ht

namespace LoginStart

variable {server : Server σ} {attempts : Nat} {s : LoginStart} {w : World σ} {r : RoundStart σ} {e : Error}

/-- A failure that neither renews the budget nor may pass is that of the login. -/
theorem login_of_final {mid : LoginRun σ} (h : r ∈ s.course server attempts w)
    (ha : LoginM.roundAttempt (s.context server) r.plan r.run = (.ok (.failed e), mid))
    (htimeout : e.isTimeout = false) (htransient : e.isTransient = false) :
    (login server attempts s w).1 = .error (.failed e) ∧
      (login server attempts s w).2.world.connects = mid.world.connects := by
  rw [login_of_failed h (LoginM.round_of_final ha htimeout htransient)]
  exact ⟨rfl, rfl⟩

end LoginStart

/-- Among the errors that events report, one is about who the client is. -/
def Rejected (events : List (Moment × Event)) : Prop :=
  ∃ e ∈ events, ∃ m : ServerMessage, e.2.failure? = some (.ofMessage m) ∧ m.number ∈ Error.authFailureNumbers

/-- Where a client is rejected, there is a first error. -/
theorem Rejected.exists_first {events : List (Moment × Event)} (h : Rejected events) :
    ∃ first : ServerMessage, firstFailure? events = some (.ofMessage first) := by
  obtain ⟨e, he, m, hm, -⟩ := h
  rcases hfirst : firstFailure? events with _ | e
  · have hnone := List.findSome?_eq_none_iff.mp hfirst e (List.mem_reverse.mpr he)
    rw [hm] at hnone
    cases hnone
  · obtain ⟨event, -, hevent⟩ := List.exists_of_findSome?_eq_some hfirst
    obtain ⟨first, rfl⟩ := Event.failure?_eq_ofMessage hevent
    exact ⟨first, rfl⟩

/-- Let a response that has been read to its end reject the client, somewhere among its errors. The attempt ends with
the first of these errors, unless it is cut off or given up while its transport is being closed. Another round follows
exactly if the login goes on after that first error, which is not about who the client is then, or after the time-out
of an attempt that was cut off. If no round follows, there is no other connection and the login fails; and it does so,
with the first error, if that is about who the client is and the transport has been closed. -/
theorem rejected_at_once {server : Server σ} {attempts : Nat} {s : LoginStart} {w : World σ}
    {r : RoundStart σ} {ended : Except Stop RoundEnd} {mid : LoginRun σ} {target : Target}
    {timeout : Option Span} (hw : w.Patient)
    (h : r ∈ s.course server attempts w)
    (ha : LoginM.roundAttempt (s.context server) r.plan r.run = (ended, mid))
    (hc : Connects r.run mid target timeout) (hans : Answered (sinceConnected mid.world.trace))
    (hrejected : Rejected (sinceConnected mid.world.trace)) :
    ∃ first : ServerMessage, firstFailure? (sinceConnected mid.world.trace) = some (.ofMessage first) ∧
      LoginM.EndsWith (.ofMessage first) target timeout r.run mid ended ∧
      (∀ r', r.Before (s.context server) r' ↔ ∃ e, ended = .ok (.failed e) ∧
        (e = .ofMessage first ∧ first.number ∉ Error.authFailureNumbers ∨ e = .connectTimeout target.toText) ∧
        Continues (s.context server) mid r.plan (.failed e) r'.plan r'.run) ∧
      ((∀ r', ¬ r.Before (s.context server) r') →
        (login server attempts s w).2.world.connects = r.run.world.connects + 1 ∧
        ∃ t, (login server attempts s w).1 = .error t) ∧
      (first.number ∈ Error.authFailureNumbers → ended = .ok (.failed (.ofMessage first)) →
        (login server attempts s w).2.world.connects = r.run.world.connects + 1 ∧
        (login server attempts s w).1 = .error (.failed (.ofMessage first))) := by
  obtain ⟨first, hfirst⟩ := hrejected.exists_first
  have hends := LoginM.endsWith_firstFailure ha hc hans hfirst
  have hno : ∀ e, ended ≠ .ok (.opened e) := by
    rintro e rfl
    rcases hends with ⟨⟨⟩⟩ | ⟨⟨⟩, -⟩ | ⟨⟨⟩⟩
  refine ⟨first, hfirst, hends, fun r' => ?_, fun hlast => ?_, fun hauth hfailed => ?_⟩
  · rw [LoginM.before_iff (LoginStart.patient_of_mem_course hw h)]
    constructor
    · rintro ⟨ended', mid', ha', hcontinues⟩
      cases ha.symm.trans ha'
      rcases hends with hfailed | ⟨hcut, -⟩ | habandoned
      · cases hfailed
        exact ⟨_, rfl, .inl ⟨rfl, fun hauth => hcontinues.not_final (Error.final_of_authFailure hauth)⟩, hcontinues⟩
      · cases hcut
        exact ⟨_, rfl, .inr rfl, hcontinues⟩
      · cases habandoned
    · rintro ⟨e, rfl, -, hcontinues⟩
      exact ⟨_, mid, ha, hcontinues⟩
  · rw [← hc.connects]
    exact LoginStart.fails_of_last h ha hno hlast
  · subst hfailed
    obtain ⟨htimeout, htransient⟩ := Error.final_of_authFailure hauth
    obtain ⟨hlogin, hconnects⟩ := LoginStart.login_of_final h ha htimeout htransient
    exact ⟨hconnects.trans hc.connects, hlogin⟩

/-- A login for one host. -/
def plainLogin : LoginStart := { config := { server := .ofHost "primary" } }

/-- A server that rejects the first login, and lets everybody in after that. -/
def rejectingWorld : World LoginScript where
  server := { queue := [.serverError 18456 14 "login failed"], fallback := .success [] }

/-- The first plan of the plain login, and how its attempt ends there. -/
def plainPlan : LoginPlan := .single { slice := 1200000000, backoff := plainLogin.config.retry.backoff }

def rejectedAttempt : Except Stop RoundEnd × LoginRun LoginScript :=
  LoginM.roundAttempt (plainLogin.context (LineFaults.server {})) plainPlan (plainLogin.begun rejectingWorld)

/-- The error that the server rejects the login with. -/
def loginFailed : ServerMessage where
  number := 18456
  state := 1
  severity := 14
  text := "login failed"
  server := "mock"
  procedure := ""
  line := 1

/-- The server would let the client in the second time, but there is none. -/
theorem plainLogin_rejected :
    (login (LineFaults.server {}) 2 plainLogin rejectingWorld).2.world.connects = 1 ∧
      (login (LineFaults.server {}) 2 plainLogin rejectingWorld).1 =
        .error (.failed (.ofMessage loginFailed)) := by
  have hplan : LoginM.firstPlan plainLogin.config (plainLogin.begun rejectingWorld) =
      (.ok plainPlan, plainLogin.begun rejectingWorld) := by
    rw [LoginM.firstPlan_apply, show (plainLogin.begun rejectingWorld).budget.slice = .ok 1200000000 by rfl]
    rfl
  have hcourse : ⟨plainPlan, plainLogin.begun rejectingWorld⟩ ∈
      plainLogin.course (LineFaults.server {}) 2 rejectingWorld :=
    LoginStart.first_mem_course (LineFaults.server {}) 1 rfl hplan
  have hfailed : rejectedAttempt.1.toOption.bind RoundEnd.error? = some (.ofMessage loginFailed) := by
    decide +kernel
  have hconnects : rejectedAttempt.2.world.connects = 1 := by decide +kernel
  have hanswered : (0, .answered 1) ∈ sinceConnected rejectedAttempt.2.world.trace := by decide +kernel
  have hfirst : firstFailure? (sinceConnected rejectedAttempt.2.world.trace) =
      some (.ofMessage loginFailed) := by
    decide +kernel
  have hrejected : Rejected (sinceConnected rejectedAttempt.2.world.trace) := by
    obtain ⟨event, hmem, hevent⟩ := List.exists_of_findSome?_eq_some hfirst
    exact ⟨event, List.mem_reverse.mp hmem, loginFailed, hevent, by decide⟩
  rcases hended : rejectedAttempt with ⟨ended, mid⟩
  rw [hended] at hfailed hconnects hanswered hfirst hrejected
  unfold rejectedAttempt at hended
  rcases LoginM.roundAttempt_connects hended with ⟨hworld, -⟩ | ⟨target, timeout, -, hconnected⟩
  · rw [hworld] at hconnects
    cases hconnects
  have hpatient : rejectingWorld.Patient := rfl
  obtain ⟨first, hfirst', hends, -, -, hfinal⟩ :=
    rejected_at_once hpatient hcourse hended hconnected ⟨_, hanswered, 1, rfl⟩ hrejected
  have hsame : Error.ofMessage loginFailed = .ofMessage first := Option.some.inj (hfirst.symm.trans hfirst')
  have hauth : first.number ∈ Error.authFailureNumbers := by
    rw [← (Error.server.inj hsame).1]
    decide
  rw [← hsame] at hends hfinal
  rcases hends with rfl | ⟨rfl, -⟩ | rfl
  · exact hfinal hauth rfl
  · cases hfailed
  · cases hfailed

/-! ## A rejection that is tried again -/

/-- A server that is busy and rejects the login in one response, and lets everybody in after that. -/
def busyRejectingWorld : World LoginScript where
  server :=
    { queue := [.respond [.error 40613 14 "busy", .error 18456 14 "login failed", .doneError] false]
      fallback := .success [] }

/-- A login for two hosts. -/
def mirroredLogin : LoginStart :=
  { config := { server := .ofHost "primary", partner := some (.ofHost "mirror") } }

/-- A server whose first connection cannot be closed once the login has been rejected. -/
def unclosingServer : Server Unit where
  connect _ number _ _ :=
    let line : Line :=
      if number = 1 then
        { LineFaults.line {} number [.error 18456 14 "login failed", .doneError] false with
          disconnect := { delay := none, value := .ok () } }
      else LineFaults.line {} number [.textChange .mirroringPartner "primary" "", .loginAck .v7_4, .done] false
    (.now (.ok line), ())

/-- After an error that may pass, the rejection counts for nothing; and a rejection is forgotten if the
connection cannot be closed in time. -/
theorem rejected_and_tried_again :
    ((0, Event.answered 1) ∈ (login (LineFaults.server {}) 2 plainLogin busyRejectingWorld).2.world.trace ∧
      ((login (LineFaults.server {}) 2 plainLogin busyRejectingWorld).2.world.history.filterMap
        fun e => e.2.failure?) =
          [.server 40613 14 1 "busy" (some "mock"), .server 18456 14 1 "login failed" (some "mock")] ∧
      (login (LineFaults.server {}) 2 plainLogin busyRejectingWorld).2.world.connects = 2 ∧
      (login (LineFaults.server {}) 2 plainLogin busyRejectingWorld).1.isOk) ∧
    ((0, Event.answered 1) ∈ (login unclosingServer 2 mirroredLogin { server := () }).2.world.trace ∧
      ((login unclosingServer 2 mirroredLogin { server := () }).2.world.history.filterMap
        fun e => e.2.failure?) = [.server 18456 14 1 "login failed" (some "mock")] ∧
      (login unclosingServer 2 mirroredLogin { server := () }).2.world.connects = 2 ∧
      (login unclosingServer 2 mirroredLogin { server := () }).1.isOk) := by
  refine ⟨⟨?_, ?_, ?_, ?_⟩, ?_, ?_, ?_, ?_⟩ <;> decide +kernel

end TdsSession
