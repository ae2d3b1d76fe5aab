import TdsSession.Proofs.Login.Established
import TdsSession.Proofs.Login.Reported

/-!
# What is sent over a transport that is not encrypted

Every handshake asks for encryption if the options require it, and its answer
says whether the transport is encrypted from there on. Nothing depends on the
answer but what the session says about itself: a login follows every answer at
once (`sent_in_clear_iff`). So the credentials are safe in those logins in which
every handshake that is answered is answered with encryption, and in no others.
-/

namespace TdsSession

variable {σ : Type}

/-- The event of showing over connection `n` who the client is: a login, with a user, a password or a token, or a token
that the server has asked for. -/
def Event.identifies (n : Nat) : Event → Prop
  | .login k .. | .token k .. => k = n
  | _ => False

/-- What shows who the client is does not end a login, nor does it come between two attempts. -/
theorem Event.identifies.ofAttempt {n : Nat} {e : Event} (h : e.identifies n) :
    e ≠ .began ∧ ¬ LoginM.closes e ∧ ¬ e.between ∧ e.isConnected = false := by
  cases e with
  | login k q sent => exact ⟨nofun, id, id, rfl⟩
  | token k token sent => exact ⟨nofun, id, id, rfl⟩
  | _ => exact h.elim

/-- Since a connection was tried last, which is connection `n`, its handshake has been answered with encryption. -/
def EncryptedOver (n : Nat) (events : List (Moment × Event)) : Prop :=
  ∃ t ack, (t, .acknowledged n ack) ∈ sinceConnected events ∧ ack.encryption = true

namespace Requests

variable {p : AttemptPlan} {n : Nat} {added older : List (Moment × Event)} {t : Moment}

/-- The login follows the answer to the handshake at once, whatever the answer is. -/
theorem of_acknowledged {k : Nat} {ack : HandshakeAnswer} (h : Requests p n added)
    (he : (t, .acknowledged k ack) :: older <:+ added) :
    ∃ t' sent, (t', .login k p.login sent) :: (t, .acknowledged k ack) :: older <:+ added ∧
      shown Event.answer? older = [] := by
  rcases h.event_cases he with ⟨_, _, heq, -⟩ | ⟨_, _, t', _, sent, _, ⟨heq, hopening⟩ | heq | ⟨hnothing, -⟩⟩
  · cases heq
  · cases heq
    exact ⟨t', sent, hopening, rfl⟩
  · cases heq
  · cases hnothing.answer

/-- Whoever shows who it is has been given an answer to its handshake. -/
theorem acknowledged_of_identifies {e : Event} (h : Requests p n added) (he : (t, e) :: older <:+ added)
    (hidentifies : e.identifies n) : ∃ t' ack, (t', .acknowledged n ack) ∈ older := by
  rcases h.event_cases he with ⟨_, _, heq, -⟩ | ⟨_, t', _, _, _, ack, ⟨heq, -⟩ | heq | ⟨-, hopening⟩⟩
  · cases heq
    exact hidentifies.elim
  · cases heq
    exact hidentifies.elim
  · cases heq
    exact ⟨t', ack, List.mem_cons_self⟩
  · exact ⟨t', ack, hopening.subset (List.mem_cons_of_mem _ List.mem_cons_self)⟩

end Requests

namespace LoginStart

variable {s : LoginStart} {server : Server σ} {attempts : Nat} {w : World σ}

/-- What an attempt of a login has asked for over connection `n` by the plan `p`, among all that has happened. -/
structure Asks (s : LoginStart) (w : World σ) (trace : List (Moment × Event)) (p : AttemptPlan) (n : Nat)
    (added before : List (Moment × Event)) : Prop where
  config : p.config = s.config
  requests : Requests p n added
  onConnection : ∀ e ∈ added, e.2.over n
  new : w.trace <:+ before
  whole : added ++ before <:+ trace

/-- What happens over a connection, other than that a transport is closed or a provider is asked, is part of what an
attempt has asked for. -/
theorem asks_of_event {e : Moment × Event} {older : List (Moment × Event)} (hb : e.2 ≠ .began)
    (hc : ¬ LoginM.closes e.2) (hbetween : ¬ e.2.between) (hconnected : e.2.isConnected = false)
    (he : e :: older <:+ (login server attempts s w).2.world.trace) (hnew : w.trace <:+ older) :
    ∃ p n added earlier before, s.Asks w (login server attempts s w).2.world.trace p n added before ∧
      e :: earlier <:+ added ∧ older = earlier ++ before ∧ sinceConnected older = earlier := by
  obtain ⟨r, hr, ended, mid, target, timeout, earlier, ha, hconnects, hheard, rfl⟩ :=
    attempt_of_event hb hc hbetween hconnected he hnew
  obtain ⟨aliases, res, after, -, -, -, -, hrequests, -⟩ := LoginM.roundAttempt_exchange ha hconnects
  refine ⟨(s.context server).attempt target timeout r.run.world.now, r.run.world.connects + 1,
    sinceConnected mid.world.trace, earlier, _, ?_, hheard, rfl, ?_⟩
  · exact {
      config := rfl
      requests := hrequests
      onConnection := fun e he => hconnects.over_of_mem_sinceConnected he
      new := (suffix_of_mem_course hr).trans (List.suffix_cons ..)
      whole := by
        rw [← hconnects.trace_eq]
        exact (LoginM.attempt_suffix ha).trans (round_suffix_of_mem hr) }
  · refine sinceConnected_append fun e he => ?_
    exact (hconnects.over_of_mem_sinceConnected (hheard.subset (List.mem_cons_of_mem _ he))).isConnected

/-- A handshake asks for what the options and the target make of it. -/
theorem handshake_of_event {t : Moment} {n : Nat} {request : HandshakeRequest} {delivered : Bool}
    {older : List (Moment × Event)}
    (he : (t, .handshake n request delivered) :: older <:+ (login server attempts s w).2.world.trace)
    (hnew : w.trace <:+ older) : ∃ p : AttemptPlan, p.config = s.config ∧ request = p.handshake := by
  obtain ⟨p, n, added, earlier, before, hasks, hearlier, -, -⟩ :=
    asks_of_event (by rintro ⟨⟩) (by rintro ⟨⟩) (by rintro ⟨⟩) rfl he hnew
  refine ⟨p, hasks.config, ?_⟩
  rcases hasks.requests.event_cases hearlier with ⟨_, _, heq, -⟩ | ⟨_, _, _, _, _, _, ⟨heq, -⟩ | heq | ⟨hnothing, -⟩⟩
  · cases heq
    rfl
  · cases heq
  · cases heq
  · cases hnothing.handshake

/-- A handshake asks for encryption if the options require it. -/
theorem encrypt_of_handshake {t : Moment} {n : Nat} {request : HandshakeRequest} {delivered : Bool}
    {older : List (Moment × Event)}
    (he : (t, .handshake n request delivered) :: older <:+ (login server attempts s w).2.world.trace)
    (hnew : w.trace <:+ older) : request.encrypt = s.config.encrypt := by
  obtain ⟨p, hconfig, rfl⟩ := handshake_of_event he hnew
  exact congrArg Config.encrypt hconfig

/-- An answer to a handshake is followed by a login, and it is the only one over its connection. -/
theorem login_of_acknowledged {t : Moment} {n : Nat} {ack : HandshakeAnswer} {older : List (Moment × Event)}
    (he : (t, .acknowledged n ack) :: older <:+ (login server attempts s w).2.world.trace) (hnew : w.trace <:+ older) :
    (∃ t' q sent, (t', .login n q sent) :: (t, .acknowledged n ack) :: older <:+
      (login server attempts s w).2.world.trace) ∧ shown Event.answer? (sinceConnected older) = [] := by
  obtain ⟨p, n', added, earlier, before, hasks, hearlier, rfl, hsince⟩ :=
    asks_of_event (by rintro ⟨⟩) (by rintro ⟨⟩) (by rintro ⟨⟩) rfl he hnew
  obtain ⟨t', sent, hlogin, hfirst⟩ := hasks.requests.of_acknowledged hearlier
  refine ⟨⟨t', p.login, sent, ?_⟩, by rw [hsince]; exact hfirst⟩
  exact (List.suffix_append_self_iff.mpr hlogin).trans hasks.whole

/-- Whoever shows who it is over a connection has been given an answer to its handshake there. -/
theorem acknowledged_of_identifies {t : Moment} {n : Nat} {e : Event} {older : List (Moment × Event)}
    (hidentifies : e.identifies n) (he : (t, e) :: older <:+ (login server attempts s w).2.world.trace)
    (hnew : w.trace <:+ older) :
    ∃ t' ack earlier, (t', .acknowledged n ack) ∈ sinceConnected older ∧
      (t', .acknowledged n ack) :: earlier <:+ (login server attempts s w).2.world.trace ∧ w.trace <:+ earlier := by
  obtain ⟨hbegan, hcloses, hbetween, hconnected⟩ := hidentifies.ofAttempt
  obtain ⟨p, n', added, earlier, before, hasks, hearlier, rfl, hsince⟩ :=
    asks_of_event hbegan hcloses hbetween hconnected he hnew
  have hover := hasks.onConnection _ (hearlier.subset List.mem_cons_self)
  obtain rfl : n = n' := by
    cases e <;> first | exact hidentifies.elim | exact hidentifies.symm.trans (hover.elim id nofun)
  obtain ⟨t', ack, hack⟩ := hasks.requests.acknowledged_of_identifies hearlier hidentifies
  obtain ⟨newer, rest, hsplit⟩ := List.append_of_mem hack
  refine ⟨t', ack, rest ++ before, by rw [hsince]; exact hack, ?_, hasks.new.trans (List.suffix_append _ _)⟩
  rw [hsplit, List.append_assoc] at he
  exact (List.suffix_append newer _).trans ((List.suffix_cons _ _).trans he)

/-- An answer without encryption leaves the connection unencrypted. -/
theorem not_encryptedOver_of_acknowledged {t : Moment} {n : Nat} {ack : HandshakeAnswer}
    {older : List (Moment × Event)}
    (he : (t, .acknowledged n ack) :: older <:+ (login server attempts s w).2.world.trace) (hnew : w.trace <:+ older)
    (hack : ack.encryption = false) : ¬ EncryptedOver n ((t, .acknowledged n ack) :: older) := by
  obtain ⟨-, hfirst⟩ := login_of_acknowledged he hnew
  rintro ⟨t', ack', hmem, hencrypted⟩
  rw [sinceConnected, List.takeWhile_cons_of_pos rfl] at hmem
  rcases List.mem_cons.mp hmem with heq | hearlier
  · cases heq
    rw [hack] at hencrypted
    cases hencrypted
  · have hshown : ack' ∈ shown Event.answer? (sinceConnected older) := mem_shown.mpr ⟨t', _, hearlier, rfl⟩
    rw [hfirst] at hshown
    cases hshown

/-- A session is encrypted if the answer to the handshake over its transport says so. -/
theorem encrypted_of_login {e : Established} (h : (login server attempts s w).1 = .ok e) :
    ∃ t ack older, (t, .acknowledged e.transport.number ack) :: older <:+ (login server attempts s w).2.world.trace ∧
      w.trace <:+ older ∧ e.state.encrypted = ack.encryption := by
  obtain ⟨run, mid, ack, res, hopened, htrace⟩ := opened_of_login h
  obtain ⟨target, timeout, hconnects⟩ := hopened.connects
  have hmem : ack ∈ shown Event.answer? (sinceConnected mid.world.trace) := by
    rw [hopened.answer]
    exact List.mem_singleton_self _
  obtain ⟨t, event, hevent, hshows⟩ := mem_shown.mp hmem
  have hover := hconnects.over_of_mem_sinceConnected hevent
  cases event <;> cases hshows
  rename_i n
  obtain rfl : n = e.transport.number := (hover.elim id nofun).trans hopened.number.symm
  obtain ⟨newer, rest, hsplit⟩ := List.append_of_mem hevent
  let before := (run.world.now, Event.connected (run.world.connects + 1) target timeout) :: run.world.trace
  have hbefore : (t, .acknowledged e.transport.number ack) :: (rest ++ before) <:+ mid.world.trace := by
    rw [hconnects.trace_eq, hsplit, List.append_assoc]
    exact List.suffix_append ..
  refine ⟨t, ack, rest ++ before, ?_, (hopened.trace.trans (List.suffix_cons ..)).trans (List.suffix_append ..), ?_⟩
  · rw [htrace]
    exact hbefore.trans (List.suffix_cons ..)
  · rw [hopened.state, (Response.alters_of_advanceAll hopened.response).encrypted]
    rfl

end LoginStart

/-- A handshake asks for encryption if the options require it, and whatever its answer is, the login is sent at once.
So somebody shows who it is over a connection that is not encrypted exactly if any handshake is answered without
encryption. And a session is encrypted exactly if the handshake over its own transport was answered so. -/
theorem sent_in_clear_iff (server : Server σ) (attempts : Nat) (s : LoginStart) (w : World σ) :
    (∀ t n request delivered older,
      (t, .handshake n request delivered) :: older <:+ (login server attempts s w).2.world.trace → w.trace <:+ older →
      request.encrypt = s.config.encrypt) ∧
    (∀ t n ack older,
      (t, .acknowledged n ack) :: older <:+ (login server attempts s w).2.world.trace → w.trace <:+ older →
      ∃ t' q sent, (t', .login n q sent) :: (t, .acknowledged n ack) :: older <:+
        (login server attempts s w).2.world.trace) ∧
    ((∃ t n e older, e.identifies n ∧ (t, e) :: older <:+ (login server attempts s w).2.world.trace ∧
        w.trace <:+ older ∧ ¬ EncryptedOver n older) ↔
      ∃ t n ack older, (t, .acknowledged n ack) :: older <:+ (login server attempts s w).2.world.trace ∧
        w.trace <:+ older ∧ ack.encryption = false) ∧
    ∀ e, (login server attempts s w).1 = .ok e →
      ∃ t ack older, (t, .acknowledged e.transport.number ack) :: older <:+ (login server attempts s w).2.world.trace ∧
        w.trace <:+ older ∧ e.state.encrypted = ack.encryption := by
  refine ⟨fun t n request delivered older => LoginStart.encrypt_of_handshake, fun t n ack older he hnew =>
    (LoginStart.login_of_acknowledged he hnew).1, ⟨?_, ?_⟩, fun e => LoginStart.encrypted_of_login⟩
  · rintro ⟨t, n, e, older, hidentifies, he, hnew, hclear⟩
    obtain ⟨t', ack, earlier, hmem, hearlier, hnew'⟩ := LoginStart.acknowledged_of_identifies hidentifies he hnew
    refine ⟨t', n, ack, earlier, hearlier, hnew', ?_⟩
    rw [← Bool.not_eq_true]
    exact fun hencrypted => hclear ⟨t', ack, hmem, hencrypted⟩
  · rintro ⟨t, n, ack, older, he, hnew, hack⟩
    obtain ⟨⟨t', q, sent, hlogin⟩, -⟩ := LoginStart.login_of_acknowledged he hnew
    exact ⟨t', n, .login n q sent, _, rfl, hlogin, hnew.trans (List.suffix_cons ..),
      LoginStart.not_encryptedOver_of_acknowledged he hnew hack⟩

/-- A login with a password, and the options as they are by default. -/
def passwordLogin : LoginStart where
  config := { server := .ofHost "primary", credentials := .password "user" "secret" }

def clearWorld : World LoginScript where
  server := { fallback := .success [] }

/-- The login at a server that refuses encryption. -/
def clearLogin : Except Stop Established × LoginRun LoginScript :=
  login (LineFaults.server { encryption := some false }) 2 passwordLogin clearWorld

/-- The login is sent over the connection without encryption, and the session knows about that. -/
theorem clearLogin_in_clear :
    (∃ t n e older, e.identifies n ∧ (t, e) :: older <:+ clearLogin.2.world.trace ∧ ¬ EncryptedOver n older) ∧
    ∃ e, clearLogin.1 = .ok e ∧ ∃ t ack older,
      (t, .acknowledged e.transport.number ack) :: older <:+ clearLogin.2.world.trace ∧
        e.state.encrypted = ack.encryption := by
  have hok : clearLogin.1.isOk := by decide +kernel
  have hrefused : ∃ older, (0, Event.acknowledged 1 ⟨false, false⟩) :: older <:+ clearLogin.2.world.trace :=
    ⟨clearLogin.2.world.trace.drop 6, by decide +kernel⟩
  obtain ⟨-, -, hiff, hsession⟩ :=
    sent_in_clear_iff (LineFaults.server { encryption := some false }) 2 passwordLogin clearWorld
  rw [show login (LineFaults.server { encryption := some false }) 2 passwordLogin clearWorld = clearLogin from rfl]
    at hiff hsession
  constructor
  · obtain ⟨older, hrefused⟩ := hrefused
    obtain ⟨t, n, e, older, hidentifies, he, -, hclear⟩ :=
      hiff.mpr ⟨0, 1, ⟨false, false⟩, older, hrefused, List.nil_suffix, rfl⟩
    exact ⟨t, n, e, older, hidentifies, he, hclear⟩
  · rcases h : clearLogin.1 with stop | e
    · rw [h] at hok
      cases hok
    · obtain ⟨t, ack, older, hack, -, hencrypted⟩ := hsession e h
      exact ⟨e, rfl, t, ack, older, hack, hencrypted⟩

/-- The options require encryption and the server refuses it, and still it gets the password and gives a session. -/
theorem password_sent_in_clear : passwordLogin.config.encrypt = true ∧ clearLogin.2.world.connects = 1 ∧
    (0, Event.acknowledged 1 ⟨false, false⟩) ∈ clearLogin.2.world.trace ∧
    clearLogin.2.world.trace.filterMap (fun e => e.2.login?.map (·.password)) = ["secret"] ∧
    clearLogin.1.toOption.map (·.state.encrypted) = some false := by
  refine ⟨rfl, ?_, ?_, ?_, ?_⟩ <;> decide +kernel

end TdsSession
